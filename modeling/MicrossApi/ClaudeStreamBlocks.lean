/-
MicrossApi/ClaudeStreamBlocks.lean

The form of the Claude stream that chat completion chunks are turned into: one
`message_start`, whole blocks numbered 0, 1, 2, …, then `message_delta` and
`message_stop`.

The converter numbers text and thinking blocks itself, but takes the offset of a
tool's block from the upstream's index.  That is right as long as the tool-call
deltas it looks at are those of one group that starts at index 0 (`InOrder`).  It
is wrong when a delta comes for a tool whose block is closed already, or was never
opened: after text between two tool calls, after a first chunk with several tool
calls, and after a finishing chunk that was put off for want of a usage.  From
then on the stream cannot become whole again (`Doomed`), whatever comes.
-/
import MicrossApi.ClaudeStream
import MicrossApi.NumberedBlocks
import MicrossApi.StepSystem

namespace MicrossApi

open List Transducer NumberedBlocks StepSystem

/-! ### The form of a stream -/

/-- The kinds of content blocks. -/
inductive BlockKind where
  | text
  | thinking
  | toolUse
deriving DecidableEq, Repr

/-- The kind of a content block. -/
def MediaType.blockKind? : MediaType → Option BlockKind
  | .text => some .text
  | .thinking => some .thinking
  | .toolUse => some .toolUse
  | _ => none

/-- The kind of block a delta is for. -/
def MediaType.deltaKind? : MediaType → Option BlockKind
  | .textDelta => some .text
  | .thinkingDelta => some .thinking
  | .inputJsonDelta => some .toolUse
  | _ => none

/-- What the event says about a block, if it is about a block.  A
`content_block_stop` does not name a kind. -/
def ClaudeResponse.blockEvent? (e : ClaudeResponse) : Option (BlockEvent BlockKind (Option BlockKind)) :=
  match e.type, e.index with
  | .contentBlockStart, some i => e.contentBlock.bind fun b => b.type.blockKind?.map (.start i)
  | .contentBlockDelta, some i => e.delta.bind fun d => d.type.deltaKind?.map fun k => .delta i (some k)
  | .contentBlockStop, some i => some (.stop i none)
  | _, _ => none

/-- The kind of a delta is that of its block. -/
def FitsKind (k : BlockKind) (d : Option BlockKind) : Prop := ∀ k' ∈ d, k' = k
deriving Decidable

/-- A whole Claude stream. -/
def MessageFormed (events : List ClaudeResponse) : Prop :=
  ∃ (start : ClaudeResponse) (body : List ClaudeResponse) (delta stop : ClaudeResponse)
    (blocks : List (BlockEvent BlockKind (Option BlockKind))),
    events = start :: (body ++ [delta, stop]) ∧ start.type = .messageStart ∧
      delta.type = .messageDelta ∧ stop.type = .messageStop ∧
      body.map ClaudeResponse.blockEvent? = blocks.map some ∧ WellFormed FitsKind blocks

/-! ### What the upstream sends -/

/-- The tool-call deltas of a chunk. -/
def ChatChunk.toolCalls (chunk : ChatChunk) : List ToolCallResponse :=
  match chunk.choices with
  | [] => []
  | choice :: _ => choice.delta.toolCalls

/-- The delta of the chunk's choice. -/
def ChatChunk.delta (chunk : ChatChunk) : ChoiceDelta :=
  match chunk.choices with
  | [] => {}
  | choice :: _ => choice.delta

/-- The rules for tool-call deltas, `n` indices having appeared: a new index is
the next one and comes with id and name, and an old one comes without a name. -/
def FollowRules : Nat → List ToolCallResponse → Prop
  | _, [] => True
  | n, c :: cs =>
    (c.index = some (n : Int) ∧ c.id ≠ "" ∧ c.name ≠ "" ∧ FollowRules (n + 1) cs) ∨
      (∃ j : Nat, j < n ∧ c.index = some (j : Int)) ∧ c.name = "" ∧ FollowRules n cs

/-- The tool-call deltas that the converter looks at: all but those of a
finishing chunk without a usage, and of the first chunk one only. -/
def lookedAt (s : Nat × ClaudeConvertInfo) (chunk : ChatChunk) : List ToolCallResponse :=
  if s.2.done then []
  else
    match chunk.choices with
    | [] => []
    | choice :: _ =>
      if s.1 = 1 then choice.delta.toolCalls.take 1
      else if choice.finish.isSome ∧ chunk.usage = none then []
      else choice.delta.toolCalls

/-- A finishing chunk that is not the first is not looked at until there is a usage. -/
def HeldBack (st : Nat × ClaudeConvertInfo) (chunk : ChatChunk) : Prop :=
  st.1 ≠ 1 ∧ (∃ choice ∈ chunk.choices.head?, choice.finish.isSome) ∧ chunk.usage = none
deriving Decidable

/-- The number of tool blocks that are open. -/
def ClaudeConvertInfo.openTools (s : ClaudeConvertInfo) : Nat :=
  if s.lastMessagesType = .tools then s.toolCallMaxIndexOffset + 1 else 0

/-- Each delta is for one of the `n` open tool blocks, or opens the next one. -/
def InOrder : Nat → List ToolCallResponse → Prop
  | _, [] => True
  | n, c :: cs =>
    (c.index = some (n : Int) ∧ c.name ≠ "" ∧ InOrder (n + 1) cs) ∨
      (∃ j : Nat, j < n ∧ c.index = some (j : Int)) ∧ c.name = "" ∧ InOrder n cs

instance FollowRules.decidable : ∀ (n : Nat) (calls : List ToolCallResponse), Decidable (FollowRules n calls)
  | _, [] => isTrue trivial
  | n, _ :: cs =>
    have := FollowRules.decidable (n + 1) cs
    have := FollowRules.decidable n cs
    inferInstanceAs (Decidable (_ ∨ _))

instance InOrder.decidable : ∀ (n : Nat) (calls : List ToolCallResponse), Decidable (InOrder n calls)
  | _, [] => isTrue trivial
  | n, _ :: cs =>
    have := InOrder.decidable (n + 1) cs
    have := InOrder.decidable n cs
    inferInstanceAs (Decidable (_ ∨ _))

/-- The tool calls that the converter looks at in a chunk belong to the group of
tool blocks that is open, or start one. -/
def ToolsInOrder (s : Nat × ClaudeConvertInfo) (chunk : ChatChunk) : Prop :=
  InOrder s.2.openTools (lookedAt s chunk)
deriving Decidable

/-! ### Watching the events -/

/-- The watchman sees one event of the stream; only events about blocks pass. -/
def watchEvent (t : Track BlockKind) (e : ClaudeResponse) : Option (Track BlockKind) :=
  see FitsKind ClaudeResponse.blockEvent? t e

/-- The watchman sees several. -/
def watchEvents (t : Track BlockKind) (events : List ClaudeResponse) : Option (Track BlockKind) :=
  seeAll FitsKind ClaudeResponse.blockEvent? t events

section Watching

variable {t t' : Track BlockKind} {k : BlockKind} {i : Int} {e : ClaudeResponse}
  {events : List ClaudeResponse}

variable (t k i e events)

@[simp] theorem watchEvents_nil : watchEvents t [] = some t := rfl

@[simp] theorem watchEvents_cons :
    watchEvents t (e :: events) = (watchEvent t e).bind fun t' => watchEvents t' events := rfl

theorem watchEvents_append (events' : List ClaudeResponse) :
    watchEvents t (events ++ events') = (watchEvents t events).bind fun t' => watchEvents t' events' :=
  seeAll_append t events events'

@[simp] theorem watchEvent_stop : watchEvent t (generateStopBlock i) = watch FitsKind t (.stop i none) := rfl

@[simp] theorem watchEvent_json (s : String) :
    watchEvent t (blockDelta i (inputJsonDelta s)) = watch FitsKind t (.delta i (some .toolUse)) := rfl

theorem fitsKind_some : FitsKind k (some k) := by
  intro k' hk'
  exact (Option.some.inj hk').symm

theorem fitsKind_none : FitsKind k none := by
  intro k' hk'
  cases hk'

variable {t events}

theorem watchEvents_eq_some_append (h : watchEvents t events = some t') (events' : List ClaudeResponse) :
    watchEvents t (events ++ events') = watchEvents t' events' := by
  rw [watchEvents_append, h]
  rfl

end Watching

/-! ### The track of a conversion -/

/-- What has been put out so far leaves the watchman with `t`: the blocks before
the open ones are closed, and the state knows the numbers of the open ones. -/
def Tracks (s : ClaudeConvertInfo) (t : Track BlockKind) : Prop :=
  ∃ closed : Track BlockKind, (∀ x ∈ closed, x.2 = false) ∧
    match s.lastMessagesType with
    | .none => t = closed ∧ s.index = closed.length
    | .text => t = closed ++ [(.text, true)] ∧ s.index = closed.length
    | .thinking => t = closed ++ [(.thinking, true)] ∧ s.index = closed.length
    | .tools =>
      t = closed ++ List.replicate (s.toolCallMaxIndexOffset + 1) (.toolUse, true) ∧
        s.toolCallBaseIndex = closed.length

variable {delta : ChoiceDelta} {chunk : ChatChunk} {b : Int}

section Tracking

variable {s s' : ClaudeConvertInfo} {t t' closed : Track BlockKind} {k : BlockKind} {base : Int}
  {n m i maxOffset : Nat} {c : ToolCallResponse} {cs : List ToolCallResponse}
  {kind : LastMessageType}

theorem tracks_start (usage : Option Usage) : Tracks { usage := usage } [] :=
  ⟨[], by simp, rfl, rfl⟩

theorem forall_closed_append {u : Track BlockKind} (ht : ∀ x ∈ t, x.2 = false)
    (hu : ∀ x ∈ u, x.2 = false) : ∀ x ∈ t ++ u, x.2 = false := by
  intro x hx
  rcases mem_append.mp hx with h | h
  · exact ht x h
  · exact hu x h

theorem watch_stop_tools (closed : Track BlockKind) (m : Nat) : ∀ n, n ≤ m →
    watchEvents (closed ++ List.replicate m (.toolUse, true))
        ((List.range n).map fun offset : Nat => generateStopBlock (closed.length + offset))
      = some (closed ++ List.replicate n (.toolUse, false) ++ List.replicate (m - n) (.toolUse, true)) := by
  intro n
  induction n with
  | zero => simp
  | succ n ih =>
    intro hn
    have hlen : (closed.length : Int) + n
        = (closed ++ List.replicate n (BlockKind.toolUse, false)).length := by
      simp
    have hrest : List.replicate (m - n) (BlockKind.toolUse, true)
        = (.toolUse, true) :: List.replicate (m - (n + 1)) (.toolUse, true) := by
      rw [show m - n = m - (n + 1) + 1 by omega, replicate_succ]
    rw [range_succ, map_append, watchEvents_eq_some_append (ih (by omega)), hrest]
    simp only [map_cons, watchEvents_cons, watchEvent_stop, hlen]
    rw [watch_stop_at _ _ (fitsKind_none _), replicate_succ']
    simp

theorem watch_stopOpenBlocks (h : Tracks s t) :
    ∃ t', watchEvents t (stopOpenBlocks s) = some t' ∧ (∀ x ∈ t', x.2 = false) ∧
      s.advance.index = t'.length ∧ s.advance.lastMessagesType = .none := by
  obtain ⟨closed, hclosed, h⟩ := h
  have hone : ∀ k, watchEvents (closed ++ [(k, true)]) [generateStopBlock closed.length]
      = some (closed ++ [(k, false)]) := by
    intro k
    simp only [watchEvents_cons, watchEvent_stop]
    rw [watch_stop_at _ _ (fitsKind_none _)]
    rfl
  unfold stopOpenBlocks ClaudeConvertInfo.advance
  rcases hlast : s.lastMessagesType with - | - | - | - <;> rw [hlast] at h <;> obtain ⟨rfl, hi⟩ := h
  · exact ⟨t, rfl, hclosed, hi, hlast⟩
  · rw [hi]
    exact ⟨_, hone _, forall_closed_append hclosed (by simp), by simp, rfl⟩
  · rw [hi]
    refine ⟨_, watch_stop_tools closed _ _ le_rfl, ?_, by simp [add_assoc], rfl⟩
    rw [Nat.sub_self, replicate_zero, append_nil]
    refine forall_closed_append hclosed fun x hx => ?_
    rw [eq_of_mem_replicate hx]
  · rw [hi]
    exact ⟨_, hone _, forall_closed_append hclosed (by simp), by simp, rfl⟩

/-- A block of a kind that is open now. -/
theorem tracks_open (hclosed : ∀ x ∈ closed, x.2 = false) (hi : s.index = closed.length)
    (hs : s.lastMessagesType = .text ∧ k = .text ∨ s.lastMessagesType = .thinking ∧ k = .thinking) :
    Tracks s (closed ++ [(k, true)]) := by
  refine ⟨closed, hclosed, ?_⟩
  rcases hs with ⟨hs, rfl⟩ | ⟨hs, rfl⟩ <;> rw [hs] <;> exact ⟨rfl, hi⟩

/-- The kind of block that a message type leaves open. -/
def LastMessageType.Opens (kind : LastMessageType) (block : ClaudeMediaMessage) (k : BlockKind) : Prop :=
  (kind = .text ∧ k = .text ∨ kind = .thinking ∧ k = .thinking) ∧ block.type.blockKind? = some k

theorem watchEvent_start {block : ClaudeMediaMessage} (h : block.type.blockKind? = some k) (i : Int) :
    watchEvent t (blockStart i block) = watch FitsKind t (.start i k) := by
  simp [watchEvent, see, ClaudeResponse.blockEvent?, blockStart, h]

theorem watch_more (hi : s.index = closed.length)
    {delta : ClaudeMediaMessage} (hd : delta.type.deltaKind? = some k) :
    watchEvents (closed ++ [(k, true)]) [blockDelta s.index delta] = some (closed ++ [(k, true)]) := by
  have hview : watchEvent (closed ++ [(k, true)]) (blockDelta s.index delta)
      = watch FitsKind (closed ++ [(k, true)]) (.delta s.index (some k)) := by
    simp [watchEvent, see, ClaudeResponse.blockEvent?, blockDelta, hd]
  rw [watchEvents_cons, hview, hi, watch_delta_at _ _ (fitsKind_some k)]
  rfl

theorem watch_switchTo {block delta : ClaudeMediaMessage}
    (hk : kind.Opens block k) (hd : delta.type.deltaKind? = some k) (h : Tracks s t) :
    ∃ t', watchEvents t ((s.switchTo kind block).2 ++ [blockDelta (s.switchTo kind block).1.index delta])
        = some t' ∧ Tracks (s.switchTo kind block).1 t' := by
  unfold ClaudeConvertInfo.switchTo
  split_ifs with hlast
  · obtain ⟨closed, hclosed, hs⟩ := h
    have hopen : t = closed ++ [(k, true)] ∧ s.index = closed.length := by
      rcases hk.1 with ⟨rfl, rfl⟩ | ⟨rfl, rfl⟩ <;> rw [hlast] at hs <;> exact hs
    obtain ⟨rfl, hi⟩ := hopen
    refine ⟨_, watch_more hi hd, tracks_open hclosed hi ?_⟩
    rw [hlast]
    exact hk.1
  · obtain ⟨closed, hw, hclosed, hi, -⟩ := watch_stopOpenBlocks h
    refine ⟨closed ++ [(k, true)], ?_, tracks_open hclosed hi hk.1⟩
    rw [append_assoc, watchEvents_eq_some_append hw, singleton_append, watchEvents_cons, watchEvent_start hk.2,
      watch_start_iff.mpr ⟨hi, rfl⟩]
    exact watch_more (s := { s.advance with lastMessagesType := kind }) hi hd

/-- On the first chunk nothing of the kind is open yet. -/
theorem switchToFirst_eq (block : ClaudeMediaMessage)
    (h : s.lastMessagesType ≠ kind) : s.switchToFirst kind block = s.switchTo kind block := by
  unfold ClaudeConvertInfo.switchToFirst ClaudeConvertInfo.switchTo
  rw [if_neg h, if_neg h]

/-- The content of a chunk goes into blocks of its kind. -/
theorem watch_contentEvents (h : Tracks s t) (delta : ChoiceDelta) :
    ∃ t', watchEvents t (contentEvents s.switchTo s delta).2 = some t' ∧
      Tracks (contentEvents s.switchTo s delta).1 t' := by
  unfold contentEvents
  split_ifs
  · exact watch_switchTo ⟨.inr ⟨rfl, rfl⟩, rfl⟩ rfl h
  · exact watch_switchTo ⟨.inl ⟨rfl, rfl⟩, rfl⟩ rfl h
  · exact ⟨t, rfl, h⟩

/-! ### Tool calls -/

/-- `m` tool blocks of the group are open, and the largest offset fits. -/
def GroupOpen (m maxOffset : Nat) : Prop := m = 0 ∧ maxOffset = 0 ∨ m = maxOffset + 1

theorem watch_toolCall_new (closed : Track BlockKind) (m : Nat) (hname : c.name ≠ "") :
    watchEvents (closed ++ List.replicate m (.toolUse, true)) (toolCallEvents (closed.length + m) c)
      = some (closed ++ List.replicate (m + 1) (.toolUse, true)) := by
  have hlen : (closed.length : Int) + m
      = (closed ++ List.replicate m (BlockKind.toolUse, true)).length := by
    simp
  have hstart : watchEvent (closed ++ List.replicate m (.toolUse, true))
      (blockStart (closed.length + m) (toolUseBlock c))
        = some (closed ++ List.replicate (m + 1) (.toolUse, true)) := by
    rw [watchEvent_start (show (toolUseBlock c).type.blockKind? = some .toolUse from rfl), hlen,
      watch_start_iff.mpr ⟨rfl, rfl⟩, replicate_succ', append_assoc]
  unfold toolCallEvents
  rw [if_pos hname, singleton_append, watchEvents_cons, hstart]
  split_ifs
  · rw [Option.bind_some, watchEvents_cons, watchEvent_json, hlen, replicate_succ',
      ← append_assoc, watch_delta_at _ _ (fitsKind_some _)]
    rfl
  · rfl

/-- A later delta of a tool whose block is open. -/
theorem watch_toolCall_old (closed : Track BlockKind) {m j : Nat} (hj : j < m) (hname : c.name = "") :
    watchEvents (closed ++ List.replicate m (.toolUse, true)) (toolCallEvents (closed.length + j) c)
      = some (closed ++ List.replicate m (.toolUse, true)) := by
  have hsplit : closed ++ List.replicate m (BlockKind.toolUse, true)
      = (closed ++ List.replicate j (.toolUse, true)) ++
          (.toolUse, true) :: List.replicate (m - (j + 1)) (.toolUse, true) := by
    rw [append_assoc, ← replicate_succ, replicate_append_replicate]
    congr 2
    omega
  have hlen : (closed.length : Int) + j
      = (closed ++ List.replicate j (BlockKind.toolUse, true)).length := by
    simp
  unfold toolCallEvents
  rw [if_neg (not_not.mpr hname), nil_append]
  split_ifs
  · rw [watchEvents_cons, watchEvent_json, hsplit, hlen, watch_delta_at _ _ (fitsKind_some _)]
    rfl
  · rfl

theorem watch_loop (closed : Track BlockKind) (hin : InOrder m cs) (hgroup : GroupOpen m maxOffset) (i : Nat) :
    ∃ m', watchEvents (closed ++ List.replicate m (.toolUse, true))
        (toolCallsLoop closed.length i maxOffset cs).2 = some (closed ++ List.replicate m' (.toolUse, true)) ∧
      GroupOpen m' (toolCallsLoop closed.length i maxOffset cs).1 ∧ (cs ≠ [] → m' ≠ 0) ∧ m ≤ m' := by
  induction cs generalizing m maxOffset i with
  | nil => exact ⟨m, rfl, hgroup, fun h => absurd rfl h, le_rfl⟩
  | cons c cs ih =>
    rcases hin with ⟨hindex, hname, hin⟩ | ⟨⟨j, hj, hindex⟩, hname, hin⟩
    · have hmax : (max (maxOffset : Int) (c.index.getD i)).toNat = m := by
        rw [hindex, Option.getD_some]
        rcases hgroup with ⟨rfl, rfl⟩ | rfl <;> omega
      dsimp only [toolCallsLoop]
      rw [hmax, hindex, Option.getD_some, watchEvents_eq_some_append (watch_toolCall_new closed m hname)]
      obtain ⟨m', hw, hgroup', -, hle⟩ := ih hin (.inr rfl : GroupOpen (m + 1) m) (i + 1)
      exact ⟨m', hw, hgroup', fun _ => by omega, by omega⟩
    · have hmax : (max (maxOffset : Int) (c.index.getD i)).toNat = maxOffset := by
        rw [hindex, Option.getD_some]
        rcases hgroup with ⟨rfl, rfl⟩ | rfl <;> omega
      dsimp only [toolCallsLoop]
      rw [hmax, hindex, Option.getD_some, watchEvents_eq_some_append (watch_toolCall_old closed hj hname)]
      obtain ⟨m', hw, hgroup', -, hle⟩ := ih hin hgroup (i + 1)
      exact ⟨m', hw, hgroup', fun _ => by omega, hle⟩

/-- The group of tool blocks that the deltas of a chunk go into: the open one,
or one that starts at the next free number. -/
theorem toolEvents_group (h : Tracks s t) :
    ∃ (closed : Track BlockKind) (maxOffset : Nat) (stops : List ClaudeResponse),
      (∀ x ∈ closed, x.2 = false) ∧ GroupOpen s.openTools maxOffset ∧
      watchEvents t stops = some (closed ++ List.replicate s.openTools (.toolUse, true)) ∧
      ∀ cs, (toolEvents s cs).2 = stops ++ (toolCallsLoop closed.length 0 maxOffset cs).2 ∧
        (toolEvents s cs).1.lastMessagesType = .tools ∧
        (toolEvents s cs).1.toolCallBaseIndex = closed.length ∧
        (toolEvents s cs).1.toolCallMaxIndexOffset = (toolCallsLoop closed.length 0 maxOffset cs).1 := by
  unfold toolEvents ClaudeConvertInfo.openTools
  split_ifs with hlast
  · obtain ⟨closed, hclosed, hs⟩ := h
    rw [hlast] at hs
    obtain ⟨rfl, hbase⟩ := hs
    refine ⟨closed, s.toolCallMaxIndexOffset, [], hclosed, .inr rfl, rfl, fun cs => ?_⟩
    rw [← hbase]
    exact ⟨rfl, rfl, rfl, rfl⟩
  · obtain ⟨closed, hw, hclosed, hi, -⟩ := watch_stopOpenBlocks h
    refine ⟨closed, 0, stopOpenBlocks s, hclosed, .inl ⟨rfl, rfl⟩, ?_, fun cs => ?_⟩
    · rw [hw, replicate_zero, append_nil]
    · rw [hi]
      exact ⟨rfl, rfl, rfl, rfl⟩

theorem watch_deltaEvents (h : Tracks s t) (hin : InOrder s.openTools delta.toolCalls) :
    ∃ t', watchEvents t (deltaEvents s delta).2 = some t' ∧ Tracks (deltaEvents s delta).1 t' := by
  unfold deltaEvents
  split
  · exact watch_contentEvents h delta
  next hne =>
    obtain ⟨closed, maxOffset, stops, hclosed, hgroup, hw, hevents⟩ := toolEvents_group h
    obtain ⟨hev, hlast, hbase, hmax⟩ := hevents delta.toolCalls
    obtain ⟨m', hloop, hgroup', hpos, -⟩ := watch_loop closed hin hgroup 0
    refine ⟨_, by rw [hev, watchEvents_eq_some_append hw, hloop], closed, hclosed, ?_⟩
    refine ⟨?_, hbase⟩
    rcases hgroup' with ⟨h₀, -⟩ | h₁
    · exact absurd h₀ (hpos hne)
    · rw [h₁, hmax]

/-! ### Tool calls that do not come in order -/

/-- The number of deltas that announce a tool. -/
def named (cs : List ToolCallResponse) : Nat := (cs.filter (·.name ≠ "")).length

theorem named_cons_of_pos (h : c.name ≠ "") (cs : List ToolCallResponse) :
    named (c :: cs) = named cs + 1 := by
  simp [named, h]

theorem named_cons_of_neg (h : c.name = "") (cs : List ToolCallResponse) : named (c :: cs) = named cs := by
  simp [named, h]

theorem followRules_append {cs' : List ToolCallResponse} :
    FollowRules n (cs ++ cs') ↔ FollowRules n cs ∧ FollowRules (n + named cs) cs' := by
  induction cs generalizing n with
  | nil => simp [FollowRules, named]
  | cons c cs ih =>
    simp only [cons_append, FollowRules, ih]
    by_cases hname : c.name = ""
    · rw [named_cons_of_neg hname]
      tauto
    · rw [named_cons_of_pos hname, show n + (named cs + 1) = n + 1 + named cs by omega]
      tauto

/-- A tool that has been announced has no block in the open group, and the group
will be closed with it: of the `n` tools announced, one at most as far as the
largest offset was never opened. -/
def Doomed (n : Nat) (base : Int) (maxOffset : Nat) (t : Track BlockKind) : Prop :=
  ∃ o : Nat, o ≤ maxOffset ∧ o < n ∧ (t.length : Int) ≤ base + o

theorem watch_toolCall_none (hlen : (t.length : Int) ≤ b)
    (h : c.name ≠ "" ∧ b ≠ t.length ∨ c.name = "" ∧ c.arguments ≠ "") :
    watchEvents t (toolCallEvents b c) = none := by
  unfold toolCallEvents
  rcases h with ⟨hname, hb⟩ | ⟨hname, hargs⟩
  · rw [if_pos hname, singleton_append, watchEvents_cons,
      watchEvent_start (show (toolUseBlock c).type.blockKind? = some .toolUse from rfl),
      watch_start_eq_none hb]
    rfl
  · rw [if_neg (not_not.mpr hname), if_pos hargs, nil_append, watchEvents_cons, watchEvent_json,
      watch_delta_eq_none hlen]
    rfl

/-- One delta of an old tool changes nothing about the blocks, if it passes. -/
theorem watch_toolCall_unnamed (hname : c.name = "") (h : watchEvents t (toolCallEvents b c) = some t') :
    t' = t := by
  unfold toolCallEvents at h
  rw [if_neg (not_not.mpr hname), nil_append] at h
  split_ifs at h
  · rw [watchEvents_cons, watchEvent_json] at h
    obtain ⟨u, hu, hnil⟩ := Option.bind_eq_some_iff.mp h
    obtain ⟨k, -, -, rfl⟩ := watch_delta_iff.mp hu
    exact (Option.some.inj hnil).symm
  · exact (Option.some.inj h).symm

theorem watch_loop_doomed (hrules : FollowRules n cs) (hd : Doomed n base maxOffset t)
    (hw : watchEvents t (toolCallsLoop base i maxOffset cs).2 = some t') :
    Doomed (n + named cs) base (toolCallsLoop base i maxOffset cs).1 t' := by
  induction cs generalizing n maxOffset i with
  | nil => exact Option.some.inj hw ▸ hd
  | cons c cs ih =>
    obtain ⟨o, ho, hon, hlen⟩ := hd
    dsimp only [toolCallsLoop] at hw ⊢
    rw [watchEvents_append] at hw
    obtain ⟨u, hu, hrest⟩ := Option.bind_eq_some_iff.mp hw
    rcases hrules with ⟨hindex, -, hname, hrules⟩ | ⟨⟨j, hj, hindex⟩, hname, hrules⟩
    · rw [hindex, Option.getD_some, watch_toolCall_none (b := base + n) (by omega)
        (.inl ⟨hname, by omega⟩)] at hu
      cases hu
    obtain rfl := watch_toolCall_unnamed hname hu
    rw [named_cons_of_neg hname]
    refine ih hrules ⟨o, ?_, hon, hlen⟩ hrest
    omega

theorem watch_loop_not_inOrder (closed : Track BlockKind) (hrules : FollowRules n cs) (hmn : m ≤ n)
    (hgroup : GroupOpen m maxOffset)
    (hin : ¬ InOrder m cs) (hw : watchEvents (closed ++ List.replicate m (.toolUse, true))
      (toolCallsLoop closed.length i maxOffset cs).2 = some t') :
    Doomed (n + named cs) closed.length (toolCallsLoop closed.length i maxOffset cs).1 t' := by
  induction cs generalizing n m maxOffset i with
  | nil => exact absurd trivial hin
  | cons c cs ih =>
    have hlen : ((closed ++ List.replicate m (BlockKind.toolUse, true)).length : Int)
        = closed.length + m := by
      simp
    dsimp only [toolCallsLoop] at hw ⊢
    rcases hrules with ⟨hindex, -, hname, hrules⟩ | ⟨⟨j, hj, hindex⟩, hname, hrules⟩ <;>
      rw [hindex, Option.getD_some] at hw ⊢
    · -- a new tool: its block is the next one of the group, or is refused
      rcases eq_or_ne m n with rfl | hne
      · have hmax : (max (maxOffset : Int) (m : Int)).toNat = m := by
          rcases hgroup with ⟨rfl, rfl⟩ | rfl <;> omega
        have hin' : ¬ InOrder (m + 1) cs := fun h => hin (.inl ⟨hindex, hname, h⟩)
        rw [hmax, watchEvents_eq_some_append (watch_toolCall_new closed m hname)] at hw
        rw [hmax, named_cons_of_pos hname, show m + (named cs + 1) = m + 1 + named cs by omega]
        exact ih hrules le_rfl (.inr rfl) hin' hw
      · rw [watchEvents_append, watch_toolCall_none (by omega) (.inl ⟨hname, by omega⟩)] at hw
        cases hw
    · rw [named_cons_of_neg hname]
      rcases lt_or_ge j m with hjm | hjm
      · have hmax : (max (maxOffset : Int) (j : Int)).toNat = maxOffset := by
          rcases hgroup with ⟨rfl, rfl⟩ | rfl <;> omega
        have hin' : ¬ InOrder m cs := fun h => hin (.inr ⟨⟨j, hjm, hindex⟩, hname, h⟩)
        rw [hmax, watchEvents_eq_some_append (watch_toolCall_old closed hjm hname)] at hw
        rw [hmax]
        exact ih hrules hmn hgroup hin' hw
      · -- an old tool whose block is not open
        rw [watchEvents_append] at hw
        obtain ⟨u, hu, hrest⟩ := Option.bind_eq_some_iff.mp hw
        obtain rfl := watch_toolCall_unnamed hname hu
        exact watch_loop_doomed hrules ⟨j, by omega, hj, by omega⟩ hrest

theorem length_of_watch_stops {f : Nat → Int} {is : List Nat}
    (h : watchEvents t (is.map fun i => generateStopBlock (f i)) = some t') : t'.length = t.length := by
  induction is generalizing t with
  | nil => rw [Option.some.inj h]
  | cons i is ih =>
    obtain ⟨u, hu, hrest⟩ := Option.bind_eq_some_iff.mp h
    obtain ⟨k, -, -, rfl⟩ := watch_stop_iff.mp hu
    rw [ih hrest, length_set]

/-- The open group is doomed, `n` tools having been announced. -/
def ClaudeConvertInfo.GroupDoomed (s : ClaudeConvertInfo) (n : Nat) (t : Track BlockKind) : Prop :=
  s.lastMessagesType = .tools ∧ Doomed n s.toolCallBaseIndex s.toolCallMaxIndexOffset t

theorem watch_stops_none (hlen : (t.length : Int) ≤ base + m) : ∀ n, m < n →
    watchEvents t ((List.range n).map fun offset : Nat => generateStopBlock (base + offset)) = none := by
  intro n
  induction n with
  | zero => intro h; exact absurd h (Nat.not_lt_zero m)
  | succ n ih =>
    intro hn
    rw [range_succ, map_append, watchEvents_append]
    rcases Nat.lt_succ_iff_lt_or_eq.mp hn with hlt | rfl
    · rw [ih hlt]
      rfl
    -- the stop that cannot pass, whatever passed before it: stops open no block
    rcases hw : watchEvents t ((List.range m).map fun offset : Nat => generateStopBlock (base + offset))
      with - | t'
    · rfl
    · have hlen' : t'.length = t.length := length_of_watch_stops hw
      simp only [map_cons, watchEvents_cons, watchEvent_stop, Option.bind_some]
      rw [watch_stop_eq_none (by omega)]
      rfl

theorem watch_stopOpenBlocks_doomed (h : s.GroupDoomed n t) : watchEvents t (stopOpenBlocks s) = none := by
  obtain ⟨hlast, o, ho, -, hlen⟩ := h
  unfold stopOpenBlocks
  rw [hlast]
  exact watch_stops_none hlen _ (Nat.lt_succ_of_le ho)

/-! ### One chunk -/

theorem loop_lt (hrules : FollowRules n cs) (hlt : maxOffset < n) (base : Int) (i : Nat) :
    (toolCallsLoop base i maxOffset cs).1 < n + named cs := by
  induction cs generalizing n maxOffset i with
  | nil => exact hlt
  | cons c cs ih =>
    rcases hrules with ⟨hindex, -, hname, hrules⟩ | ⟨⟨j, hj, hindex⟩, hname, hrules⟩
    · rw [named_cons_of_pos hname, show n + (named cs + 1) = n + 1 + named cs by omega]
      exact ih hrules (by rw [hindex, Option.getD_some]; omega) (i + 1)
    · rw [named_cons_of_neg hname]
      exact ih hrules (by rw [hindex, Option.getD_some]; omega) (i + 1)

theorem openTools_toolEvents (hrules : FollowRules n cs) (hne : cs ≠ []) (hs : s.openTools ≤ n) :
    (toolEvents s cs).1.openTools ≤ n + named cs := by
  have hloop : ∀ (base : Int) (maxOffset : Nat), maxOffset < n ∨ maxOffset = 0 →
      (toolCallsLoop base 0 maxOffset cs).1 < n + named cs := by
    intro base maxOffset hlt
    rcases Nat.eq_zero_or_pos n with rfl | hpos
    · -- with nothing announced, the first delta announces the tool 0
      cases cs with
      | nil => exact absurd rfl hne
      | cons c cs =>
        rcases hrules with ⟨hindex, -, hname, hrules⟩ | ⟨⟨j, hj, -⟩, -⟩
        · rw [named_cons_of_pos hname, show 0 + (named cs + 1) = 1 + named cs by omega]
          exact loop_lt hrules (by rw [hindex, Option.getD_some]; omega) base (0 + 1)
        · exact absurd hj (Nat.not_lt_zero j)
    · exact loop_lt hrules (by omega) base 0
  unfold ClaudeConvertInfo.openTools at hs
  unfold toolEvents
  split_ifs with hlast
  · rw [if_pos hlast] at hs
    exact hloop _ _ (.inl hs)
  · exact hloop _ _ (.inr rfl)

/-- What the first chunk shows, after `message_start` and before the closing events. -/
def firstDelta (s : ClaudeConvertInfo) (chunk : ChatChunk) : ClaudeConvertInfo × List ClaudeResponse :=
  let tool := firstToolEvents s chunk.toolCalls
  let content := contentEvents tool.1.switchToFirst tool.1 chunk.delta
  (content.1, tool.2 ++ content.2)

/-- After a chunk's own events, which lead to `next`, come none, or those that
close the message. -/
def ClosedBy (st next : Nat × ClaudeConvertInfo) (tail : List ClaudeResponse) : Prop :=
  tail = [] ∧ st = next ∨
    (∃ (reason : String) (usage : Option Usage), tail = stopOpenBlocks next.2 ++ closeMessage reason usage) ∧
      st.2.done = true

theorem ChatChunk.toolCalls_eq (chunk : ChatChunk) : chunk.toolCalls = chunk.delta.toolCalls := by
  unfold ChatChunk.toolCalls ChatChunk.delta
  rcases chunk.choices with - | ⟨choice, choices⟩ <;> rfl

section Steps

variable (est : Int)

theorem claudeStreamStep_later (hdone : s.done = false) (hm : m ≠ 1) (chunk : ChatChunk) :
    claudeStreamStep est (m, s) chunk
      = ((m + 1, (laterChunkEvents s chunk).1), (laterChunkEvents s chunk).2) := by
  simp [claudeStreamStep, streamResponseOpenAI2Claude, hdone, hm]

theorem step_heldBack (hdone : s.done = false) (hheld : HeldBack (m, s) chunk) : ∃ reason : String,
      claudeStreamStep est (m, s) chunk = ((m + 1, { s with finishReason := reason }), []) := by
  obtain ⟨hm, ⟨choice, hchoice, hfinish⟩, husage⟩ := hheld
  obtain ⟨reason, hreason⟩ := Option.isSome_iff_exists.mp hfinish
  rw [claudeStreamStep_later est hdone hm]
  unfold laterChunkEvents
  rcases hchoices : chunk.choices with - | ⟨choice', choices⟩
  · rw [hchoices] at hchoice
    cases hchoice
  rw [hchoices] at hchoice
  obtain rfl := Option.some.inj hchoice
  exact ⟨reason, by simp only [hreason, husage]⟩

theorem step_later (hdone : s.done = false) (hm : m ≠ 1) (hheld : ¬ HeldBack (m, s) chunk) :
    ∃ (reason : String) (tail : List ClaudeResponse), (claudeStreamStep est (m, s) chunk).2
        = (deltaEvents { s with finishReason := reason } chunk.delta).2 ++ tail ∧
      ClosedBy (claudeStreamStep est (m, s) chunk).1
        (m + 1, (deltaEvents { s with finishReason := reason } chunk.delta).1) tail := by
  rw [claudeStreamStep_later est hdone hm]
  unfold laterChunkEvents ChatChunk.delta
  rcases hchoices : chunk.choices with - | ⟨choice, choices⟩
  · refine ⟨s.finishReason, ?_⟩
    rcases chunk.usage.or s.usage with - | usage
    · exact ⟨[], rfl, .inl ⟨rfl, rfl⟩⟩
    · exact ⟨_, rfl, .inr ⟨⟨_, usage, rfl⟩, rfl⟩⟩
  dsimp only
  rcases hfinish : choice.finish with - | reason
  · exact ⟨s.finishReason, [], by rw [append_nil], .inl ⟨rfl, rfl⟩⟩
  rcases husage : chunk.usage with - | usage
  · -- a finishing choice without a usage is held back
    refine absurd ⟨hm, ⟨choice, ?_, ?_⟩, husage⟩ hheld
    · rw [hchoices]
      rfl
    · rw [hfinish]
      rfl
  · exact ⟨reason, _, append_assoc _ _ _, .inr ⟨⟨_, usage, rfl⟩, rfl⟩⟩

theorem step_first (hdone : s.done = false) (chunk : ChatChunk) :
    ∃ (reason : String) (tail : List ClaudeResponse), (claudeStreamStep est (1, s) chunk).2
        = messageStart chunk est :: (firstDelta s chunk).2 ++ tail ∧ ClosedBy
          (claudeStreamStep est (1, s) chunk).1
          (2, { (firstDelta s chunk).1 with finishReason := reason }) tail := by
  have hstep : claudeStreamStep est (1, s) chunk
      = ((2, (firstChunkEvents est s chunk).1), (firstChunkEvents est s chunk).2) := by
    simp [claudeStreamStep, streamResponseOpenAI2Claude, hdone]
  rw [hstep]
  unfold firstChunkEvents firstDelta ChatChunk.toolCalls ChatChunk.delta
  rcases hchoices : chunk.choices with - | ⟨choice, choices⟩
  · exact ⟨s.finishReason, [], rfl, .inl ⟨rfl, rfl⟩⟩
  dsimp only
  rcases choice.finish with - | reason
  · exact ⟨_, [], by rw [append_nil], .inl ⟨rfl, rfl⟩⟩
  refine ⟨reason, ?_⟩
  generalize chunk.usage.or _ = closing
  rcases closing with - | usage
  · exact ⟨[], by rw [append_nil], .inl ⟨rfl, rfl⟩⟩
  · exact ⟨_, append_assoc _ _ _, .inr ⟨⟨_, usage, rfl⟩, rfl⟩⟩

/-- What a chunk that is not the first adds, apart from the closing events: the
events of its delta, all of whose tool calls are looked at, or nothing. -/
def Delivers (s : ClaudeConvertInfo) (chunk : ChatChunk) (seen : List ToolCallResponse)
    (r : ClaudeConvertInfo × List ClaudeResponse) : Prop :=
  ∃ reason : String,
    seen = chunk.toolCalls ∧ r = deltaEvents { s with finishReason := reason } chunk.delta ∨
      seen = [] ∧ r = ({ s with finishReason := reason }, [])

theorem lookedAt_done (hdone : s.done = true) (chunk : ChatChunk) : lookedAt (m, s) chunk = [] := by
  simp [lookedAt, hdone]

theorem lookedAt_later (hdone : s.done = false) (hm : m ≠ 1) (chunk : ChatChunk) :
    lookedAt (m, s) chunk = if HeldBack (m, s) chunk then [] else chunk.toolCalls := by
  rcases hchoices : chunk.choices with - | ⟨choice, choices⟩ <;>
    simp [lookedAt, HeldBack, ChatChunk.toolCalls, hchoices, hdone, hm]

theorem step_delivers (hdone : s.done = false) (hm : m ≠ 1) (chunk : ChatChunk) :
    ∃ (r : ClaudeConvertInfo × List ClaudeResponse) (tail : List ClaudeResponse),
      Delivers s chunk (lookedAt (m, s) chunk) r ∧ (claudeStreamStep est (m, s) chunk).2 = r.2 ++ tail ∧
      ClosedBy (claudeStreamStep est (m, s) chunk).1 (m + 1, r.1) tail := by
  rw [lookedAt_later hdone hm]
  by_cases hheld : HeldBack (m, s) chunk
  · obtain ⟨reason, hstep⟩ := step_heldBack est hdone hheld
    rw [hstep, if_pos hheld]
    exact ⟨({ s with finishReason := reason }, []), [], ⟨reason, .inr ⟨rfl, rfl⟩⟩, rfl, .inl ⟨rfl, rfl⟩⟩
  · obtain ⟨reason, tail, hevents, hclosed⟩ := step_later est hdone hm hheld
    rw [if_neg hheld]
    exact ⟨_, tail, ⟨reason, .inl ⟨rfl, rfl⟩⟩, hevents, hclosed⟩

end Steps

variable (s cs)

theorem advance_done : s.advance.done = s.done := by
  unfold ClaudeConvertInfo.advance
  split <;> rfl

/-- Content leaves everything as it is, or goes into a block of its own kind; an
open group of tools is closed before. -/
theorem contentEvents_cases (delta : ChoiceDelta) :
    contentEvents s.switchTo s delta = (s, []) ∨ (contentEvents s.switchTo s delta).1.done = s.done ∧
        (contentEvents s.switchTo s delta).1.openTools = 0 ∧ (s.lastMessagesType = .tools →
          ∃ events, (contentEvents s.switchTo s delta).2 = stopOpenBlocks s ++ events) := by
  have hcase : ∀ (kind : LastMessageType) (block delta : ClaudeMediaMessage), kind ≠ .tools →
      (s.switchTo kind block).1.done = s.done ∧ (s.switchTo kind block).1.openTools = 0 ∧
        (s.lastMessagesType = .tools → ∃ events, (s.switchTo kind block).2
          ++ [blockDelta (s.switchTo kind block).1.index delta] = stopOpenBlocks s ++ events) := by
    intro kind block delta hkind
    unfold ClaudeConvertInfo.switchTo
    split_ifs with hlast
    · exact ⟨rfl, if_neg (hlast ▸ hkind), fun h => absurd (hlast.symm.trans h) hkind⟩
    · exact ⟨advance_done s, if_neg hkind, fun _ => ⟨_, append_assoc _ _ _⟩⟩
  unfold contentEvents
  split_ifs
  · exact .inr (hcase .thinking thinkingBlock _ (by decide))
  · exact .inr (hcase .text textBlock _ (by decide))
  · exact .inl rfl

theorem toolEvents_done : (toolEvents s cs).1.done = s.done := by
  unfold toolEvents
  split_ifs
  · rfl
  · exact advance_done s

theorem deltaEvents_done (delta : ChoiceDelta) : (deltaEvents s delta).1.done = s.done := by
  unfold deltaEvents
  split
  · rcases contentEvents_cases s delta with h | ⟨h, -⟩
    · rw [h]
    · exact h
  · exact toolEvents_done s _

variable {s cs}

theorem openTools_deltaEvents (hrules : FollowRules n delta.toolCalls)
    (hs : s.openTools ≤ n) : (deltaEvents s delta).1.openTools ≤ n + named delta.toolCalls := by
  unfold deltaEvents
  split
  · rcases contentEvents_cases s delta with h | ⟨-, h, -⟩
    · rw [h]
      exact hs.trans (Nat.le_add_right n _)
    · rw [h]
      exact Nat.zero_le _
  next hne =>
    exact openTools_toolEvents hrules hne hs

section Delivering

variable {chunk : ChatChunk} {seen : List ToolCallResponse}
  {r : ClaudeConvertInfo × List ClaudeResponse} (hd : Delivers s chunk seen r)

include hd

theorem Delivers.done_eq : r.1.done = s.done := by
  obtain ⟨reason, ⟨-, rfl⟩ | ⟨-, rfl⟩⟩ := hd
  · exact deltaEvents_done ..
  · rfl

theorem Delivers.tracks (h : Tracks s t) (hin : InOrder s.openTools seen)
    (hrules : FollowRules n chunk.toolCalls) (hs : s.openTools ≤ n) :
    ∃ t', watchEvents t r.2 = some t' ∧ Tracks r.1 t' ∧ r.1.openTools ≤ n + named chunk.toolCalls := by
  obtain ⟨reason, ⟨rfl, rfl⟩ | ⟨-, rfl⟩⟩ := hd
  · rw [chunk.toolCalls_eq] at hin hrules ⊢
    obtain ⟨t', hw, ht'⟩ := watch_deltaEvents (s := { s with finishReason := reason }) h hin
    exact ⟨t', hw, ht', openTools_deltaEvents (s := { s with finishReason := reason }) hrules hs⟩
  · exact ⟨t, rfl, h, hs.trans (Nat.le_add_right n _)⟩

theorem Delivers.dooms (h : Tracks s t)
    (hin : ¬ InOrder s.openTools seen) (hrules : FollowRules n chunk.toolCalls) (hs : s.openTools ≤ n)
    (hw' : watchEvents t r.2 = some t') : r.1.GroupDoomed (n + named chunk.toolCalls) t' := by
  obtain ⟨reason, ⟨rfl, rfl⟩ | ⟨rfl, -⟩⟩ := hd
  · rw [chunk.toolCalls_eq] at hin hrules ⊢
    unfold deltaEvents at hw' ⊢
    split at hw'
    next hnil =>
      rw [hnil] at hin
      exact absurd trivial hin
    obtain ⟨closed, maxOffset, stops, -, hgroup, hw, hevents⟩ :=
      toolEvents_group (s := { s with finishReason := reason }) h
    obtain ⟨hev, hlast, hbase, hmax⟩ := hevents chunk.delta.toolCalls
    rw [hev, watchEvents_eq_some_append hw] at hw'
    refine ⟨hlast, ?_⟩
    rw [hbase, hmax]
    exact watch_loop_not_inOrder closed hrules hs hgroup hin hw'
  · exact absurd trivial hin

theorem Delivers.stays_doomed (h : s.GroupDoomed n t)
    (hrules : FollowRules n chunk.toolCalls) (hw : watchEvents t r.2 = some t') :
    r.1.GroupDoomed (n + named chunk.toolCalls) t' := by
  have hmore : ∀ k, s.GroupDoomed (n + k) t := by
    intro k
    obtain ⟨hlast, o, ho, hon, hlen⟩ := h
    exact ⟨hlast, o, ho, by omega, hlen⟩
  obtain ⟨reason, ⟨-, rfl⟩ | ⟨-, rfl⟩⟩ := hd
  · rw [chunk.toolCalls_eq] at hrules ⊢
    unfold deltaEvents at hw ⊢
    split at hw
    · rcases contentEvents_cases { s with finishReason := reason } chunk.delta with hc | ⟨-, -, hstops⟩
      · rw [hc] at hw ⊢
        exact Option.some.inj hw ▸ hmore _
      -- text or thinking closes the group first
      obtain ⟨events, hevents⟩ := hstops h.1
      rw [hevents, watchEvents_append] at hw
      obtain ⟨u, hu, -⟩ := Option.bind_eq_some_iff.mp hw
      cases (watch_stopOpenBlocks_doomed h).symm.trans hu
    · unfold toolEvents at hw ⊢
      rw [if_pos (show ({ s with finishReason := reason } : ClaudeConvertInfo).lastMessagesType =
        .tools from h.1)]
        at hw ⊢
      exact ⟨rfl, watch_loop_doomed hrules h.2 hw⟩
  · exact Option.some.inj hw ▸ hmore _

end Delivering

/-! ### Whole streams -/

/-- From the track `t` on, the events are blocks and then the closing events, and
no block is left open. -/
def Completes (t : Track BlockKind) (out : List ClaudeResponse) : Prop :=
  ∃ (body : List ClaudeResponse) (delta stop : ClaudeResponse), out = body ++ [delta, stop] ∧
    delta.type = .messageDelta ∧ stop.type = .messageStop ∧
    ∃ t', watchEvents t body = some t' ∧ ∀ x ∈ t', x.2 = false

theorem messageFormed_cons {e : ClaudeResponse} {out : List ClaudeResponse} :
    MessageFormed (e :: out) ↔ e.type = .messageStart ∧ Completes [] out := by
  constructor
  · rintro ⟨start, body, delta, stop, blocks, hout, hstart, hdelta, hstop, hmap, hblocks⟩
    obtain ⟨rfl, rfl⟩ := List.cons.inj hout
    obtain ⟨t, ht, hclosed⟩ := wellFormed_iff.mp hblocks
    exact ⟨hstart, body, delta, stop, rfl, hdelta, hstop, t,
      seeAll_eq_some_iff.mpr ⟨blocks, hmap, ht⟩, hclosed⟩
  · rintro ⟨hstart, body, delta, stop, rfl, hdelta, hstop, t, ht, hclosed⟩
    obtain ⟨blocks, hmap, hfold⟩ := seeAll_eq_some_iff.mp ht
    exact ⟨e, body, delta, stop, blocks, rfl, hstart, hdelta, hstop, hmap,
      wellFormed_iff.mpr ⟨t, hfold, hclosed⟩⟩

theorem completes_append {events out : List ClaudeResponse} (hout : 2 ≤ out.length) :
    Completes t (events ++ out) ↔ ∃ t', watchEvents t events = some t' ∧ Completes t' out := by
  constructor
  · rintro ⟨body, delta, stop, heq, hdelta, hstop, t', hw, hclosed⟩
    -- the two closing events are the last two of `out`
    have hlen : events.length ≤ body.length := by
      have := congrArg List.length heq
      simp only [length_append, length_cons, length_nil] at this
      omega
    obtain ⟨body', rfl⟩ := prefix_of_prefix_length_le (prefix_append events out)
      (heq ▸ prefix_append body [delta, stop]) hlen
    rw [append_assoc] at heq
    rw [watchEvents_append] at hw
    obtain ⟨u, hu, hrest⟩ := Option.bind_eq_some_iff.mp hw
    exact ⟨u, hu, body', delta, stop, append_cancel_left heq, hdelta, hstop, t', hrest, hclosed⟩
  · rintro ⟨t', hw, body, delta, stop, rfl, hdelta, hstop, t'', hw', hclosed⟩
    exact ⟨events ++ body, delta, stop, by rw [append_assoc], hdelta, hstop, t'',
      by rw [watchEvents_eq_some_append hw, hw'], hclosed⟩

theorem two_le_close (events : List ClaudeResponse) (reason : String) (usage : Option Usage) :
    2 ≤ (events ++ closeMessage reason usage).length := by
  simp [closeMessage]

theorem completes_stop_close (h : Tracks s t) (reason : String) (usage : Option Usage) :
    Completes t (stopOpenBlocks s ++ closeMessage reason usage) := by
  obtain ⟨t', hw, hclosed, -⟩ := watch_stopOpenBlocks h
  exact (completes_append (two_le_close [] reason usage)).mpr
    ⟨t', hw, [], _, _, rfl, rfl, rfl, t', rfl, hclosed⟩

theorem not_completes_stop_close (h : s.GroupDoomed n t) (reason : String) (usage : Option Usage) :
    ¬ Completes t (stopOpenBlocks s ++ closeMessage reason usage) := by
  intro hc
  obtain ⟨t', hw, -⟩ := (completes_append (two_le_close [] reason usage)).mp hc
  rw [watch_stopOpenBlocks_doomed h] at hw
  cases hw

section Running

variable (est : Int) {chunks : List ChatChunk}

/-- The events from some chunk on. -/
def remaining (s : Nat × ClaudeConvertInfo) (chunks : List ChatChunk) : List ClaudeResponse :=
  (run (claudeStreamStep est) s chunks).2 ++
    (finalizeStreamResponseOpenAI2Claude (run (claudeStreamStep est) s chunks).1.2).2

theorem remaining_nil (hdone : s.done = false) : remaining est (m, s) []
      = stopOpenBlocks s ++ closeMessage (endTurn (stopReasonOpenAI2Claude s.finishReason)) s.usage := by
  simp [remaining, finalizeStreamResponseOpenAI2Claude, hdone]

theorem remaining_cons (s : Nat × ClaudeConvertInfo) (chunk : ChatChunk) (chunks : List ChatChunk) :
    remaining est s (chunk :: chunks)
      = (claudeStreamStep est s chunk).2 ++ remaining est (claudeStreamStep est s chunk).1 chunks := by
  simp [remaining]

theorem claudeStreamStep_done (hdone : s.done = true) (chunk : ChatChunk) :
    claudeStreamStep est (m, s) chunk = ((m + 1, s), []) := by
  simp [claudeStreamStep, streamResponseOpenAI2Claude, hdone]

/-- After the closing events nothing follows. -/
theorem remaining_done (hdone : s.done = true) (chunks : List ChatChunk) :
    remaining est (m, s) chunks = [] := by
  induction chunks generalizing m with
  | nil => simp [remaining, finalizeStreamResponseOpenAI2Claude, hdone]
  | cons chunk chunks ih => rw [remaining_cons, claudeStreamStep_done est hdone, ih, append_nil]

theorem along_done (hdone : s.done = true) (chunks : List ChatChunk) :
    Along (fun s c => (claudeStreamStep est s c).1) ToolsInOrder (m, s) chunks := by
  induction chunks generalizing m with
  | nil => trivial
  | cons chunk chunks ih =>
    rw [along_cons, claudeStreamStep_done est hdone]
    refine ⟨?_, ih⟩
    unfold ToolsInOrder
    rw [lookedAt_done hdone]
    trivial

/-- The closing events are still to come. -/
theorem two_le_remaining (hdone : s.done = false) (hm : 1 < m) (chunks : List ChatChunk) :
    2 ≤ (remaining est (m, s) chunks).length := by
  induction chunks generalizing m s with
  | nil =>
    rw [remaining_nil est hdone]
    exact two_le_close ..
  | cons chunk chunks ih =>
    obtain ⟨r, tail, hd, hevents, ⟨rfl, hnext⟩ | ⟨⟨reason, usage, rfl⟩, -⟩⟩ :=
      step_delivers est hdone hm.ne' chunk
    · rw [remaining_cons, hnext, length_append]
      exact (ih (hd.done_eq.trans hdone) (by omega)).trans (Nat.le_add_left _ _)
    · rw [remaining_cons, hevents, ← append_assoc, length_append]
      exact (two_le_close _ reason usage).trans (Nat.le_add_right _ _)

/-- What comes after what a chunk delivers: the rest of the stream, or the
closing events and nothing more. -/
theorem remaining_later (hdone : s.done = false) (hm : 1 < m) (chunk : ChatChunk) (chunks : List ChatChunk) :
    ∃ (r : ClaudeConvertInfo × List ClaudeResponse) (tail : List ClaudeResponse),
      Delivers s chunk (lookedAt (m, s) chunk) r ∧ r.1.done = false ∧
      remaining est (m, s) (chunk :: chunks) = r.2 ++ tail ∧ 2 ≤ tail.length ∧
      (tail = remaining est (m + 1, r.1) chunks ∧ (claudeStreamStep est (m, s) chunk).1 = (m + 1, r.1) ∨
        (∃ (reason : String) (usage : Option Usage),
            tail = stopOpenBlocks r.1 ++ closeMessage reason usage) ∧
          (claudeStreamStep est (m, s) chunk).1.2.done = true) := by
  obtain ⟨r, tail, hd, hevents, hclosed⟩ := step_delivers est hdone hm.ne' chunk
  have hdone' : r.1.done = false := hd.done_eq.trans hdone
  rw [remaining_cons, hevents]
  rcases hclosed with ⟨rfl, hnext⟩ | ⟨⟨reason, usage, rfl⟩, hnext⟩
  · rw [hnext, append_nil]
    exact ⟨r, _, hd, hdone', rfl, two_le_remaining est hdone' (by omega) chunks, .inl ⟨rfl, rfl⟩⟩
  · rw [remaining_done est hnext, append_nil]
    exact ⟨r, _, hd, hdone', rfl, two_le_close _ _ _, .inr ⟨⟨reason, usage, rfl⟩, hnext⟩⟩

/-- A stream with a doomed group does not become whole again. -/
theorem not_completes_of_doomed (hdone : s.done = false) (hm : 1 < m)
    (hrules : FollowRules n (chunks.flatMap ChatChunk.toolCalls)) (h : s.GroupDoomed n t) :
    ¬ Completes t (remaining est (m, s) chunks) := by
  induction chunks generalizing m s t n with
  | nil =>
    rw [remaining_nil est hdone]
    exact not_completes_stop_close h _ _
  | cons chunk chunks ih =>
    obtain ⟨hrules₁, hrules₂⟩ := followRules_append.mp hrules
    obtain ⟨r, tail, hd, hdone', hrem, hlen, htail⟩ := remaining_later est hdone hm chunk chunks
    rw [hrem, completes_append hlen]
    rintro ⟨t', hw, hc⟩
    have hdoom := hd.stays_doomed h hrules₁ hw
    rcases htail with ⟨rfl, -⟩ | ⟨⟨reason, usage, rfl⟩, -⟩
    · exact ih hdone' (by omega) hrules₂ hdoom hc
    · exact not_completes_stop_close hdoom _ _ hc

/-- After the first chunk, the stream becomes whole just when the tool calls
looked at come in order. -/
theorem completes_iff (hdone : s.done = false) (hm : 1 < m)
    (hrules : FollowRules n (chunks.flatMap ChatChunk.toolCalls)) (hs : s.openTools ≤ n) (h : Tracks s t) :
    Completes t (remaining est (m, s) chunks) ↔
      Along (fun s c => (claudeStreamStep est s c).1) ToolsInOrder (m, s) chunks := by
  induction chunks generalizing m s t n with
  | nil =>
    rw [remaining_nil est hdone]
    exact iff_of_true (completes_stop_close h _ _) trivial
  | cons chunk chunks ih =>
    obtain ⟨hrules₁, hrules₂⟩ := followRules_append.mp hrules
    obtain ⟨r, tail, hd, hdone', hrem, hlen, htail⟩ := remaining_later est hdone hm chunk chunks
    rw [hrem, along_cons, completes_append hlen]
    by_cases hin : ToolsInOrder (m, s) chunk
    · obtain ⟨t', hw, ht', hs'⟩ := hd.tracks h hin hrules₁ hs
      rw [and_iff_right hin, hw]
      simp only [Option.some.injEq, exists_eq_left']
      rcases htail with ⟨rfl, hnext⟩ | ⟨⟨reason, usage, rfl⟩, hnext⟩
      · rw [hnext]
        exact ih hdone' (by omega) hrules₂ hs' ht'
      · exact iff_of_true (completes_stop_close ht' _ _) (along_done est hnext chunks)
    · -- out of order: refused at once, or doomed
      refine iff_of_false ?_ fun hc => hin hc.1
      rintro ⟨t', hw, hc⟩
      have hdoom := hd.dooms h hin hrules₁ hs hw
      rcases htail with ⟨rfl, -⟩ | ⟨⟨reason, usage, rfl⟩, -⟩
      · exact not_completes_of_doomed est hdone' (by omega) hrules₂ hdoom hc
      · exact not_completes_stop_close hdoom _ _ hc

variable (usage₀ : Option Usage)

/-- The tool call of the first chunk opens the block 0. -/
theorem watch_firstToolEvents (hrules : FollowRules 0 cs) :
    ∃ t', watchEvents [] (firstToolEvents { usage := usage₀ } cs).2 = some t' ∧
      Tracks (firstToolEvents { usage := usage₀ } cs).1 t' ∧
      (firstToolEvents { usage := usage₀ } cs).1.openTools ≤ named cs := by
  cases cs with
  | nil => exact ⟨[], rfl, tracks_start usage₀, le_rfl⟩
  | cons c cs =>
    rcases hrules with ⟨-, -, hname, -⟩ | ⟨⟨j, hj, -⟩, -⟩
    · have hevents : (firstToolEvents { usage := usage₀ } (c :: cs)).2 = toolCallEvents 0 c := by
        simp [firstToolEvents, toolCallEvents, hname]
      refine ⟨[(.toolUse, true)], ?_, ⟨[], by simp, rfl, rfl⟩, ?_⟩
      · rw [hevents]
        exact watch_toolCall_new [] 0 hname
      · rw [named_cons_of_pos hname]
        exact Nat.le_add_left 1 _
    · exact absurd hj (Nat.not_lt_zero j)

/-- On the first chunk content goes the way of later chunks. -/
theorem contentEvents_first (cs : List ToolCallResponse) (delta : ChoiceDelta) :
    contentEvents (firstToolEvents { usage := usage₀ } cs).1.switchToFirst
        (firstToolEvents { usage := usage₀ } cs).1 delta
      = contentEvents (firstToolEvents { usage := usage₀ } cs).1.switchTo
          (firstToolEvents { usage := usage₀ } cs).1 delta := by
  unfold contentEvents
  cases cs <;> rw [switchToFirst_eq _ (by simp [firstToolEvents]),
    switchToFirst_eq _ (by simp [firstToolEvents])]

variable {chunk : ChatChunk}

/-- The first chunk: after `message_start`, whole blocks and open ones. -/
theorem watch_firstDelta (hrules : FollowRules 0 chunk.toolCalls) :
    ∃ t', watchEvents [] (firstDelta { usage := usage₀ } chunk).2 = some t' ∧
      Tracks (firstDelta { usage := usage₀ } chunk).1 t' ∧
      (firstDelta { usage := usage₀ } chunk).1.openTools ≤ named chunk.toolCalls := by
  obtain ⟨t₁, hw₁, ht₁, hopen₁⟩ := watch_firstToolEvents usage₀ hrules
  obtain ⟨t₂, hw₂, ht₂⟩ := watch_contentEvents ht₁ chunk.delta
  unfold firstDelta
  dsimp only
  rw [contentEvents_first]
  refine ⟨t₂, ?_, ht₂, ?_⟩
  · rw [watchEvents_eq_some_append hw₁, hw₂]
  · rcases contentEvents_cases (firstToolEvents { usage := usage₀ } chunk.toolCalls).1 chunk.delta with
      h | ⟨-, hopen, -⟩
    · rw [h]
      exact hopen₁
    · exact hopen.trans_le (Nat.zero_le _)

variable (s chunk) in
theorem firstDelta_done : (firstDelta s chunk).1.done = s.done := by
  have htool : (firstToolEvents s chunk.toolCalls).1.done = s.done := by
    unfold firstToolEvents
    split <;> rfl
  have hswitch : ∀ (s : ClaudeConvertInfo) kind block, (s.switchToFirst kind block).1.done = s.done := by
    intro s kind block
    unfold ClaudeConvertInfo.switchToFirst
    split_ifs
    · rfl
    · exact advance_done s
  unfold firstDelta contentEvents
  split_ifs
  · exact (hswitch _ _ _).trans htool
  · exact (hswitch _ _ _).trans htool
  · exact htool

theorem toolsInOrder_first
    (hrules : FollowRules 0 chunk.toolCalls) : ToolsInOrder (1, { usage := usage₀ }) chunk := by
  have hlooked : lookedAt (1, { usage := usage₀ }) chunk = chunk.toolCalls.take 1 := by
    unfold lookedAt ChatChunk.toolCalls
    rcases chunk.choices with - | ⟨choice, choices⟩ <;> rfl
  unfold ToolsInOrder
  rw [hlooked]
  cases hcs : chunk.toolCalls with
  | nil => trivial
  | cons =>
    rw [hcs] at hrules
    rcases hrules with ⟨hindex, -, hname, -⟩ | ⟨⟨j, hj, -⟩, -⟩
    · exact .inl ⟨hindex, hname, trivial⟩
    · exact absurd hj (Nat.not_lt_zero j)

theorem messageFormed_iff (hrules : FollowRules 0 ((chunk :: chunks).flatMap ChatChunk.toolCalls)) :
    MessageFormed (claudeStream est { usage := usage₀ } (chunk :: chunks)) ↔
      Along (fun s c => (claudeStreamStep est s c).1) ToolsInOrder (1, { usage := usage₀ })
        (chunk :: chunks) := by
  obtain ⟨hrules₁, hrules₂⟩ := followRules_append.mp hrules
  obtain ⟨t', hw, ht', hopen⟩ := watch_firstDelta usage₀ hrules₁
  rw [← Nat.zero_add (named _)] at hopen
  obtain ⟨reason, tail, hevents, hclosed⟩ :=
    step_first est (rfl : ({ usage := usage₀ } : ClaudeConvertInfo).done = false) chunk
  rw [show claudeStream est { usage := usage₀ } (chunk :: chunks)
      = remaining est (1, { usage := usage₀ }) (chunk :: chunks) from rfl, remaining_cons, along_cons,
    and_iff_right (toolsInOrder_first usage₀ hrules₁), hevents, cons_append, cons_append, messageFormed_cons,
    and_iff_right (show (messageStart chunk est).type = .messageStart from rfl), append_assoc]
  -- the first chunk may be the last one, too
  rcases hclosed with ⟨rfl, hnext⟩ | ⟨⟨reason, usage, rfl⟩, hnext⟩
  · have hdone : ({ (firstDelta { usage := usage₀ } chunk).1 with finishReason := reason } :
        ClaudeConvertInfo).done = false := firstDelta_done _ chunk
    rw [hnext, nil_append, completes_append (two_le_remaining est hdone (by decide) chunks), hw]
    simp only [Option.some.injEq, exists_eq_left']
    exact completes_iff est hdone (by decide) hrules₂ hopen ht'
  · rw [remaining_done est hnext, append_nil, completes_append (two_le_close _ _ _)]
    exact iff_of_true ⟨t', hw, completes_stop_close ht' _ _⟩ (along_done est hnext chunks)

end Running

end Tracking

/-- The stream is a whole Claude stream just when there is a chunk and the tool
calls looked at always belong to the open group of tool blocks, or start one. -/
theorem claudeStream_messageFormed_iff (est : Int) (usage₀ : Option Usage) (chunks : List ChatChunk)
    (hrules : FollowRules 0 (chunks.flatMap ChatChunk.toolCalls)) :
    MessageFormed (claudeStream est { usage := usage₀ } chunks) ↔
      chunks ≠ [] ∧
        Along (fun s c => (claudeStreamStep est s c).1) ToolsInOrder (1, { usage := usage₀ }) chunks := by
  cases chunks with
  | nil =>
    -- the converter closes a message that it never started
    refine iff_of_false (fun h => ?_) fun h => h.1 rfl
    exact absurd (messageFormed_cons.mp h).1 (show ClaudeType.messageDelta ≠ .messageStart by decide)
  | cons chunk chunks =>
    rw [messageFormed_iff est usage₀ hrules]
    exact (and_iff_right (cons_ne_nil chunk chunks)).symm

/-- A chunk with tool-call deltas only. -/
def toolChunk (calls : List ToolCallResponse) : ChatChunk where
  choices := [{ delta := { toolCalls := calls } }]

/-- A chunk with text only. -/
def textChunk (content : String) : ChatChunk where
  choices := [{ delta := { content := some content } }]

/-- Two tools that start in one chunk, whose arguments come later: whole, for the
first chunk is another. -/
theorem claudeStream_messageFormed_tools : MessageFormed (claudeStream 0 { usage := none }
      [textChunk "a", toolChunk [{ index := some 0, id := "x", name := "f" },
        { index := some 1, id := "y", name := "g" }], toolChunk [{ index := some 1, arguments := "1" }]]) :=
  (claudeStream_messageFormed_iff 0 none _ (by decide)).mpr (by decide)

/-- A tool, text, another tool: the block of the second tool is numbered 3, and
the closing events stop a block 2 that was never started. -/
theorem claudeStream_gap_after_text :
    FollowRules 0 ([toolChunk [{ index := some 0, id := "x", name := "f" }], textChunk "a",
        toolChunk [{ index := some 1, id := "y", name := "g" }]].flatMap ChatChunk.toolCalls) ∧
      ¬ MessageFormed (claudeStream 0 { usage := none }
        [toolChunk [{ index := some 0, id := "x", name := "f" }], textChunk "a",
          toolChunk [{ index := some 1, id := "y", name := "g" }]]) := by
  have hrules : FollowRules 0 ([toolChunk [{ index := some 0, id := "x", name := "f" }], textChunk "a",
      toolChunk [{ index := some 1, id := "y", name := "g" }]].flatMap ChatChunk.toolCalls) := by
    decide
  refine ⟨hrules, fun h => ?_⟩
  have hin := (messageFormed_iff 0 none hrules).mp h
  exact absurd hin (by decide)

end MicrossApi
