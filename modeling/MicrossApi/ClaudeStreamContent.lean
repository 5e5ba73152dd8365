/-
MicrossApi/ClaudeStreamContent.lean

What of the chunks' text, reasoning and tool-call arguments arrives in the Claude
stream they are turned into.

Every part of a chunk is a piece that goes to the text, to the thinking or to a
tool's block, or is passed over.  The converter passes over text and reasoning
beside tool calls, text beside reasoning, all but the first tool call of the
first chunk, and everything in a finishing chunk that waits for a usage.  And the
arguments of one tool end up in two blocks when text is shown in between.
-/
import MicrossApi.ClaudeStreamBlocks
import MicrossApi.Routing

namespace MicrossApi

open List Transducer StepSystem Routing
open ClaudeConvertInfo (switchTo switchToFirst advance)

/-! ### What the chunks carry -/

variable (chunk : ChatChunk)

/-- The text of the chunk. -/
def ChatChunk.content : String := chunk.delta.getContentString

/-- The reasoning of the chunk. -/
def ChatChunk.reasoning : String := chunk.delta.getReasoningContent

/-- The argument deltas of the chunk under their tool indices; a delta without an
index counts under its place in the chunk. -/
def ChatChunk.arguments : List (Int × String) :=
  chunk.toolCalls.zipIdx.map fun (c, i) => (c.index.getD i, c.arguments)

/-- The concatenated argument deltas of a tool. -/
def argumentsOf (j : Int) (chunks : List ChatChunk) : String :=
  String.join ((chunks.flatMap ChatChunk.arguments).map fun a => if a.1 = j then a.2 else "")

/-! ### What the stream shows -/

/-- The part that a delta event adds to one kind of content. -/
def ClaudeResponse.streamed (kind : MediaType) (field : ClaudeMediaMessage → Option String)
    (e : ClaudeResponse) : String :=
  match e.type, e.delta with
  | .contentBlockDelta, some d => if d.type = kind then (field d).getD "" else ""
  | _, _ => ""

/-- The concatenated text deltas. -/
def textOf (events : List ClaudeResponse) : String :=
  String.join (events.map (·.streamed .textDelta (·.text)))

/-- The concatenated thinking deltas. -/
def thinkingOf (events : List ClaudeResponse) : String :=
  String.join (events.map (·.streamed .thinkingDelta (·.thinking)))

/-- The part that an event adds to the input of a tool's block. -/
def ClaudeResponse.jsonPart (block : Int) (e : ClaudeResponse) : String :=
  if e.index = some block then e.streamed .inputJsonDelta (·.partialJson) else ""

/-- The concatenated `input_json` deltas of a block. -/
def jsonOf (block : Int) (events : List ClaudeResponse) : String :=
  String.join (events.map (·.jsonPart block))

/-- The chunks up to the first `message_stop`. -/
def heard (est : Int) : Nat × ClaudeConvertInfo → List ChatChunk → List ChatChunk
  | _, [] => []
  | st, chunk :: chunks =>
    chunk :: if (claudeStreamStep est st chunk).2.any (·.type = .messageStop) then []
      else heard est (claudeStreamStep est st chunk).1 chunks

/-! ### What the converter keeps -/

variable (st : Nat × ClaudeConvertInfo) (chunk : ChatChunk)

/-- Reasoning is shown unless there are tool calls, which do not matter on the first chunk. -/
def ShowsReasoning : Prop :=
  ¬ HeldBack st chunk ∧ (st.1 = 1 ∨ chunk.toolCalls = [])
deriving Decidable

/-- Text is shown where reasoning would be and there is none. -/
def ShowsText : Prop :=
  ShowsReasoning st chunk ∧ chunk.reasoning = ""
deriving Decidable

/-- The number of the first block of the open group of tools, or of the group
that tool calls would open now. -/
def ClaudeConvertInfo.groupBase (s : ClaudeConvertInfo) : Int :=
  if s.lastMessagesType = .tools then s.toolCallBaseIndex else s.advance.index

/-- The block that the `i`-th tool-call delta of the chunk goes to: on the first
chunk the first one goes to block 0 and the others are passed over. -/
def blockFor (c : ToolCallResponse) (i : Nat) : Option Int :=
  if HeldBack st chunk then none
  else if st.1 = 1 then if i = 0 then some 0 else none
  else some (st.2.groupBase + c.index.getD i)

/-- A part of a chunk that is shown or not, as a piece. -/
def contentPieces (shows : Nat × ClaudeConvertInfo → ChatChunk → Prop) [∀ st chunk, Decidable (shows st chunk)]
    (part : ChatChunk → String) (st : Nat × ClaudeConvertInfo) (chunk : ChatChunk) : List (Piece Unit Unit) :=
  if st.2.done then [] else [⟨(), if shows st chunk then some () else none, part chunk⟩]

/-- The argument deltas of a chunk, from their tool index to their block. -/
def argumentPieces : List (Piece Int Int) :=
  if st.2.done then []
  else chunk.toolCalls.zipIdx.map fun (c, i) => ⟨c.index.getD i, blockFor st chunk c i, c.arguments⟩

/-- The pieces of all chunks. -/
def gather {α β : Type} (est : Int) (pieces : Nat × ClaudeConvertInfo → ChatChunk → List (Piece α β))
    (st : Nat × ClaudeConvertInfo) (chunks : List ChatChunk) : List (Piece α β) :=
  (run (fun st chunk => ((claudeStreamStep est st chunk).1, pieces st chunk)) st chunks).2

/-! ### What one chunk shows -/

variable {st' next : Nat × ClaudeConvertInfo} {delta : ChoiceDelta}

section OneChunk

variable (est : Int) {m : Nat} {s : ClaudeConvertInfo} {chunk : ChatChunk}
  {f : ClaudeResponse → String}

/-! ### Parts that show nothing -/

/-- A part of an event that the bounds of a block do not have. -/
structure OutOfBounds (f : ClaudeResponse → String) : Prop where
  start : ∀ i b, f (blockStart i b) = ""
  stop : ∀ i, f (generateStopBlock i) = ""

/-- A part of an event that only deltas have. -/
structure OfDeltas (f : ClaudeResponse → String) : Prop extends OutOfBounds f where
  messageStart : ∀ chunk est, f (messageStart chunk est) = ""
  messageDelta : ∀ r u, f (messageDelta r u) = ""
  messageStop : f messageStop = ""

/-- The parts of the events put together. -/
def joined (f : ClaudeResponse → String) (events : List ClaudeResponse) : String :=
  String.join (events.map f)

theorem ofDeltas_streamed (kind : MediaType) (field : ClaudeMediaMessage → Option String) :
    OfDeltas (·.streamed kind field) where
  messageStart _ _ := rfl
  start _ _ := rfl
  stop _ := rfl
  messageDelta _ _ := rfl
  messageStop := rfl

theorem ofDeltas_json (b : Int) : OfDeltas (·.jsonPart b) where
  messageStart _ _ := ite_self _
  start _ _ := ite_self _
  stop _ := ite_self _
  messageDelta _ _ := ite_self _
  messageStop := ite_self _

@[simp] theorem joined_nil : joined f [] = "" := rfl

@[simp] theorem joined_cons (e : ClaudeResponse) (events : List ClaudeResponse) :
    joined f (e :: events) = f e ++ joined f events := by
  simp [joined]

@[simp] theorem joined_append (events events' : List ClaudeResponse) :
    joined f (events ++ events') = joined f events ++ joined f events' := by
  simp [joined]

theorem joined_stopOpenBlocks (hf : OutOfBounds f) (s : ClaudeConvertInfo) :
    joined f (stopOpenBlocks s) = "" := by
  have hstops : ∀ is : List Int, joined f (is.map generateStopBlock) = "" := by
    intro is
    induction is with
    | nil => rfl
    | cons i is ih => rw [map_cons, joined_cons, hf.stop, ih, String.append_empty]
  unfold stopOpenBlocks
  split
  · exact hstops [s.index]
  · exact hstops [s.index]
  · have := hstops ((List.range (s.toolCallMaxIndexOffset + 1)).map fun o : Nat => s.toolCallBaseIndex + o)
    rwa [map_map] at this
  · rfl

theorem joined_closing (hf : OfDeltas f) {tail : List ClaudeResponse}
    (h : ClosedBy st' next tail) : joined f tail = "" := by
  rcases h with ⟨rfl, -⟩ | ⟨⟨reason, usage, rfl⟩, -⟩
  · rfl
  · rw [joined_append, joined_stopOpenBlocks hf.toOutOfBounds]
    simp [closeMessage, hf.messageDelta, hf.messageStop]

theorem joined_switchTo (hf : OutOfBounds f) (s : ClaudeConvertInfo) (kind : LastMessageType)
    (block : ClaudeMediaMessage) : joined f (s.switchTo kind block).2 = "" := by
  unfold switchTo
  split_ifs
  · rfl
  · simp [joined_stopOpenBlocks hf, hf.start]

theorem joined_switchToFirst (hf : OutOfBounds f) (s : ClaudeConvertInfo) (kind : LastMessageType)
    (block : ClaudeMediaMessage) : joined f (s.switchToFirst kind block).2 = "" := by
  unfold switchToFirst
  split_ifs
  · simp [hf.start]
  · simp [joined_stopOpenBlocks hf, hf.start]

theorem joined_contentEvents
    {switch : LastMessageType → ClaudeMediaMessage → ClaudeConvertInfo × List ClaudeResponse}
    (hswitch : ∀ kind block, joined f (switch kind block).2 = "") (delta : ChoiceDelta) :
    joined f (contentEvents switch s delta).2 = if delta.getReasoningContent ≠ "" then
          f (blockDelta (switch .thinking thinkingBlock).1.index (thinkingDelta delta.getReasoningContent))
        else if delta.getContentString ≠ "" then
          f (blockDelta (switch .text textBlock).1.index (textDelta delta.getContentString))
        else "" := by
  unfold contentEvents
  split_ifs <;> simp [hswitch]

theorem joined_toolCallsLoop (hf : OutOfBounds f) (base : Int) (i maxOffset : Nat)
    (cs : List ToolCallResponse) :
    joined f (toolCallsLoop base i maxOffset cs).2 = String.join ((cs.zipIdx i).map fun (c, i) =>
          if c.arguments ≠ "" then f (blockDelta (base + c.index.getD i) (inputJsonDelta c.arguments))
          else "") := by
  induction cs generalizing i maxOffset with
  | nil => rfl
  | cons c cs ih =>
    have hcall : joined f (toolCallEvents (base + c.index.getD i) c)
        = if c.arguments ≠ "" then f (blockDelta (base + c.index.getD i) (inputJsonDelta c.arguments))
          else "" := by
      unfold toolCallEvents
      split_ifs <;> simp [hf.start]
    dsimp only [toolCallsLoop]
    rw [joined_append, hcall, ih, zipIdx_cons, map_cons, String.join_cons]

theorem joined_toolEvents (hf : OutOfBounds f) (s : ClaudeConvertInfo) (cs : List ToolCallResponse) :
    joined f (toolEvents s cs).2 = String.join (cs.zipIdx.map fun (c, i) =>
          if c.arguments ≠ "" then f (blockDelta (s.groupBase + c.index.getD i) (inputJsonDelta c.arguments))
          else "") := by
  unfold toolEvents ClaudeConvertInfo.groupBase
  split_ifs with hlast
  · exact joined_toolCallsLoop hf ..
  · rw [joined_append, joined_stopOpenBlocks hf]
    exact joined_toolCallsLoop hf ..

theorem joined_step (hf : OfDeltas f) (hdone : s.done = false) {text : String}
    (hheld : HeldBack (m, s) chunk → text = "") (hfirst : m = 1 → joined f (firstDelta s chunk).2 = text)
    (hlater : m ≠ 1 → ¬ HeldBack (m, s) chunk → ∀ reason : String,
      joined f (deltaEvents { s with finishReason := reason } chunk.delta).2 = text) :
    joined f (claudeStreamStep est (m, s) chunk).2 = text := by
  by_cases hm : m = 1
  · subst hm
    obtain ⟨reason, tail, hevents, hclosing⟩ := step_first est hdone chunk
    rw [hevents, joined_append, joined_cons, hf.messageStart, hfirst rfl, joined_closing hf hclosing,
      String.empty_append, String.append_empty]
  · by_cases hh : HeldBack (m, s) chunk
    · obtain ⟨reason, hstep⟩ := step_heldBack est hdone hh
      rw [hstep, hheld hh, joined_nil]
    · obtain ⟨reason, tail, hevents, hclosing⟩ := step_later est hdone hm hh
      rw [hevents, joined_append, hlater hm hh, joined_closing hf hclosing, String.append_empty]

theorem deltaEvents_nil (h : delta.toolCalls = []) (s : ClaudeConvertInfo) :
    deltaEvents s delta = contentEvents s.switchTo s delta := by
  unfold deltaEvents
  rw [h]

theorem deltaEvents_cons (h : delta.toolCalls ≠ []) (s : ClaudeConvertInfo) :
    deltaEvents s delta = toolEvents s delta.toolCalls := by
  unfold deltaEvents
  split
  next hnil =>
    exact absurd hnil h
  · rfl

theorem join_map_empty {α : Type} {g : α → String} {l : List α} (h : ∀ x ∈ l, g x = "") :
    String.join (l.map g) = "" := by
  induction l with
  | nil => rfl
  | cons x l ih =>
    rw [map_cons, String.join_cons, h x mem_cons_self,
      ih fun y hy => h y (mem_cons_of_mem _ hy), String.append_empty]

section Content

variable (hf : OutOfBounds f) (hjson : ∀ i a, f (blockDelta i (inputJsonDelta a)) = "")
  {shown : String → String → String}
  (hshown : ∀ (i j : Int) (r c : String),
    (if r ≠ "" then f (blockDelta i (thinkingDelta r))
      else if c ≠ "" then f (blockDelta j (textDelta c)) else "") = shown r c)

include hjson hshown

section Deltas

include hf

theorem joined_deltaEvents_content (s : ClaudeConvertInfo) (delta : ChoiceDelta) :
    joined f (deltaEvents s delta).2
      = if delta.toolCalls = [] then shown delta.getReasoningContent delta.getContentString else "" := by
  split_ifs with h
  · rw [deltaEvents_nil h, joined_contentEvents (joined_switchTo hf s)]
    exact hshown ..
  rw [deltaEvents_cons h, joined_toolEvents hf]
  apply join_map_empty
  rintro ⟨c, i⟩ -
  simp [hjson]

theorem joined_firstDelta_content (s : ClaudeConvertInfo) (chunk : ChatChunk) :
    joined f (firstDelta s chunk).2 = shown chunk.reasoning chunk.content := by
  have htool : joined f (firstToolEvents s chunk.toolCalls).2 = "" := by
    unfold firstToolEvents
    split
    · rfl
    · rw [joined_cons, hf.start]
      split_ifs <;> simp [hjson]
  unfold firstDelta
  rw [joined_append, htool, joined_contentEvents (joined_switchToFirst hf _)]
  exact hshown ..

end Deltas

/-- A part that tool calls do not have comes from the chunk's content, where that is shown. -/
theorem joined_step_content (hf : OfDeltas f) (hdone : s.done = false) (chunk : ChatChunk) :
    joined f (claudeStreamStep est (m, s) chunk).2
      = if ShowsReasoning (m, s) chunk then shown chunk.reasoning chunk.content else "" := by
  refine joined_step est hf hdone (fun hheld => if_neg fun h => h.1 hheld) (fun hm => ?_)
    fun hm hheld reason => ?_
  · rw [joined_firstDelta_content hf.toOutOfBounds hjson hshown, if_pos ⟨fun h => h.1 hm, .inl hm⟩]
  · have hshows : ShowsReasoning (m, s) chunk ↔ chunk.delta.toolCalls = [] := by
      simp [ShowsReasoning, hheld, hm, chunk.toolCalls_eq]
    rw [joined_deltaEvents_content hf.toOutOfBounds hjson hshown]
    simp only [hshows]
    rfl

end Content

theorem received_one {P : Prop} [Decidable P] (text : String) :
    received () [(⟨(), if P then some () else none, text⟩ : Piece Unit Unit)] = if P then text else "" := by
  by_cases hP : P <;> simp [received, collect]

variable (st : Nat × ClaudeConvertInfo)

theorem textOf_step (chunk : ChatChunk) : textOf (claudeStreamStep est st chunk).2
      = received () (contentPieces ShowsText ChatChunk.content st chunk) := by
  obtain ⟨m, s⟩ := st
  unfold contentPieces
  rcases hdone : s.done with - | -
  · have hshown : ∀ (i j : Int) (r c : String),
        (if r ≠ "" then (blockDelta i (thinkingDelta r)).streamed .textDelta (·.text)
          else if c ≠ "" then (blockDelta j (textDelta c)).streamed .textDelta (·.text) else "")
          = if r = "" then c else "" := by
      intro i j r c
      by_cases hr : r = "" <;> by_cases hc : c = "" <;> simp [hr, hc] <;> rfl
    rw [if_neg (by simp), received_one]
    refine (joined_step_content est (fun _ _ => rfl) hshown (ofDeltas_streamed .textDelta (·.text))
      hdone chunk).trans ?_
    by_cases hr : ShowsReasoning (m, s) chunk <;> simp [ShowsText, hr]
  · rw [claudeStreamStep_done est hdone]
    rfl

theorem thinkingOf_step (chunk : ChatChunk) : thinkingOf (claudeStreamStep est st chunk).2
      = received () (contentPieces ShowsReasoning ChatChunk.reasoning st chunk) := by
  obtain ⟨m, s⟩ := st
  unfold contentPieces
  rcases hdone : s.done with - | -
  · have hshown : ∀ (i j : Int) (r c : String),
        (if r ≠ "" then (blockDelta i (thinkingDelta r)).streamed .thinkingDelta (·.thinking)
          else if c ≠ "" then (blockDelta j (textDelta c)).streamed .thinkingDelta (·.thinking) else "")
          = r := by
      intro i j r c
      by_cases hr : r = "" <;> by_cases hc : c = "" <;> simp [hr, hc] <;> rfl
    rw [if_neg (by simp), received_one]
    exact joined_step_content est (fun _ _ => rfl) hshown (ofDeltas_streamed .thinkingDelta (·.thinking))
      hdone chunk
  · rw [claudeStreamStep_done est hdone]
    rfl

theorem groupBase_finishReason (s : ClaudeConvertInfo) (reason : String) :
    ({ s with finishReason := reason } : ClaudeConvertInfo).groupBase = s.groupBase := by
  unfold ClaudeConvertInfo.groupBase advance
  rcases s.lastMessagesType with - | - | - | - <;> rfl

theorem jsonPart_content (b i j : Int) (r c : String) :
    (if r ≠ "" then (blockDelta i (thinkingDelta r)).jsonPart b
      else if c ≠ "" then (blockDelta j (textDelta c)).jsonPart b else "") = "" := by
  have hr : (blockDelta i (thinkingDelta r)).jsonPart b = "" := ite_self _
  have hc : (blockDelta j (textDelta c)).jsonPart b = "" := ite_self _
  rw [hr, hc, ite_self, ite_self]

theorem jsonPart_arguments (b i : Int) (a : String) :
    (if a ≠ "" then (blockDelta i (inputJsonDelta a)).jsonPart b else "")
      = if some i = some b then a else "" := by
  by_cases ha : a = ""
  · simp [ha]
  · rw [if_pos ha]
    rfl

theorem joined_firstDelta_json (hm : m = 1) (b : Int) (s : ClaudeConvertInfo) (chunk : ChatChunk) :
    joined (·.jsonPart b) (firstDelta s chunk).2 = String.join (chunk.toolCalls.zipIdx.map fun (c, i) =>
          if blockFor (m, s) chunk c i = some b then c.arguments else "") := by
  have hheld : ¬ HeldBack (m, s) chunk := fun h => h.1 hm
  have hrest : ∀ cs : List ToolCallResponse, String.join ((cs.zipIdx 1).map fun (c, i) =>
      if blockFor (m, s) chunk c i = some b then c.arguments else "") = "" := by
    intro cs
    apply join_map_empty
    rintro ⟨c, i⟩ hci
    have hi : i ≠ 0 := by
      have := le_snd_of_mem_zipIdx hci
      omega
    simp [blockFor, hm, hi]
  unfold firstDelta
  rw [joined_append, joined_contentEvents (joined_switchToFirst (ofDeltas_json b).toOutOfBounds _),
    jsonPart_content]
  cases chunk.toolCalls with
  | nil => rfl
  | cons c =>
    have hfirst : blockFor (m, s) chunk c 0 = some 0 := by
      unfold blockFor
      rw [if_neg hheld, if_pos hm, if_pos rfl]
    rw [zipIdx_cons, map_cons, String.join_cons, hrest]
    dsimp only [firstToolEvents]
    rw [joined_cons, show (blockStart 0 (toolUseBlock c)).jsonPart b = "" from (ofDeltas_json b).start _ _,
      hfirst, ← jsonPart_arguments]
    split_ifs <;> simp

theorem joined_deltaEvents_json (hm : m ≠ 1) (hheld : ¬ HeldBack (m, s) chunk) (b : Int) (reason : String) :
    joined (·.jsonPart b) (deltaEvents { s with finishReason := reason } chunk.delta).2
      = String.join (chunk.toolCalls.zipIdx.map fun (c, i) =>
          if blockFor (m, s) chunk c i = some b then c.arguments else "") := by
  rw [chunk.toolCalls_eq]
  by_cases h : chunk.delta.toolCalls = []
  · rw [deltaEvents_nil h, h, joined_contentEvents (joined_switchTo (ofDeltas_json b).toOutOfBounds _),
      jsonPart_content]
    rfl
  rw [deltaEvents_cons h, joined_toolEvents (ofDeltas_json b).toOutOfBounds]
  congr 1
  apply map_congr_left
  rintro ⟨c, i⟩ -
  have hblock : blockFor (m, s) chunk c i = some (s.groupBase + c.index.getD i) := by
    simp [blockFor, hheld, hm]
  dsimp only
  rw [hblock, groupBase_finishReason, ← jsonPart_arguments]

/-- The arguments of a chunk's tool calls go to their blocks, or are passed over. -/
theorem jsonOf_step (chunk : ChatChunk) (b : Int) :
    jsonOf b (claudeStreamStep est st chunk).2 = received b (argumentPieces st chunk) := by
  obtain ⟨m, s⟩ := st
  unfold argumentPieces
  rcases hdone : s.done with - | -
  · rw [if_neg (by simp)]
    unfold received collect
    rw [map_map]
    refine joined_step est (ofDeltas_json b) hdone (fun hheld => ?_) (fun hm => ?_) fun hm hheld reason => ?_
    · apply join_map_empty
      rintro ⟨c, i⟩ -
      simp [blockFor, hheld]
    · exact joined_firstDelta_json hm ..
    · exact joined_deltaEvents_json hm hheld ..
  · rw [claudeStreamStep_done est hdone]
    rfl

/-! ### The end of the message -/

/-- The message is not stopped by these events. -/
def Unstopped (events : List ClaudeResponse) : Prop := ∀ e ∈ events, e.type ≠ .messageStop

/-- What an event has that stops the message. -/
def stopMark (e : ClaudeResponse) : String := if e.type = .messageStop then "stop" else ""

theorem unstopped_of_joined {events : List ClaudeResponse} (h : joined stopMark events = "") :
    Unstopped events := by
  induction events with
  | nil => exact fun e he => absurd he not_mem_nil
  | cons e events ih =>
    obtain ⟨he, hevents⟩ := String.append_eq_empty_iff.mp ((joined_cons e events).symm.trans h)
    refine forall_mem_cons.mpr ⟨fun hstop => ?_, ih hevents⟩
    simp [stopMark, hstop] at he

theorem stopMark_block : OutOfBounds stopMark ∧ ∀ i d, stopMark (blockDelta i d) = "" :=
  ⟨⟨fun _ _ => rfl, fun _ => rfl⟩, fun _ _ => rfl⟩

theorem stopMark_content (i j : Int) (r c : String) : (if r ≠ "" then stopMark (blockDelta i (thinkingDelta r))
      else if c ≠ "" then stopMark (blockDelta j (textDelta c)) else "") = "" := by
  rw [stopMark_block.2, stopMark_block.2, ite_self, ite_self]

variable (s chunk)

theorem unstopped_deltaEvents (delta : ChoiceDelta) :
    Unstopped (deltaEvents s delta).2 := by
  apply unstopped_of_joined
  rw [joined_deltaEvents_content stopMark_block.1 (fun _ _ => stopMark_block.2 _ _) stopMark_content, ite_self]

theorem unstopped_firstDelta : Unstopped (firstDelta s chunk).2 :=
  unstopped_of_joined
    (joined_firstDelta_content stopMark_block.1 (fun _ _ => stopMark_block.2 _ _) stopMark_content s chunk)

variable {s chunk}

theorem stopped_closing {events tail : List ClaudeResponse}
    (h : ClosedBy st' next tail) (hevents : Unstopped events) (hdone : next.2.done = false) :
    (events ++ tail).any (·.type = .messageStop) = st'.2.done := by
  have hno : events.any (·.type = .messageStop) = false := by
    simpa [Unstopped] using hevents
  rw [any_append, hno]
  rcases h with ⟨rfl, rfl⟩ | ⟨⟨reason, usage, rfl⟩, hnext⟩
  · rw [hdone]
    rfl
  · rw [hnext]
    simp [closeMessage, messageStop]

theorem stopped_step (hdone : s.done = false) (chunk : ChatChunk) :
    (claudeStreamStep est (m, s) chunk).2.any (·.type = .messageStop)
      = (claudeStreamStep est (m, s) chunk).1.2.done := by
  by_cases hm : m = 1
  · subst hm
    obtain ⟨reason, tail, hevents, hclosing⟩ := step_first est hdone chunk
    rw [hevents]
    refine stopped_closing hclosing ?_ ((firstDelta_done s chunk).trans hdone)
    exact forall_mem_cons.mpr ⟨by simp [messageStart], unstopped_firstDelta s chunk⟩
  · by_cases hh : HeldBack (m, s) chunk
    · obtain ⟨reason, hstep⟩ := step_heldBack est hdone hh
      rw [hstep]
      exact hdone.symm
    · obtain ⟨reason, tail, hevents, hclosing⟩ := step_later est hdone hm hh
      rw [hevents]
      exact stopped_closing hclosing (unstopped_deltaEvents _ _) ((deltaEvents_done _ _).trans hdone)

end OneChunk

/-! ### Whole streams -/

variable {f : ClaudeResponse → String}

section Gathering

variable {α β : Type} {pieces : Nat × ClaudeConvertInfo → ChatChunk → List (Piece α β)} (est : Int)
  {m : Nat} {s : ClaudeConvertInfo} {chunks : List ChatChunk}

theorem gather_cons (chunks : List ChatChunk) :
    gather est pieces st (chunk :: chunks)
      = pieces st chunk ++ gather est pieces (claudeStreamStep est st chunk).1 chunks := rfl

theorem gather_done (hpieces : ∀ st chunk, st.2.done = true → pieces st chunk = []) (hdone : s.done = true)
    (chunks : List ChatChunk) : gather est pieces (m, s) chunks = [] := by
  induction chunks generalizing m with
  | nil => rfl
  | cons chunk chunks ih =>
    rw [gather_cons, hpieces _ _ hdone, claudeStreamStep_done est hdone, ih, append_nil]

theorem forall_mem_gather {P : Piece α β → Prop} (chunks : List ChatChunk) :
    (∀ p ∈ gather est pieces st chunks, P p) ↔ Along (fun st chunk => (claudeStreamStep est st chunk).1)
        (fun st chunk => ∀ p ∈ pieces st chunk, P p) st chunks := by
  induction chunks generalizing st with
  | nil => simp [gather]
  | cons chunk chunks ih => rw [gather_cons, forall_mem_append, along_cons, ih]

theorem joined_claudeStream [DecidableEq β] (hf : OfDeltas f) {b : β}
    (hstep : ∀ st chunk, joined f (claudeStreamStep est st chunk).2 = received b (pieces st chunk))
    (s : ClaudeConvertInfo) (chunks : List ChatChunk) :
    joined f (claudeStream est s chunks) = received b (gather est pieces (1, s) chunks) := by
  have hrun : ∀ st, joined f (run (claudeStreamStep est) st chunks).2
      = received b (gather est pieces st chunks) := by
    intro st
    induction chunks generalizing st with
    | nil => rfl
    | cons chunk chunks ih =>
      rw [run_cons, joined_append, hstep, ih]
      exact (collect_append _ _).symm
  have hfinal : ∀ s, joined f (finalizeStreamResponseOpenAI2Claude s).2 = "" := by
    intro s
    unfold finalizeStreamResponseOpenAI2Claude
    split_ifs
    · rfl
    · simp [joined_stopOpenBlocks hf.toOutOfBounds, closeMessage, hf.messageDelta, hf.messageStop]
  unfold claudeStream
  rw [joined_append, hrun, hfinal, String.append_empty]

theorem sent_gather [DecidableEq α] {a : α} {part : ChatChunk → String}
    (hdone : ∀ st chunk, st.2.done = true → pieces st chunk = [])
    (hsent : ∀ st chunk, st.2.done = false → sent a (pieces st chunk) = part chunk)
    (hs : s.done = false) (chunks : List ChatChunk) :
    sent a (gather est pieces (m, s) chunks) = String.join ((heard est (m, s) chunks).map part) := by
  induction chunks generalizing m s with
  | nil => rfl
  | cons chunk chunks ih =>
    have happend : sent a (gather est pieces (m, s) (chunk :: chunks))
        = part chunk ++ sent a (gather est pieces (claudeStreamStep est (m, s) chunk).1 chunks) := by
      rw [← hsent (m, s) chunk hs]
      exact collect_append _ _
    rw [happend, heard, map_cons, String.join_cons, stopped_step est hs]
    congr 1
    rcases hnext : (claudeStreamStep est (m, s) chunk).1.2.done with - | -
    · exact ih hnext
    · exact congrArg (sent a) (gather_done est hdone hnext chunks)

end Gathering

/-! ### Blocks and tools -/

variable {p : Piece Int Int} {chunks : List ChatChunk}

section Blocks

variable (est : Int) {m : Nat} {s : ClaudeConvertInfo} {ps : List (Piece Int Int)} {chunk : ChatChunk}

/-- The blocks used so far are below the open group of tools, or in it at the
place of their tool. -/
def BlocksBelow (s : ClaudeConvertInfo) (ps : List (Piece Int Int)) : Prop :=
  ∀ p ∈ ps, ∀ b, p.dst = some b → b < s.groupBase ∨
    s.lastMessagesType = .tools ∧ b = s.toolCallBaseIndex + p.src ∧ p.src ≤ s.toolCallMaxIndexOffset

/-- No block has arguments of two tools. -/
def Separate (ps : List (Piece Int Int)) : Prop :=
  ∀ p ∈ ps, ∀ p' ∈ ps, ∀ b, p.dst = some b → p'.dst = some b → p.src = p'.src

theorem Separate.unmixed (h : Separate ps) : Unmixed ps := by
  intro p hp p' hp' _ _ hdst heq
  obtain ⟨b, hb⟩ := Option.ne_none_iff_exists'.mp hdst
  exact h p hp p' hp' b hb (heq.symm.trans hb)

theorem BlocksBelow.finishReason (h : BlocksBelow s ps) (reason : String) :
    BlocksBelow { s with finishReason := reason } ps := by
  intro p hp b hb
  rw [groupBase_finishReason]
  exact h p hp b hb

theorem BlocksBelow.lt_advance (h : BlocksBelow s ps) (hp : p ∈ ps) {b : Int}
    (hb : p.dst = some b) : b < s.advance.index := by
  have hcases := h p hp b hb
  unfold ClaudeConvertInfo.groupBase at hcases
  unfold advance at hcases ⊢
  rcases hlast : s.lastMessagesType with - | - | - | - <;> simp [hlast] at hcases ⊢ <;> omega

theorem blocksBelow_contentEvents (h : BlocksBelow s ps) (delta : ChoiceDelta) :
    BlocksBelow (contentEvents s.switchTo s delta).1 ps := by
  have hcase : ∀ (kind : LastMessageType) (block : ClaudeMediaMessage), kind = .text ∨ kind = .thinking →
      BlocksBelow (s.switchTo kind block).1 ps := by
    intro kind block hkind p hp b hb
    unfold switchTo
    split_ifs
    · exact h p hp b hb
    left
    have hlt := h.lt_advance hp hb
    rcases hkind with rfl | rfl <;>
      simp [ClaudeConvertInfo.groupBase, advance] at hlt ⊢ <;> omega
  unfold contentEvents
  split_ifs
  · exact hcase .thinking thinkingBlock (.inr rfl)
  · exact hcase .text textBlock (.inl rfl)
  · exact h

theorem le_toolCallsLoop (base : Int) (k maxOffset : Nat) (cs : List ToolCallResponse) :
    maxOffset ≤ (toolCallsLoop base k maxOffset cs).1 ∧
      ∀ ci ∈ cs.zipIdx k, ci.1.index.getD ci.2 ≤ (toolCallsLoop base k maxOffset cs).1 := by
  induction cs generalizing k maxOffset with
  | nil => exact ⟨le_rfl, by simp⟩
  | cons c cs ih =>
    obtain ⟨hmax, hall⟩ := ih (k + 1) (max (maxOffset : Int) (c.index.getD k)).toNat
    dsimp only [toolCallsLoop]
    rw [zipIdx_cons, forall_mem_cons]
    refine ⟨by omega, ?_, hall⟩
    dsimp only
    omega

/-- The tool calls of a chunk go to the open group, or to a new one above all
blocks used so far. -/
theorem toolEvents_group_eq (s : ClaudeConvertInfo) (cs : List ToolCallResponse) :
    (toolEvents s cs).1.lastMessagesType = .tools ∧ (toolEvents s cs).1.toolCallBaseIndex = s.groupBase ∧
      (s.lastMessagesType = .tools → s.toolCallMaxIndexOffset ≤ (toolEvents s cs).1.toolCallMaxIndexOffset) ∧
      ∀ ci ∈ cs.zipIdx, ci.1.index.getD ci.2 ≤ (toolEvents s cs).1.toolCallMaxIndexOffset := by
  unfold toolEvents ClaudeConvertInfo.groupBase
  split_ifs with hlast
  · obtain ⟨hmax, hall⟩ := le_toolCallsLoop s.toolCallBaseIndex 0 s.toolCallMaxIndexOffset cs
    exact ⟨rfl, rfl, fun _ => hmax, hall⟩
  · exact ⟨rfl, rfl, fun h => absurd h hlast, (le_toolCallsLoop s.advance.index 0 0 cs).2⟩

theorem blocksBelow_toolEvents (h : BlocksBelow s ps) (cs : List ToolCallResponse) :
    BlocksBelow (toolEvents s cs).1 ps := by
  obtain ⟨hlast, hbase, hmax, -⟩ := toolEvents_group_eq s cs
  intro p hp b hb
  have hgroup : (toolEvents s cs).1.groupBase = s.groupBase := by
    unfold ClaudeConvertInfo.groupBase at hbase ⊢
    rw [if_pos hlast, hbase]
  rw [hgroup, hbase]
  rcases h p hp b hb with hlt | ⟨htools, hb', hsrc⟩
  · exact .inl hlt
  refine .inr ⟨rfl, ?_, hsrc.trans (by exact_mod_cast hmax htools)⟩
  unfold ClaudeConvertInfo.groupBase
  rw [if_pos htools, hb']

theorem mem_argumentPieces (hdone : s.done = false) (hm : m ≠ 1)
    (hp : p ∈ argumentPieces (m, s) chunk) : ∃ ci ∈ chunk.toolCalls.zipIdx, p.src = ci.1.index.getD ci.2 ∧
      ∀ b, p.dst = some b → ¬ HeldBack (m, s) chunk ∧ b = s.groupBase + p.src := by
  unfold argumentPieces at hp
  rw [if_neg (by simp [hdone])] at hp
  obtain ⟨ci, hci, rfl⟩ := mem_map.mp hp
  refine ⟨ci, hci, rfl, fun b hb => ?_⟩
  simp only [blockFor, hm, if_false] at hb
  split_ifs at hb with hheld
  exact ⟨hheld, (Option.some.inj hb).symm⟩

/-- Tool indices count from zero. -/
def ChatChunk.IndicesNonneg (chunk : ChatChunk) : Prop := ∀ c ∈ chunk.toolCalls, ∀ j ∈ c.index, 0 ≤ j

theorem separate_append (hbelow : BlocksBelow s ps) (hsep : Separate ps) (hdone : s.done = false) (hm : m ≠ 1)
    (hidx : chunk.IndicesNonneg) : Separate (ps ++ argumentPieces (m, s) chunk) := by
  -- a new piece and an old one in the same block are of the same tool
  have hnew : ∀ p ∈ ps, ∀ p' ∈ argumentPieces (m, s) chunk, ∀ b, p.dst = some b → p'.dst = some b →
      p.src = p'.src := by
    intro p hp p' hp' b hb hb'
    obtain ⟨⟨c, i⟩, hci, hsrc, hdst⟩ := mem_argumentPieces hdone hm hp'
    have hpos : 0 ≤ p'.src := by
      rw [hsrc]
      rcases hindex : c.index with - | j
      · exact Int.natCast_nonneg i
      · exact hidx c (fst_mem_of_mem_zipIdx hci) j hindex
    have hb₂ := (hdst b hb').2
    rcases hbelow p hp b hb with hlt | ⟨htools, hb₁, -⟩
    · omega
    unfold ClaudeConvertInfo.groupBase at hb₂
    rw [if_pos htools] at hb₂
    omega
  intro p hp p' hp' b hb hb'
  rcases mem_append.mp hp with hp | hp <;> rcases mem_append.mp hp' with hp' | hp'
  · exact hsep p hp p' hp' b hb hb'
  · exact hnew p hp p' hp' b hb hb'
  · exact (hnew p' hp' p hp b hb' hb).symm
  · obtain ⟨-, -, -, hdst⟩ := mem_argumentPieces hdone hm hp
    obtain ⟨-, -, -, hdst'⟩ := mem_argumentPieces hdone hm hp'
    have h₁ := (hdst b hb).2
    have h₂ := (hdst' b hb').2
    omega

theorem blocksBelow_deltaEvents (hbelow : BlocksBelow s ps) (hdone : s.done = false) (hm : m ≠ 1)
    (reason : String) : BlocksBelow (deltaEvents { s with finishReason := reason } chunk.delta).1
      (ps ++ argumentPieces (m, s) chunk) := by
  have hbelow' := hbelow.finishReason reason
  by_cases h : chunk.delta.toolCalls = []
  · have hnil : argumentPieces (m, s) chunk = [] := by
      simp [argumentPieces, chunk.toolCalls_eq, h]
    rw [hnil, append_nil, deltaEvents_nil h]
    exact blocksBelow_contentEvents hbelow' _
  rw [deltaEvents_cons h]
  intro p hp b hb
  rcases mem_append.mp hp with hp | hp
  · exact blocksBelow_toolEvents hbelow' _ p hp b hb
  obtain ⟨hlast, hbase, -, hall⟩ :=
    toolEvents_group_eq { s with finishReason := reason } chunk.delta.toolCalls
  obtain ⟨ci, hci, hsrc, hdst⟩ := mem_argumentPieces hdone hm hp
  rw [chunk.toolCalls_eq] at hci
  refine .inr ⟨hlast, ?_, hsrc ▸ hall ci hci⟩
  rw [hbase, groupBase_finishReason]
  exact (hdst b hb).2

theorem blocksBelow_heldBack (hbelow : BlocksBelow s ps) (hdone : s.done = false)
    (hheld : HeldBack (m, s) chunk) : BlocksBelow s (ps ++ argumentPieces (m, s) chunk) := by
  intro p hp b hb
  rcases mem_append.mp hp with hp | hp
  · exact hbelow p hp b hb
  · obtain ⟨-, -, -, hdst⟩ := mem_argumentPieces hdone hheld.1 hp
    exact absurd hheld (hdst b hb).1

/-- No block ever has arguments of two tools, where indices count from zero. -/
theorem separate_gather (hdone : s.done = false) (hm : 1 < m)
    (hbelow : BlocksBelow s ps) (hsep : Separate ps) (hidx : ∀ chunk ∈ chunks, chunk.IndicesNonneg) :
    Separate (ps ++ gather est argumentPieces (m, s) chunks) := by
  induction chunks generalizing m s ps with
  | nil =>
    show Separate (ps ++ [])
    rw [append_nil]
    exact hsep
  | cons chunk chunks ih =>
    have hsep' := separate_append hbelow hsep hdone hm.ne' (hidx chunk mem_cons_self)
    have hidx' : ∀ chunk ∈ chunks, chunk.IndicesNonneg := fun c hc => hidx c (mem_cons_of_mem _ hc)
    rw [gather_cons, ← append_assoc]
    by_cases hheld : HeldBack (m, s) chunk
    · obtain ⟨reason, hstep⟩ := step_heldBack est hdone hheld
      rw [hstep]
      exact ih hdone (by omega) ((blocksBelow_heldBack hbelow hdone hheld).finishReason reason) hsep' hidx'
    obtain ⟨reason, tail, -, ⟨-, hnext⟩ | ⟨-, hdone'⟩⟩ := step_later est hdone hm.ne' hheld
    · rw [hnext]
      exact ih ((deltaEvents_done _ _).trans hdone) (by omega)
        (blocksBelow_deltaEvents hbelow hdone hm.ne' reason) hsep' hidx'
    · rw [gather_done est (fun st chunk h => by simp [argumentPieces, h]) hdone', append_nil]
      exact hsep'

/-- Tool indices count from zero, and the first of the first chunk is 0. -/
def IndicesFromZero (chunks : List ChatChunk) : Prop :=
  (∀ chunk ∈ chunks, chunk.IndicesNonneg) ∧
    ∀ chunk ∈ chunks.head?, ∀ c ∈ chunk.toolCalls.head?, ∀ j ∈ c.index, j = 0

variable (usage₀ : Option Usage)

section First

variable (chunk) (hzero : ∀ c ∈ chunk.toolCalls.head?, ∀ j ∈ c.index, j = 0)

include hzero

theorem mem_argumentPieces_first (hp : p ∈ argumentPieces (1, { usage := usage₀ }) chunk) :
    ∀ b, p.dst = some b → b = 0 ∧ p.src = 0 ∧ chunk.toolCalls ≠ [] := by
  intro b hb
  unfold argumentPieces at hp
  cases hcs : chunk.toolCalls with
  | nil =>
    rw [hcs] at hp
    cases hp
  | cons c =>
    rw [hcs] at hp hzero
    obtain ⟨⟨c', i⟩, hci, rfl⟩ := mem_map.mp hp
    have hi : i = 0 ∧ b = 0 := by
      simp only [blockFor] at hb
      split_ifs at hb with h₁ h₂
      exact ⟨h₂, (Option.some.inj hb).symm⟩
    obtain ⟨rfl, rfl⟩ := hi
    have hc : c' = c := by
      simpa using mem_zipIdx hci
    subst hc
    refine ⟨rfl, ?_, cons_ne_nil _ _⟩
    show c'.index.getD _ = 0
    rcases hindex : c'.index with - | j
    · rfl
    · exact hzero c' rfl j hindex

theorem blocksBelow_firstDelta :
    BlocksBelow (firstDelta { usage := usage₀ } chunk).1 (argumentPieces (1, { usage := usage₀ }) chunk) := by
  unfold firstDelta
  dsimp only
  rw [contentEvents_first]
  apply blocksBelow_contentEvents
  intro p hp b hb
  obtain ⟨rfl, hsrc, hne⟩ := mem_argumentPieces_first chunk usage₀ hzero hp b hb
  rw [hsrc]
  cases hcs : chunk.toolCalls with
  | nil => exact absurd hcs hne
  | cons => exact .inr ⟨rfl, rfl, le_rfl⟩

end First

theorem separate_claudeStream (hidx : IndicesFromZero chunks) :
    Separate (gather est argumentPieces (1, { usage := usage₀ }) chunks) := by
  cases chunks with
  | nil => intro p hp; cases hp
  | cons chunk chunks =>
    obtain ⟨hnonneg, hzero⟩ := hidx
    have hzero := hzero chunk rfl
    have hsep : Separate (argumentPieces (1, { usage := usage₀ }) chunk) := by
      intro p hp p' hp' b hb hb'
      rw [(mem_argumentPieces_first chunk usage₀ hzero hp b hb).2.1,
        (mem_argumentPieces_first chunk usage₀ hzero hp' b hb').2.1]
    have hidx' : ∀ chunk ∈ chunks, chunk.IndicesNonneg := fun c hc =>
      hnonneg c (mem_cons_of_mem _ hc)
    rw [gather_cons]
    obtain ⟨reason, tail, -, ⟨-, hnext⟩ | ⟨-, hdone'⟩⟩ :=
      step_first est (rfl : ({ usage := usage₀ } : ClaudeConvertInfo).done = false) chunk
    · rw [hnext]
      exact separate_gather est (firstDelta_done _ chunk) (by decide)
        ((blocksBelow_firstDelta chunk usage₀ hzero).finishReason reason) hsep hidx'
    · rw [gather_done est (fun st chunk h => by simp [argumentPieces, h]) hdone', append_nil]
      exact hsep

end Blocks

/-! ### What is lost -/

/-- The stream shows all that the chunks carry: the text, the reasoning, and for
each tool its arguments, in a block of its own. -/
structure NothingLost (events : List ClaudeResponse) (chunks : List ChatChunk) : Prop where
  text : textOf events = String.join (chunks.map ChatChunk.content)
  thinking : thinkingOf events = String.join (chunks.map ChatChunk.reasoning)
  tools : ∃ block : Int → Int, Set.InjOn block {j | argumentsOf j chunks ≠ ""} ∧
    ∀ j, argumentsOf j chunks ≠ "" → jsonOf (block j) events = argumentsOf j chunks

/-- The chunk has no part of a kind that would be passed over. -/
def Keeps (shows : Nat × ClaudeConvertInfo → ChatChunk → Prop) (part : ChatChunk → String)
    (st : Nat × ClaudeConvertInfo) (chunk : ChatChunk) : Prop :=
  st.2.done = true ∨ part chunk = "" ∨ shows st chunk

instance (shows : Nat × ClaudeConvertInfo → ChatChunk → Prop) [∀ st chunk, Decidable (shows st chunk)]
    (part : ChatChunk → String) (st : Nat × ClaudeConvertInfo) (chunk : ChatChunk) :
    Decidable (Keeps shows part st chunk) :=
  inferInstanceAs (Decidable (_ ∨ _))

/-- No chunk has content that would be passed over, and the deltas with arguments
go to one block just when they are of one tool. -/
structure Kept (est : Int) (st : Nat × ClaudeConvertInfo) (chunks : List ChatChunk) : Prop where
  text : Along (fun st chunk => (claudeStreamStep est st chunk).1)
    (Keeps ShowsText ChatChunk.content) st chunks
  reasoning : Along (fun st chunk => (claudeStreamStep est st chunk).1)
    (Keeps ShowsReasoning ChatChunk.reasoning) st chunks
  arguments : OneToOne (gather est argumentPieces st chunks)

section Loss

variable (est : Int) (usage₀ : Option Usage) (chunks : List ChatChunk)

theorem along_congr {σ ι : Type} {step : σ → ι → σ} {G H : σ → ι → Prop} (h : ∀ s i, G s i ↔ H s i)
    (s : σ) (is : List ι) : Along step G s is ↔ Along step H s is := by
  induction is generalizing s with
  | nil => rfl
  | cons i is ih => rw [along_cons, along_cons, h, ih]

/-- Content of one kind is shown whole just when none of it is passed over. -/
theorem content_iff (hf : OfDeltas f)
    (shows : Nat × ClaudeConvertInfo → ChatChunk → Prop) [∀ st chunk, Decidable (shows st chunk)]
    (part : ChatChunk → String) (hstep : ∀ st chunk, joined f (claudeStreamStep est st chunk).2
      = received () (contentPieces shows part st chunk)) :
    joined f (claudeStream est { usage := usage₀ } chunks)
        = String.join ((heard est (1, { usage := usage₀ }) chunks).map part) ↔
      Along (fun st chunk => (claudeStreamStep est st chunk).1) (Keeps shows part) (1, { usage := usage₀ })
        chunks := by
  have hsent : sent () (gather est (contentPieces shows part) (1, { usage := usage₀ }) chunks)
      = String.join ((heard est (1, { usage := usage₀ }) chunks).map part) :=
    sent_gather est (fun st chunk h => by simp [contentPieces, h])
      (fun st chunk h => by simp [contentPieces, h, sent, collect]) rfl chunks
  rw [joined_claudeStream est hf hstep, ← hsent]
  -- pieces of one kind all arrive just when none with text is passed over
  refine (collect_eq_iff fun _ _ _ _ => rfl).trans ?_
  rw [forall_mem_gather]
  apply along_congr
  intro st chunk
  unfold contentPieces Keeps
  rcases st.2.done with - | -
  · by_cases hshows : shows st chunk <;> simp [hshows]
  · simp

theorem argumentsOf_heard (j : Int) : argumentsOf j (heard est (1, { usage := usage₀ }) chunks)
      = sent j (gather est argumentPieces (1, { usage := usage₀ }) chunks) := by
  have hflat : ∀ cs : List ChatChunk, argumentsOf j cs
      = String.join (cs.map fun c => argumentsOf j [c]) := by
    intro cs
    induction cs with
    | nil => rfl
    | cons c cs ih =>
      rw [map_cons, String.join_cons, ← ih]
      simp [argumentsOf]
  rw [hflat]
  refine (sent_gather est (fun st chunk h => by simp [argumentPieces, h]) (fun st chunk h => ?_) rfl
    chunks).symm
  unfold argumentPieces argumentsOf ChatChunk.arguments sent collect
  rw [if_neg (by simp [h]), flatMap_cons, flatMap_nil, append_nil, map_map, map_map]
  rfl

theorem tools_iff_delivered : (∃ block : Int → Int,
        Set.InjOn block {j | argumentsOf j (heard est (1, { usage := usage₀ }) chunks) ≠ ""} ∧
        ∀ j, argumentsOf j (heard est (1, { usage := usage₀ }) chunks) ≠ "" →
          jsonOf (block j) (claudeStream est { usage := usage₀ } chunks)
            = argumentsOf j (heard est (1, { usage := usage₀ }) chunks)) ↔
      Delivered (gather est argumentPieces (1, { usage := usage₀ }) chunks) := by
  have hshown : ∀ b, jsonOf b (claudeStream est { usage := usage₀ } chunks) = _ := fun b =>
    joined_claudeStream est (ofDeltas_json b) (fun st chunk => jsonOf_step est st chunk b) _ chunks
  simp only [argumentsOf_heard, hshown]
  rfl

end Loss

end MicrossApi
