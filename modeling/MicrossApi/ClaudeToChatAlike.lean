/-
MicrossApi/ClaudeToChatAlike.lean

A Claude message converted as a whole and converted event by event.

The stream concatenates all text and all thinking, the whole message keeps the
last block of each; the stream numbers tool calls by their blocks, the whole
message lists them.  So the two agree just when nothing but the blocks that are
kept has content and the tool calls come before all other blocks (`alike_iff`).
-/
import MicrossApi.ClaudeToChat

namespace MicrossApi

open List

open ChatChunk (toolCalls)

variable {C : JsonCodec} {whole : ClaudeBlock C → Option String} {part : ChatChunk → String}

/-! ### What a client collects -/

/-- A field of the tool call with an index, put together from its deltas. -/
def fieldOf (field : ToolCallResponse → String) (j : Int) (calls : List ToolCallResponse) : String :=
  String.join (calls.map fun c => if c.index = some j then field c else "")

/-- No event makes the converter dereference a nil pointer. -/
def AllAnswered (events : List ClaudeResponse) : Prop :=
  ∀ e ∈ events, (streamResponseClaude2OpenAI e).isSome

/-- The chunk of an event, if there is one. -/
def ClaudeResponse.chunk? (e : ClaudeResponse) : Option ChatChunk := (streamResponseClaude2OpenAI e).join

/-- The chunks of a stream of events. -/
def chunksOf (events : List ClaudeResponse) : List ChatChunk := events.filterMap ClaudeResponse.chunk?

variable (C)

/-- The chunks of a stream and a whole response say the same. -/
structure Alike (chunks : List ChatChunk) (r : ChatResponse) : Prop where
  text : String.join (chunks.map ChatChunk.content) = r.content
  reasoning : String.join (chunks.map ChatChunk.reasoning) = r.reasoningContent.getD ""
  indices : ∀ c ∈ chunks.flatMap toolCalls, ∃ j : Nat, j < r.toolCalls.length ∧ c.index = some (j : Int)
  tools : ∀ (j : Nat) (tool : ToolCallResponse), r.toolCalls[j]? = some tool →
    fieldOf (·.id) j (chunks.flatMap toolCalls) = tool.id ∧
      fieldOf (·.name) j (chunks.flatMap toolCalls) = tool.name ∧
      ∃ v, C.unmarshal (fieldOf (·.arguments) j (chunks.flatMap toolCalls)) = some v ∧
        C.unmarshal tool.arguments = some v

variable {C}

/-! ### Blocks -/

/-- The text of a text block. -/
def ClaudeBlock.text? : ClaudeBlock C → Option String
  | .text s => some s
  | _ => none

/-- The thinking of a thinking block. -/
def ClaudeBlock.thinking? : ClaudeBlock C → Option String
  | .thinking s => some s
  | _ => none

/-- The tool call of a `tool_use` block. -/
def ClaudeBlock.tool? : ClaudeBlock C → Option ToolCallResponse
  | .toolUse id name input => some { id := id, name := name, arguments := (C.marshal input).text }
  | _ => none

/-- Tool calls come before all other blocks. -/
def ToolsFirst (blocks : List (ClaudeBlock C)) : Prop :=
  blocks.Pairwise fun a b => b.tool?.isSome → a.tool?.isSome

/-- No thinking is left out: of the thinking blocks only the last has content, or
only the first block of the message. -/
def OneThinking (blocks : List (ClaudeBlock C)) : Prop :=
  (∀ s ∈ (blocks.filterMap ClaudeBlock.thinking?).dropLast, s = "") ∨
    (blocks.filterMap ClaudeBlock.thinking?).getLast? = some "" ∧
      ∃ s rest, blocks = .thinking s :: rest ∧ ∀ s' ∈ rest.filterMap ClaudeBlock.thinking?, s' = ""

/-! ### The whole message -/

section Whole

/-- The loop keeps the last text and the last thinking, and all tool calls. -/
theorem foldl_collected (blocks : List (ClaudeBlock C)) (acc : Collected) :
    (blocks.map ClaudeBlock.media).foldl Collected.add acc
      = { responseText := (blocks.filterMap ClaudeBlock.text?).getLast?.getD acc.responseText
          thinkingContent := (blocks.filterMap ClaudeBlock.thinking?).getLast?.getD acc.thinkingContent
          tools := acc.tools ++ blocks.filterMap ClaudeBlock.tool? } := by
  induction blocks generalizing acc with
  | nil => simp
  | cons b blocks ih =>
    rw [map_cons, foldl_cons, ih]
    cases b <;>
      simp [filterMap_cons, ClaudeBlock.text?, ClaudeBlock.thinking?, ClaudeBlock.tool?,
        ClaudeBlock.media, Collected.add, ClaudeMediaMessage.getText, getLast?_cons]

/-- A whole message with the blocks. -/
def messageOf (message : ClaudeResponse) (blocks : List (ClaudeBlock C)) : ClaudeResponse :=
  { message with content := blocks.map ClaudeBlock.media }

variable (message : ClaudeResponse) (blocks : List (ClaudeBlock C))

theorem join_eq_empty_iff {l : List String} : String.join l = "" ↔ ∀ s ∈ l, s = "" := by
  induction l with
  | nil => simp
  | cons s l ih => rw [String.join_cons, String.append_eq_empty_iff, ih, forall_mem_cons]

/-- All texts together are the last just when the others are empty. -/
theorem join_eq_last_iff (l : List String) :
    String.join l = l.getLast?.getD "" ↔ ∀ s ∈ l.dropLast, s = "" := by
  rcases eq_nil_or_concat l with rfl | ⟨l, s, rfl⟩
  · simp
  rw [← join_eq_empty_iff]
  simp

theorem content_messageOf :
    (responseClaude2OpenAI (messageOf message blocks)).content
      = (blocks.filterMap ClaudeBlock.text?).getLast?.getD "" := by
  unfold responseClaude2OpenAI messageOf
  dsimp only
  rw [foldl_collected]
  cases blocks with
  | nil => rfl
  | cons b =>
    cases b <;>
      simp [ClaudeBlock.text?, ClaudeBlock.media, ClaudeMediaMessage.getText, getLast?_cons]

theorem toolCalls_messageOf :
    (responseClaude2OpenAI (messageOf message blocks)).toolCalls = blocks.filterMap ClaudeBlock.tool? := by
  unfold responseClaude2OpenAI messageOf
  dsimp only
  rw [foldl_collected, nil_append]

theorem reasoning_messageOf :
    (responseClaude2OpenAI (messageOf message blocks)).reasoningContent.getD ""
      = if (blocks.filterMap ClaudeBlock.thinking?).getLast?.getD "" ≠ "" then
          (blocks.filterMap ClaudeBlock.thinking?).getLast?.getD ""
        else (blocks.head?.bind ClaudeBlock.thinking?).getD "" := by
  have hhead : ((blocks.map ClaudeBlock.media).head?.bind (·.thinking)).getD ""
      = (blocks.head?.bind ClaudeBlock.thinking?).getD "" := by
    rcases blocks with - | ⟨b, blocks⟩
    · rfl
    · cases b <;> rfl
  unfold responseClaude2OpenAI messageOf
  dsimp only
  rw [foldl_collected]
  split_ifs <;> simp_all

theorem join_thinking_iff :
    String.join (blocks.filterMap ClaudeBlock.thinking?)
        = (responseClaude2OpenAI (messageOf message blocks)).reasoningContent.getD "" ↔ OneThinking blocks := by
  rw [reasoning_messageOf]
  unfold OneThinking
  set l := blocks.filterMap ClaudeBlock.thinking? with hl
  split_ifs with hlast
  · rw [join_eq_last_iff]
    refine ⟨.inl, fun h => h.resolve_right fun h => ?_⟩
    rw [h.1] at hlast
    exact hlast rfl
  rw [not_not] at hlast
  have hdrop : (∀ s ∈ l.dropLast, s = "") ↔ String.join l = "" := by
    rw [← join_eq_last_iff, hlast]
  rw [hdrop]
  cases blocks with
  | nil => simp [hl]
  | cons b blocks =>
    cases b with
    | thinking s =>
      have hcons : l = s :: blocks.filterMap ClaudeBlock.thinking? := rfl
      have hsome : l.getLast? = some "" := by
        exact congrArg some hlast
      have hjoin : String.join l = s ++ String.join (blocks.filterMap ClaudeBlock.thinking?) := by
        rw [hcons, String.join_cons]
      simp only [head?_cons, Option.bind_some, ClaudeBlock.thinking?, Option.getD_some, hjoin]
      constructor
      · intro h
        have hrest : String.join (blocks.filterMap ClaudeBlock.thinking?) = "" := by
          simpa using h
        exact .inr ⟨hsome, s, blocks, rfl, join_eq_empty_iff.mp hrest⟩
      · rintro (h | ⟨-, s', rest, heq, hrest⟩)
        · obtain ⟨hs, -⟩ := String.append_eq_empty_iff.mp h
          rw [h, hs]
        · obtain ⟨-, rfl⟩ := List.cons.inj heq
          rw [join_eq_empty_iff.mpr hrest, String.append_empty]
    | text | toolUse => simp [ClaudeBlock.thinking?]

end Whole

/-! ### The stream -/

section Stream

variable {splits : List (SplitBlock C)} {events : List ClaudeResponse} {e : ClaudeResponse}

theorem stream_other (h : e.type.isOther = true) : streamResponseClaude2OpenAI e = some none := by
  unfold streamResponseClaude2OpenAI
  cases htype : e.type <;> simp_all [ClaudeType.isOther]

theorem chunksOf_filter (events : List ClaudeResponse) :
    chunksOf (events.filter fun e => !e.type.isOther) = chunksOf events := by
  induction events with
  | nil => rfl
  | cons e events ih =>
    rcases h : e.type.isOther with - | -
    · rw [filter_cons_of_pos (by rw [h]; rfl)]
      unfold chunksOf at ih ⊢
      rw [filterMap_cons, filterMap_cons, ih]
    · rw [filter_cons_of_neg (by rw [h]; decide), ih]
      have hnone : e.chunk? = none := congrArg Option.join (stream_other h)
      exact (filterMap_cons_none hnone).symm

/-- A chunk without content. -/
def ChatChunk.Plain (chunk : ChatChunk) : Prop :=
  chunk.content = "" ∧ chunk.reasoning = "" ∧ chunk.toolCalls = []

theorem stream_ends (h : e.type = .messageStart ∨ e.type = .messageDelta) :
    ∃ chunk, streamResponseClaude2OpenAI e = some (some chunk) ∧ chunk.Plain := by
  unfold streamResponseClaude2OpenAI
  rcases h with h | h <;> rw [h] <;> exact ⟨_, rfl, rfl, rfl, rfl⟩

theorem stream_messageStop (h : e.type = .messageStop) : streamResponseClaude2OpenAI e = some none := by
  unfold streamResponseClaude2OpenAI
  rw [h]

variable (split : SplitBlock C)

/-- The chunks of a block. -/
def SplitBlock.chunks (index : Nat) : List ChatChunk :=
  { choices := [blockStartChoice index split.block.announced] } ::
    split.parts.map fun part => { choices := [blockDeltaChoice index (split.block.delta part) part] }

theorem stream_delta (index : Nat) (part : String) :
    streamResponseClaude2OpenAI (blockDelta index (split.block.delta part))
      = some (some { choices := [blockDeltaChoice index (split.block.delta part) part] }) := by
  cases split.block with
  | text | thinking | toolUse => rfl

theorem chunksOf_append (events events' : List ClaudeResponse) :
    chunksOf (events ++ events') = chunksOf events ++ chunksOf events' :=
  filterMap_append

theorem chunksOf_events (index : Nat) : chunksOf (split.events index) = split.chunks index := by
  have hdeltas : ∀ parts : List String,
      chunksOf (parts.map fun part => blockDelta index (split.block.delta part))
        = parts.map fun part => { choices := [blockDeltaChoice index (split.block.delta part) part] } := by
    intro parts
    induction parts with
    | nil => rfl
    | cons part parts ih =>
      have hsome : (blockDelta index (split.block.delta part)).chunk? = some _ :=
        congrArg Option.join (stream_delta split index part)
      exact (filterMap_cons_some hsome).trans (congrArg (List.cons _) ih)
  unfold SplitBlock.events SplitBlock.chunks
  rw [← singleton_append, chunksOf_append, chunksOf_append, hdeltas]
  exact congrArg (List.cons _) (append_nil _)

theorem chunksOf_splits (l : List (SplitBlock C × Nat)) :
    chunksOf (l.flatMap fun x => x.1.events x.2) = l.flatMap fun x => x.1.chunks x.2 := by
  induction l with
  | nil => rfl
  | cons x l ih => rw [flatMap_cons, flatMap_cons, chunksOf_append, ih, chunksOf_events]

/-- The chunks of a stream are those of its blocks, between two without content. -/
theorem StreamOf.chunksOf_eq (h : StreamOf splits events) :
    ∃ first last : ChatChunk, first.Plain ∧ last.Plain ∧
      chunksOf events = first :: (splits.zipIdx.flatMap fun x => x.1.chunks x.2) ++ [last] := by
  obtain ⟨start, delta, stop, hstart, hdelta, hstop, hevents⟩ := h
  obtain ⟨first, hfirst, hplain⟩ := stream_ends (.inl hstart)
  obtain ⟨last, hlast, hplain'⟩ := stream_ends (.inr hdelta)
  refine ⟨first, last, hplain, hplain', ?_⟩
  have hends : chunksOf [start] = [first] ∧ chunksOf [delta, stop] = [last] := by
    simp [chunksOf, ClaudeResponse.chunk?, hfirst, hlast, stream_messageStop hstop]
  rw [← chunksOf_filter, hevents, ← singleton_append, chunksOf_append, chunksOf_append, hends.1,
    hends.2]
  exact congrArg (fun l => [first] ++ l ++ [last]) (chunksOf_splits _)

/-- A stream has no nil arguments. -/
theorem StreamOf.answered (h : StreamOf splits events) : AllAnswered events := by
  obtain ⟨start, delta, stop, hstart, hdelta, hstop, hevents⟩ := h
  intro e he
  rcases hother : e.type.isOther with - | -
  · have hmem : e ∈ events.filter fun e => !e.type.isOther := mem_filter.mpr ⟨he, by rw [hother]; rfl⟩
    rw [hevents] at hmem
    simp only [cons_append, mem_append, mem_cons, mem_flatMap, not_mem_nil, or_false, SplitBlock.events,
      mem_map] at hmem
    rcases hmem with rfl | ⟨x, -, rfl | ⟨part, -, rfl⟩ | rfl⟩ | rfl | rfl
    · obtain ⟨chunk, hchunk, -⟩ := stream_ends (.inl hstart)
      rw [hchunk]
      rfl
    · rfl
    · rw [stream_delta]
      rfl
    · rfl
    · obtain ⟨chunk, hchunk, -⟩ := stream_ends (.inr hdelta)
      rw [hchunk]
      rfl
    · rw [stream_messageStop hstop]
      rfl
  · rw [stream_other hother]
    rfl

/-- What the deltas of a block add up to. -/
theorem join_chunks (hstart : ∀ (block : ClaudeBlock C) (i : Nat),
      part { choices := [blockStartChoice i block.announced] } = "")
    (hdelta : ∀ (block : ClaudeBlock C) (i : Nat) (s : String),
      part { choices := [blockDeltaChoice i (block.delta s) s] } = if (whole block).isSome then s else "")
    (hwhole : ∀ (block : ClaudeBlock C) (parts : List String) (s : String), block.MadeUpOf parts →
      whole block = some s → String.join parts = s)
    (split : SplitBlock C) (i : Nat) :
    String.join ((split.chunks i).map part) = (whole split.block).getD "" := by
  have hparts : ∀ parts : List String,
      String.join (parts.map fun s => part { choices := [blockDeltaChoice i (split.block.delta s) s] })
        = if (whole split.block).isSome then String.join parts else "" := by
    intro parts
    simp only [hdelta]
    rcases (whole split.block).isSome with - | -
    · exact join_map_empty fun _ _ => rfl
    · simp
  unfold SplitBlock.chunks
  rw [map_cons, hstart, map_map]
  refine (hparts split.parts).trans ?_
  rcases h : whole split.block with - | s
  · rfl
  · exact hwhole _ _ _ split.madeUp h

theorem join_content_chunks (i : Nat) :
    String.join ((split.chunks i).map ChatChunk.content) = split.block.text?.getD "" := by
  refine join_chunks ?_ ?_ ?_ ..
  · intro block i
    cases block <;> rfl
  · intro block i s
    cases block <;> rfl
  · rintro (s | s | ⟨id, name, input⟩) parts s' hparts hs'
    · exact hparts.trans (Option.some.inj hs')
    · cases hs'
    · cases hs'

theorem join_reasoning_chunks (i : Nat) :
    String.join ((split.chunks i).map ChatChunk.reasoning) = split.block.thinking?.getD "" := by
  refine join_chunks ?_ ?_ ?_ ..
  · intro block i
    cases block <;> rfl
  · intro block i s
    cases block <;> rfl
  · rintro (s | s | ⟨id, name, input⟩) parts s' hparts hs'
    · cases hs'
    · exact hparts.trans (Option.some.inj hs')
    · cases hs'

theorem StreamOf.join_map (h : StreamOf splits events)
    (hplain : ∀ chunk : ChatChunk, chunk.Plain → part chunk = "")
    (hpart : ∀ (split : SplitBlock C) (i : Nat),
      String.join ((split.chunks i).map part) = (whole split.block).getD "") :
    String.join ((chunksOf events).map part) = String.join ((splits.map (·.block)).filterMap whole) := by
  obtain ⟨first, last, hfirst, hlast, hchunks⟩ := h.chunksOf_eq
  have hsplits : ∀ (splits : List (SplitBlock C)) (n : Nat),
      String.join (((splits.zipIdx n).flatMap fun x => x.1.chunks x.2).map part)
        = String.join ((splits.map (·.block)).filterMap whole) := by
    intro splits
    induction splits with
    | nil => intro n; rfl
    | cons split splits ih =>
      intro n
      rw [zipIdx_cons, flatMap_cons, map_append, String.join_append, hpart, ih,
        map_cons, filterMap_cons]
      rcases whole split.block with - | s <;> simp
  rw [hchunks, cons_append, map_cons, map_append, String.join_cons, String.join_append,
    hplain first hfirst, hsplits]
  simp [hplain last hlast]

/-! ### Tool calls -/

/-- The tool-call deltas of a block. -/
def SplitBlock.calls (index : Nat) : List ToolCallResponse :=
  match split.block with
  | .toolUse id name _ =>
    { index := some (index : Int), id := id, name := name } ::
      split.parts.map fun part => { index := some (index : Int), arguments := part }
  | _ => []

theorem toolCalls_chunks (i : Nat) : (split.chunks i).flatMap toolCalls = split.calls i := by
  obtain ⟨block, parts, -⟩ := split
  unfold SplitBlock.chunks SplitBlock.calls
  rw [flatMap_cons]
  cases block with
  | text | thinking =>
    refine flatMap_eq_nil_iff.mpr fun chunk hchunk => ?_
    obtain ⟨part, -, rfl⟩ := mem_map.mp hchunk
    rfl
  | toolUse =>
    refine congrArg (List.cons _) ?_
    rw [flatMap_map]
    exact flatMap_pure_eq_map ..

theorem StreamOf.toolCalls_eq (h : StreamOf splits events) :
    (chunksOf events).flatMap toolCalls = splits.zipIdx.flatMap fun x => x.1.calls x.2 := by
  obtain ⟨first, last, hfirst, hlast, hchunks⟩ := h.chunksOf_eq
  rw [hchunks, cons_append, flatMap_cons, flatMap_append, flatMap_assoc, hfirst.2.2]
  simp [hlast.2.2, toolCalls_chunks]

theorem index_calls {split : SplitBlock C} {i : Nat} {c : ToolCallResponse} (hc : c ∈ split.calls i) :
    c.index = some (i : Int) ∧ split.block.tool?.isSome := by
  unfold SplitBlock.calls at hc
  split at hc
  next heq =>
    rw [heq]
    rcases mem_cons.mp hc with rfl | hc
    · exact ⟨rfl, rfl⟩
    · obtain ⟨part, -, rfl⟩ := mem_map.mp hc
      exact ⟨rfl, rfl⟩
  · cases hc

theorem exists_call {split : SplitBlock C} (h : split.block.tool?.isSome) (i : Nat) :
    ∃ c, c ∈ split.calls i := by
  unfold SplitBlock.calls
  cases hblock : split.block with
  | toolUse => exact ⟨_, mem_cons_self⟩
  | text | thinking => rw [hblock] at h; cases h

variable (field : ToolCallResponse → String)

theorem fieldOf_append (j : Int) (calls calls' : List ToolCallResponse) :
    fieldOf field j (calls ++ calls') = fieldOf field j calls ++ fieldOf field j calls' := by
  simp [fieldOf]

theorem fieldOf_calls (split : SplitBlock C) (i : Nat) (j : Int) :
    fieldOf field j (split.calls i) =
      if (i : Int) = j then String.join ((split.calls i).map field) else "" := by
  unfold fieldOf
  split_ifs with h
  · congr 1
    apply map_congr_left
    intro c hc
    rw [if_pos ((index_calls hc).1.trans (congrArg some h))]
  · apply join_map_empty
    intro c hc
    rw [(index_calls hc).1, if_neg fun heq => h (Option.some.inj heq)]

/-- The fields of the tool call with an index come from the block with that number. -/
theorem fieldOf_splits (splits : List (SplitBlock C)) (n j : Nat) :
    fieldOf field ((n + j : Nat) : Int) ((splits.zipIdx n).flatMap fun x => x.1.calls x.2)
      = (splits[j]?.map fun split => String.join ((split.calls (n + j)).map field)).getD "" := by
  induction splits generalizing n j with
  | nil => rfl
  | cons split splits ih =>
    rw [zipIdx_cons, flatMap_cons, fieldOf_append, fieldOf_calls]
    cases j with
    | zero =>
      have hrest : fieldOf field ((n + 0 : Nat) : Int)
          ((splits.zipIdx (n + 1)).flatMap fun x => x.1.calls x.2) = "" := by
        apply join_map_empty
        intro c hc
        obtain ⟨x, hx, hcx⟩ := mem_flatMap.mp hc
        have hle := le_snd_of_mem_zipIdx hx
        rw [(index_calls hcx).1, if_neg]
        intro heq
        have := Option.some.inj heq
        omega
      rw [hrest, if_pos (by simp), String.append_empty]
      rfl
    | succ j =>
      rw [if_neg (by omega), show n + (j + 1) = n + 1 + j by omega, ih]
      rfl

end Stream

/-! ### Tools first -/

section ToolsFirst

variable {blocks : List (ClaudeBlock C)}

/-- Where tool calls come first, the list of tool calls has them at the places of their blocks. -/
theorem ToolsFirst.getElem? (h : ToolsFirst blocks) (j : Nat) :
    (blocks.filterMap ClaudeBlock.tool?)[j]? = blocks[j]?.bind ClaudeBlock.tool? := by
  induction blocks generalizing j with
  | nil => rfl
  | cons b blocks ih =>
    obtain ⟨hb, hblocks⟩ := pairwise_cons.mp h
    rw [filterMap_cons]
    rcases htool : b.tool? with - | t
    · -- no tool call after a block that is none
      have hnone : ∀ b' ∈ blocks, b'.tool? = none := by
        intro b' hb'
        by_contra hsome
        have := hb b' hb' (Option.isSome_iff_ne_none.mpr hsome)
        rw [htool] at this
        cases this
      rw [filterMap_eq_nil_iff.mpr hnone]
      cases j with
      | zero => exact htool.symm
      | succ j =>
        rw [getElem?_cons_succ]
        rcases hj : blocks[j]? with - | b'
        · rfl
        · exact (hnone b' (mem_of_getElem? hj)).symm
    · cases j with
      | zero => exact htool.symm
      | succ j => exact ih hblocks j

/-- The last tool call is as far on as there are tool calls. -/
theorem exists_tool_ge (h : blocks.filterMap ClaudeBlock.tool? ≠ []) :
    ∃ i, (blocks[i]?.bind ClaudeBlock.tool?).isSome ∧
      (blocks.filterMap ClaudeBlock.tool?).length ≤ i + 1 := by
  induction blocks with
  | nil => exact absurd rfl h
  | cons b blocks ih =>
    rw [filterMap_cons] at h ⊢
    by_cases hrest : blocks.filterMap ClaudeBlock.tool? = []
    · rcases htool : b.tool? with - | t
      · rw [htool] at h
        exact absurd hrest h
      refine ⟨0, ?_, ?_⟩
      · show b.tool?.isSome
        rw [htool]
        rfl
      · rw [hrest]
        exact Nat.le_refl 1
    · obtain ⟨i, hi, hlen⟩ := ih hrest
      refine ⟨i + 1, hi, ?_⟩
      rcases b.tool? with - | t
      · exact hlen.trans (Nat.le_succ _)
      · exact Nat.succ_le_succ hlen

theorem toolsFirst_iff : ToolsFirst blocks ↔ ∀ i, (blocks[i]?.bind ClaudeBlock.tool?).isSome →
      i < (blocks.filterMap ClaudeBlock.tool?).length := by
  constructor
  · intro h i hi
    obtain ⟨t, ht⟩ := Option.isSome_iff_exists.mp hi
    rw [← h.getElem? i] at ht
    exact (List.getElem?_eq_some_iff.mp ht).1
  · intro h
    induction blocks with
    | nil => exact List.Pairwise.nil
    | cons b blocks ih =>
      rw [filterMap_cons] at h
      rcases htool : b.tool? with - | t
      · -- the tool calls after this block would reach beyond their number
        rw [htool] at h
        dsimp only at h
        have hnil : blocks.filterMap ClaudeBlock.tool? = [] := by
          by_contra hne
          obtain ⟨i, hi, hlen⟩ := exists_tool_ge hne
          exact absurd (h (i + 1) hi) (by omega)
        have hnone := filterMap_eq_nil_iff.mp hnil
        refine pairwise_cons.mpr ⟨fun b' hb' hsome => ?_, ih fun i hi => ?_⟩
        · rw [hnone b' hb'] at hsome
          cases hsome
        · obtain ⟨t, ht⟩ := Option.isSome_iff_exists.mp hi
          obtain ⟨b', hb', ht'⟩ := Option.bind_eq_some_iff.mp ht
          rw [hnone b' (mem_of_getElem? hb')] at ht'
          cases ht'
      · rw [htool] at h
        refine pairwise_cons.mpr ⟨fun _ _ _ => by rw [htool]; rfl, ih fun i hi => ?_⟩
        exact Nat.lt_of_succ_lt_succ (h (i + 1) hi)

end ToolsFirst

/-! ### Both ways -/

section Both

variable {splits : List (SplitBlock C)} {events : List ClaudeResponse}

theorem getElem?_bind_tool (splits : List (SplitBlock C)) (i : Nat) :
    (splits.map (·.block))[i]?.bind ClaudeBlock.tool? = splits[i]?.bind (·.block.tool?) := by
  rw [getElem?_map]
  rcases splits[i]? with - | split <;> rfl

theorem StreamOf.indices_iff (h : StreamOf splits events) (message : ClaudeResponse) :
    (∀ c ∈ (chunksOf events).flatMap toolCalls,
        ∃ j : Nat, j < (responseClaude2OpenAI (messageOf message (splits.map (·.block)))).toolCalls.length ∧
          c.index = some (j : Int)) ↔ ToolsFirst (splits.map (·.block)) := by
  rw [toolsFirst_iff, h.toolCalls_eq, toolCalls_messageOf]
  constructor
  · intro hall i hi
    rw [getElem?_bind_tool] at hi
    obtain ⟨t, ht⟩ := Option.isSome_iff_exists.mp hi
    obtain ⟨split, hsplit, htool⟩ := Option.bind_eq_some_iff.mp ht
    obtain ⟨c, hc⟩ := exists_call (Option.isSome_iff_exists.mpr ⟨t, htool⟩) i
    have hmem : (split, i) ∈ splits.zipIdx := mem_zipIdx_iff_getElem?.mpr hsplit
    obtain ⟨j, hj, hindex⟩ := hall c (mem_flatMap.mpr ⟨_, hmem, hc⟩)
    have hij := Option.some.inj ((index_calls hc).1.symm.trans hindex)
    omega
  · intro hall c hc
    obtain ⟨⟨split, i⟩, hmem, hc⟩ := mem_flatMap.mp hc
    obtain ⟨hindex, htool⟩ := index_calls hc
    refine ⟨i, hall i ?_, hindex⟩
    rw [getElem?_bind_tool, mem_zipIdx_iff_getElem?.mp hmem]
    exact htool

theorem StreamOf.fieldOf_eq (h : StreamOf splits events) {j : Nat} {split : SplitBlock C}
    (hj : splits[j]? = some split) {id name : String} {input : C.Value}
    (hblock : split.block = .toolUse id name input) :
    fieldOf (·.id) j ((chunksOf events).flatMap toolCalls) = id ∧
      fieldOf (·.name) j ((chunksOf events).flatMap toolCalls) = name ∧
      fieldOf (·.arguments) j ((chunksOf events).flatMap toolCalls) = String.join split.parts := by
  have hfield : ∀ field : ToolCallResponse → String,
      fieldOf field j ((chunksOf events).flatMap toolCalls)
        = String.join ((split.calls j).map field) := by
    intro field
    have := fieldOf_splits field splits 0 j
    rw [Nat.zero_add, hj] at this
    rw [h.toolCalls_eq]
    exact this
  have hcalls : split.calls j
      = { index := some (j : Int), id := id, name := name } ::
          split.parts.map fun part => { index := some (j : Int), arguments := part } := by
    unfold SplitBlock.calls
    rw [hblock]
  refine ⟨?_, ?_, ?_⟩
  · rw [hfield, hcalls, map_cons, String.join_cons, map_map]
    exact (congrArg (id ++ ·) (join_map_empty fun _ _ => rfl)).trans String.append_empty
  · rw [hfield, hcalls, map_cons, String.join_cons, map_map]
    exact (congrArg (name ++ ·) (join_map_empty fun _ _ => rfl)).trans String.append_empty
  · rw [hfield, hcalls, map_cons, String.join_cons, map_map]
    exact congrArg String.join (map_id _)

theorem tool?_eq_some {block : ClaudeBlock C} {tool : ToolCallResponse} (h : block.tool? = some tool) :
    ∃ id name input, block = .toolUse id name input ∧
      tool = { id := id, name := name, arguments := (C.marshal input).text } := by
  cases block with
  | text | thinking => cases h
  | toolUse id name input => exact ⟨id, name, input, rfl, (Option.some.inj h).symm⟩

end Both

/-- The stream is converted, and it and the whole message say the same just when all
text blocks but the last are empty, all thinking but the one reported is empty, the tool calls
come first and each has its input sent as JSON. -/
theorem alike_iff {C : JsonCodec} (splits : List (SplitBlock C)) (events : List ClaudeResponse)
    (message : ClaudeResponse) (h : StreamOf splits events) :
    AllAnswered events ∧
      Alike C (chunksOf events) (responseClaude2OpenAI (messageOf message (splits.map (·.block)))) ↔
      (∀ s ∈ ((splits.map (·.block)).filterMap ClaudeBlock.text?).dropLast, s = "") ∧
        OneThinking (splits.map (·.block)) ∧ ToolsFirst (splits.map (·.block)) ∧
        ∀ split ∈ splits, split.block.tool?.isSome → String.join split.parts ≠ "" := by
  have htext := h.join_map (fun _ hp => hp.1) join_content_chunks
  have hthinking := h.join_map (fun _ hp => hp.2.1) join_reasoning_chunks
  have htools := toolCalls_messageOf message (splits.map (·.block))
  constructor
  · rintro ⟨-, ha⟩
    have hfirst := (h.indices_iff message).mp ha.indices
    refine ⟨?_, ?_, hfirst, fun split hsplit hsome hempty => ?_⟩
    · rw [← join_eq_last_iff, ← htext, ← content_messageOf]
      exact ha.text
    · rw [← join_thinking_iff message, ← hthinking]
      exact ha.reasoning
    · obtain ⟨tool, htool⟩ := Option.isSome_iff_exists.mp hsome
      obtain ⟨id, name, input, hblock, -⟩ := tool?_eq_some htool
      obtain ⟨j, hj⟩ := getElem?_of_mem hsplit
      have hget : (responseClaude2OpenAI (messageOf message (splits.map (·.block)))).toolCalls[j]?
          = some tool := by
        rw [htools, hfirst.getElem?, getElem?_bind_tool, hj]
        exact htool
      obtain ⟨-, -, v, hv, -⟩ := ha.tools j tool hget
      rw [(h.fieldOf_eq hj hblock).2.2, hempty, C.unmarshal_empty] at hv
      cases hv
  · rintro ⟨htexts, hthinkings, hfirst, hjson⟩
    refine ⟨h.answered, ?_, ?_, (h.indices_iff message).mpr hfirst, fun j tool hget => ?_⟩
    · rw [content_messageOf, htext, join_eq_last_iff]
      exact htexts
    · rw [hthinking, join_thinking_iff]
      exact hthinkings
    · rw [htools, hfirst.getElem?, getElem?_bind_tool] at hget
      obtain ⟨split, hj, htool⟩ := Option.bind_eq_some_iff.mp hget
      obtain ⟨id, name, input, hblock, rfl⟩ := tool?_eq_some htool
      obtain ⟨hid, hname, hargs⟩ := h.fieldOf_eq hj hblock
      refine ⟨hid, hname, input, ?_, C.unmarshal_marshal input⟩
      have hmade := split.madeUp
      rw [hblock] at hmade
      have hne := hjson split (mem_of_getElem? hj) (Option.isSome_iff_exists.mpr ⟨_, htool⟩)
      rw [hargs]
      exact hmade.resolve_right fun hempty => hne hempty.1

/-- The text begins and ends as an object does. -/
def Braced (s : String) : Prop := s.toList.head? = some '\x7b' ∧ s.toList.getLast? = some '\x7d'
deriving Decidable

/-- Objects as their texts; parts of an object, arrays and other values are none. -/
def objectCodec : JsonCodec where
  Value := { s : String // Braced s }
  marshal v := ⟨v.1⟩
  unmarshal s := if h : Braced s then some ⟨s, h⟩ else none
  emptyObject := ⟨JsonValue.emptyObject.text, by decide⟩
  unmarshal_marshal v := dif_pos v.2
  unmarshal_empty := rfl

/-- The stream of some blocks, without pings. -/
def plainStream (splits : List (SplitBlock C)) : List ClaudeResponse :=
  messageStart {} 0 :: (splits.zipIdx.flatMap fun x => x.1.events x.2) ++ closeMessage "end_turn" none

/-- A tool call, thinking and text. -/
def toolThinkingText : List (SplitBlock objectCodec) :=
  [⟨.toolUse "x" "f" ⟨"\x7b\"a\":1\x7d", by decide⟩, ["\x7b\"a\":", "1\x7d"], .inl rfl⟩,
    ⟨.thinking "t", ["t"], rfl⟩,
    ⟨.text "ab", ["a", "b"], rfl⟩]

theorem toolThinkingText_alike : AllAnswered (plainStream toolThinkingText) ∧
      Alike objectCodec (chunksOf (plainStream toolThinkingText))
        (responseClaude2OpenAI (messageOf { type := .message } (toolThinkingText.map (·.block)))) := by
  refine (alike_iff toolThinkingText (plainStream toolThinkingText) { type := .message } ?_).mpr ?_
  · exact ⟨_, _, _, rfl, rfl, rfl, rfl⟩
  · refine ⟨by decide, .inl (by decide), ?_, ?_⟩
    · simp [ToolsFirst, toolThinkingText, ClaudeBlock.tool?]
    · simp [toolThinkingText]

/-- Two text blocks. -/
def twoTexts : List (SplitBlock objectCodec) := [⟨.text "a", ["a"], rfl⟩, ⟨.text "b", ["b"], rfl⟩]

/-- The stream has both texts, the whole message only the second. -/
theorem twoTexts_not_alike : StreamOf twoTexts (plainStream twoTexts) ∧
      ¬ Alike objectCodec (chunksOf (plainStream twoTexts))
        (responseClaude2OpenAI (messageOf { type := .message } (twoTexts.map (·.block)))) := by
  refine ⟨⟨_, _, _, rfl, rfl, rfl, rfl⟩, fun h => ?_⟩
  exact absurd h.text (by decide)

end MicrossApi
