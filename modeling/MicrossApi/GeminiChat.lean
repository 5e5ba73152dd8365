/-
MicrossApi/GeminiChat.lean

Chat completion chunks turned into a Gemini stream
(relaykit/relayconvert/internal/oai_chat/to_gemini_chat_resp.go).

The converter remembers nothing.  Every fragment of a tool call becomes a call of
its own, and the text of a chunk with tool calls is not sent.  What a client
makes of the chunks says what should arrive; it does exactly for streams that
have every tool call in one fragment, and text and tool calls in different chunks.
-/
import MicrossApi.ChatAssembly
import MicrossApi.ClaudeToChatAlike

namespace MicrossApi

open List Roster Routing

/-! ### The converter -/

/-- `GeminiPart`, with arguments of type `V`. -/
structure GeminiPart (V : Type) where
  text : String := ""
  functionCall : Option (String × V) := none

/-- `GeminiChatCandidate`. -/
structure GeminiCandidate (V : Type) where
  parts : List (GeminiPart V) := []
  finishReason : Option String := none

/-- A choice as it is sent: the list of tool calls may be there and empty. -/
structure SentChoice extends StreamChoice where
  emptyToolCalls : Bool := false

/-- `ToolCalls != nil`. -/
def SentChoice.HasToolCalls (c : SentChoice) : Prop :=
  c.delta.toolCalls ≠ [] ∨ c.emptyToolCalls = true
deriving Decidable

/-- The finish reason for Gemini. -/
def geminiFinishReason (reason : String) : String :=
  if reason = "length" then "MAX_TOKENS" else if reason = "content_filter" then "SAFETY" else "STOP"

variable (C : JsonCodec) (wrap : String → C.Value)

/-- The arguments of a call; `wrap` puts a text that is no object into one. -/
def callArguments (text : String) : C.Value :=
  if text ≠ "" then (C.unmarshal text).getD (wrap text) else C.emptyObject

/-- The parts of a choice. -/
def geminiParts (c : SentChoice) : List (GeminiPart C.Value) :=
  if c.HasToolCalls then
    c.delta.toolCalls.map fun t =>
      { functionCall := some (t.name, callArguments C wrap t.arguments) }
  else if c.delta.getContentString ≠ "" then [{ text := c.delta.getContentString }]
  else []

/-- `StreamResponseOpenAI2Gemini`. -/
def streamResponseOpenAI2Gemini (choices : List SentChoice) : Option (List (GeminiCandidate C.Value)) :=
  let hasContent := choices.any fun c => c.delta.getContentString ≠ "" ∨ c.delta.toolCalls ≠ []
  let hasFinishReason := choices.any fun c => c.finishReason.isSome
  if hasContent = false ∧ hasFinishReason = false then none
  else
    some (choices.map fun c =>
      { parts := geminiParts C wrap c, finishReason := c.finishReason.map geminiFinishReason })

variable (chunks : List SentChoice)

/-- All parts a stream of chunks with one choice becomes. -/
def geminiStream : List (GeminiPart C.Value) :=
  chunks.flatMap fun c => ((streamResponseOpenAI2Gemini C wrap [c]).getD []).flatMap (·.parts)

/-! ### Fragments -/

theorem addToolCalls_cases (fragments : List ToolCallResponse) {tools : List AssembledTool}
    (htools : (tools.map (·.index)).Nodup) :
    (fragments.foldl addToolCall tools = tools ++ fragments.map (·.assembled) ∧
        (tools.map (·.index) ++ fragments.map fun f => f.index.getD 0).Nodup) ∨
      (fragments.foldl addToolCall tools).length < tools.length + fragments.length ∧
        ¬ (tools.map (·.index) ++ fragments.map fun f => f.index.getD 0).Nodup := by
  induction fragments generalizing tools with
  | nil => exact .inl ⟨by simp, by simpa using htools⟩
  | cons f fragments ih =>
    rw [foldl_cons, addToolCall]
    rcases hplace : place AssembledTool.index tools (f.index.getD 0) with - | n
    · rw [upsert_of_none hplace]
      have hnew := place_eq_none_iff.mp hplace
      have hnodup : ((tools ++ [f.assembled]).map (·.index)).Nodup := by
        rw [map_append, nodup_append_comm]
        exact nodup_cons.mpr ⟨hnew, htools⟩
      simpa [ToolCallResponse.assembled, Nat.add_comm, Nat.add_left_comm] using ih hnodup
    · have hkeys : (tools.modify n (·.merge f)).map (·.index) = tools.map (·.index) :=
        map_modify fun _ _ => rfl
      have hmem : f.index.getD 0 ∈ tools.map (·.index) := by
        by_contra h
        exact nomatch hplace.symm.trans (place_eq_none_iff.mpr h)
      rw [upsert_of_some hplace]
      refine .inr ⟨?_, fun h => (nodup_append.mp h).2.2 _ hmem _ mem_cons_self rfl⟩
      rcases ih (hkeys ▸ htools) with ⟨heq, -⟩ | ⟨hlt, -⟩
      · simp [heq]
      · simp only [length_modify, length_cons] at hlt ⊢
        omega

theorem addChoices_tools (a : Assembly) (choices : List StreamChoice) : (a.addChoices choices).tools
      = (choices.flatMap (·.delta.toolCalls)).foldl addToolCall a.tools := by
  induction choices generalizing a with
  | nil => rfl
  | cons c choices ih =>
    rw [flatMap_cons, foldl_append]
    exact ih (a.addChoice c)

theorem addChoices_text (a : Assembly) (choices : List StreamChoice) : (a.addChoices choices).text
      = a.text ++ String.join (choices.map (·.delta.getContentString)) := by
  induction choices generalizing a with
  | nil => simp [Assembly.addChoices]
  | cons c choices ih =>
    rw [map_cons, String.join_cons, ← String.append_assoc]
    exact ih (a.addChoice c)

/-! ### Streams -/

variable {C : JsonCodec} {wrap : String → C.Value}

/-- A chunk that is skipped has nothing to send. -/
theorem geminiStream_eq : geminiStream C wrap chunks = chunks.flatMap (geminiParts C wrap) := by
  unfold geminiStream
  congr 1
  funext c
  unfold streamResponseOpenAI2Gemini
  dsimp only
  split
  next h =>
    have hskip : c.delta.getContentString = "" ∧ c.delta.toolCalls = [] := by simpa using h.1
    simp [geminiParts, hskip]
  · simp

theorem functionCalls_geminiStream : (geminiStream C wrap chunks).filterMap (·.functionCall)
      = (chunks.flatMap (·.delta.toolCalls)).map fun t =>
          (t.name, callArguments C wrap t.arguments) := by
  rw [geminiStream_eq, filterMap_flatMap, map_flatMap]
  congr 1
  funext c
  unfold geminiParts
  split
  · simp
  have hnone : c.delta.toolCalls = [] := by
    by_contra h
    exact absurd (Or.inl h) ‹_›
  rw [hnone]
  split <;> rfl

theorem texts_geminiStream : String.join ((geminiStream C wrap chunks).map (·.text))
      = String.join (chunks.map fun c => if ¬ c.HasToolCalls then c.delta.getContentString else "") := by
  rw [geminiStream_eq]
  induction chunks with
  | nil => rfl
  | cons c chunks ih =>
    rw [flatMap_cons, map_append, String.join_append, map_cons, String.join_cons]
    congr 1
    unfold geminiParts
    split
    · simp_all [join_eq_empty_iff]
    · split <;> simp_all

/-- A stream arrives at Gemini as a client would put it together exactly if every
tool call comes in one fragment and no chunk has both text and tool calls. -/
theorem geminiStream_delivers_iff (chunks : List SentChoice)
    (hjson : ∀ t ∈ (Assembly.addChoices {} (chunks.map (·.toStreamChoice))).tools,
      (C.unmarshal t.arguments).isSome) :
    (((geminiStream C wrap chunks).filterMap (·.functionCall)).map (fun call => (call.1, some call.2))
        = (Assembly.addChoices {} (chunks.map (·.toStreamChoice))).tools.map
            (fun t => (t.name, C.unmarshal t.arguments)) ∧
      String.join ((geminiStream C wrap chunks).map (·.text))
        = (Assembly.addChoices {} (chunks.map (·.toStreamChoice))).text) ↔
    ((chunks.flatMap (·.delta.toolCalls)).map fun f => f.index.getD 0).Nodup ∧
      ∀ c ∈ chunks, c.HasToolCalls → c.delta.getContentString = "" := by
  have hfragments : (chunks.map (·.toStreamChoice)).flatMap (·.delta.toolCalls)
      = chunks.flatMap (·.delta.toolCalls) := flatMap_map _ _ _
  rw [addChoices_tools, hfragments] at hjson ⊢
  rw [functionCalls_geminiStream, texts_geminiStream, addChoices_text]
  have hcases := @addToolCalls_cases (chunks.flatMap (·.delta.toolCalls)) [] nodup_nil
  refine and_congr ⟨fun heq => ?_, fun hnodup => ?_⟩ ?_
  · rcases hcases with ⟨-, hnodup⟩ | ⟨hlt, -⟩
    · exact hnodup
    have hlen := congrArg List.length heq
    simp only [length_map, length_nil, Nat.zero_add] at hlen hlt
    exact absurd hlen (Nat.ne_of_gt hlt)
  · rcases hcases with ⟨heq, -⟩ | ⟨-, hdup⟩
    · rw [heq, nil_append] at hjson ⊢
      rw [map_map, map_map]
      refine map_congr_left fun f hf => ?_
      have hsome := hjson f.assembled (mem_map_of_mem hf)
      obtain ⟨value, hvalue⟩ := Option.isSome_iff_exists.mp hsome
      have hparsed : C.unmarshal f.arguments = some value := hvalue
      have hne : f.arguments ≠ "" := by
        intro h
        rw [h, C.unmarshal_empty] at hparsed
        exact nomatch hparsed
      simp [callArguments, hne, hparsed, ToolCallResponse.assembled]
    · exact absurd hnodup hdup
  · -- what is left out makes the text shorter
    let pieces : List (Piece SentChoice Unit) := chunks.map fun c => ⟨c, none, c.delta.getContentString⟩
    have hkept : collect (fun p => ¬ p.src.HasToolCalls) pieces = collect (fun _ => True) pieces ↔ _ :=
      collect_eq_iff fun _ _ _ _ => trivial
    simp only [pieces, collect, map_map, forall_mem_map] at hkept
    rw [map_map]
    refine hkept.trans (forall₂_congr fun c _ => ?_)
    tauto

/-- Text, and then a call with these fragments of its arguments. -/
def textThenCall (first : String) (others : List String) : List SentChoice :=
  { delta := { content := some "a" } } ::
  { delta := { toolCalls := [{ index := some 0, id := "c", name := "f", arguments := first }] } } ::
    others.map fun text => { delta := { toolCalls := [{ index := some 0, arguments := text }] } }

/-- A text that is no object, in one. -/
def wrapText (text : String) : objectCodec.Value :=
  let escaped := text.toList.flatMap fun c => if c = '"' ∨ c = '\\' then ['\\', c] else [c]
  ⟨"\x7b\"arguments\":\"" ++ String.ofList escaped ++ "\"\x7d", by
    refine ⟨by simp, ?_⟩
    rw [String.toList_append]
    exact getLast?_append_cons _ _ _⟩

/-- What arrives, as texts. -/
def callTexts (chunks : List SentChoice) : List (String × String) :=
  ((geminiStream objectCodec wrapText chunks).filterMap (·.functionCall)).map fun call => (call.1, call.2.1)

theorem geminiStream_delivers_whole :
    callTexts (textThenCall "\x7b\"a\":1\x7d" []) = [("f", "\x7b\"a\":1\x7d")] ∧
      String.join ((geminiStream objectCodec wrapText (textThenCall "\x7b\"a\":1\x7d" [])).map (·.text))
        = "a" := by
  have hdelivers := (@geminiStream_delivers_iff objectCodec wrapText (textThenCall "\x7b\"a\":1\x7d" [])
    (by decide)).mpr ⟨by decide, by decide⟩
  exact ⟨by decide, hdelivers.2.trans (by decide)⟩

/-- The arguments come in two fragments, which are an object together: two calls
arrive, each with a fragment in an object of its own. -/
theorem geminiStream_fragments :
    let chunks := textThenCall "\x7b\"a\":" ["1\x7d"]
    let tools := (Assembly.addChoices {} (chunks.map (·.toStreamChoice))).tools
    tools.map (fun t => (t.name, t.arguments)) = [("f", "\x7b\"a\":1\x7d")] ∧
    (∀ t ∈ tools, (objectCodec.unmarshal t.arguments).isSome) ∧
    callTexts chunks = [("f", "\x7b\"arguments\":\"\x7b\\\"a\\\":\"\x7d"),
      ("", "\x7b\"arguments\":\"1\x7d\"\x7d")] ∧
    ((geminiStream objectCodec wrapText chunks).filterMap (·.functionCall)).map
        (fun call => (call.1, some call.2))
      ≠ tools.map (fun t => (t.name, objectCodec.unmarshal t.arguments)) := by
  refine ⟨by decide, by decide, by decide +kernel, fun h => ?_⟩
  exact absurd (congrArg List.length h) (by decide)

end MicrossApi
