/-
MicrossApi/ClaudeToChat.lean

Claude messages turned into chat completions
(relaykit/relayconvert/internal/claude_messages/to_oai_chat_resp.go), once event
by event and once as a whole.

The event converter has no state: a tool call gets the number of its block as
its index.  The converter of whole messages goes over the blocks and keeps, of
text and of thinking, what the last block of the kind had.
-/
import MicrossApi.ClaudeStreamContent

namespace MicrossApi

/-- `ClaudeStopReasonToOpenAIFinishReason`. -/
def stopReasonClaudeToOpenAI (reason : String) : String :=
  if toLower reason = "stop_sequence" then "stop"
  else if toLower reason = "end_turn" then "stop"
  else if toLower reason = "max_tokens" then "length"
  else if toLower reason = "tool_use" then "tool_calls"
  else if toLower reason = "refusal" then "content_filter"
  else reason

/-! ### Event by event -/

/-- The choice of a chunk that has tool calls, and then no content. -/
def withTools (choice : StreamChoice) (tools : List ToolCallResponse) : StreamChoice :=
  if tools = [] then choice
  else { choice with delta := { choice.delta with content := none, toolCalls := tools } }

/-- What a new block puts into a chunk. -/
def blockStartChoice (fcIdx : Int) (block : ClaudeMediaMessage) : StreamChoice :=
  withTools { delta := { content := if block.type = .text then block.text else none } }
    (if block.type = .toolUse then [{ index := some fcIdx, id := block.id, name := block.name }] else [])

/-- The arguments in a delta; `none` is a nil pointer that is dereferenced. -/
def ClaudeMediaMessage.jsonPart (delta : ClaudeMediaMessage) : Option String :=
  if delta.type = .inputJsonDelta then delta.partialJson else some ""

/-- What a delta with these arguments puts into a chunk. -/
def blockDeltaChoice (fcIdx : Int) (delta : ClaudeMediaMessage) (json : String) : StreamChoice :=
  withTools
    { delta :=
        { content := delta.text
          reasoningContent :=
            if delta.type = .signatureDelta then some "\n"
            else if delta.type = .thinkingDelta then delta.thinking
            else none } }
    (if delta.type = .inputJsonDelta then [{ index := some fcIdx, arguments := json }] else [])

/-- The finish reason that a `message_delta` carries. -/
def finishReasonOf (delta : Option ClaudeMediaMessage) : Option String :=
  ((delta.bind (·.stopReason)).map stopReasonClaudeToOpenAI).filter (· ≠ "null")

/-- `StreamResponseClaude2OpenAI`; no chunk for a `nil`, and no answer where a nil
pointer is dereferenced. -/
def streamResponseClaude2OpenAI (claudeResponse : ClaudeResponse) : Option (Option ChatChunk) :=
  let fcIdx := claudeResponse.index.getD 0
  match claudeResponse.type with
  | .messageStart =>
    some <| some
      { id := (claudeResponse.message.map (·.id)).getD ""
        model := (claudeResponse.message.map (·.model)).getD claudeResponse.model
        choices := [{ delta := { content := some "", role := "assistant" } }] }
  | .contentBlockStart =>
    some <| claudeResponse.contentBlock.map fun block =>
      { model := claudeResponse.model, choices := [blockStartChoice fcIdx block] }
  | .contentBlockDelta =>
    match claudeResponse.delta with
    | none => some (some { model := claudeResponse.model, choices := [{}] })
    | some delta =>
      delta.jsonPart.map fun json =>
        some { model := claudeResponse.model, choices := [blockDeltaChoice fcIdx delta json] }
  | .messageDelta =>
    some <| some
      { model := claudeResponse.model
        choices := [{ finishReason := finishReasonOf claudeResponse.delta }] }
  | .message | .contentBlockStop | .messageStop | .other _ => some none

/-! ### As a whole -/

/-- `OpenAITextResponse` with its one choice. -/
structure ChatResponse where
  id : String
  model : String
  content : String
  reasoningContent : Option String
  toolCalls : List ToolCallResponse
  finishReason : String
deriving DecidableEq, Repr

/-- What the loop over the blocks collects. -/
structure Collected where
  responseText : String
  thinkingContent : String := ""
  tools : List ToolCallResponse := []
deriving DecidableEq, Repr

/-- One turn of the loop. -/
def Collected.add (acc : Collected) (message : ClaudeMediaMessage) : Collected :=
  match message.type with
  | .toolUse =>
    { acc with
      tools := acc.tools ++
        [{ id := message.id
           name := message.name
           arguments := (message.input.map (·.text)).getD "null" }] }
  | .thinking => { acc with thinkingContent := message.thinking.getD acc.thinkingContent }
  | .text => { acc with responseText := message.getText }
  | _ => acc

/-- `ResponseClaude2OpenAI`. -/
def responseClaude2OpenAI (claudeResponse : ClaudeResponse) : ChatResponse :=
  let responseText := (claudeResponse.content.head?.map (·.getText)).getD ""
  let responseThinking := (claudeResponse.content.head?.bind (·.thinking)).getD ""
  let acc := claudeResponse.content.foldl Collected.add { responseText := responseText }
  { id := claudeResponse.id
    model := claudeResponse.model
    content := acc.responseText
    reasoningContent :=
      if acc.thinkingContent ≠ "" then some acc.thinkingContent
      else if responseThinking ≠ "" then some responseThinking
      else none
    toolCalls := acc.tools
    finishReason := stopReasonClaudeToOpenAI claudeResponse.stopReason }

/-! ### Messages and their events -/

/-- JSON values with their text: what `Marshal` writes, `Unmarshal` reads back,
and the empty text is no value. -/
structure JsonCodec where
  Value : Type
  marshal : Value → JsonValue
  unmarshal : String → Option Value
  emptyObject : Value
  unmarshal_marshal : ∀ v, unmarshal (marshal v).text = some v
  unmarshal_empty : unmarshal "" = none

variable (C : JsonCodec)

/-- The blocks of a message. -/
inductive ClaudeBlock where
  | text (s : String)
  | thinking (s : String)
  | toolUse (id name : String) (input : C.Value)

variable {C}

/-- A block in a whole message. -/
def ClaudeBlock.media : ClaudeBlock C → ClaudeMediaMessage
  | .text s => { type := .text, text := some s }
  | .thinking s => { type := .thinking, thinking := some s }
  | .toolUse id name input => { type := .toolUse, id := id, name := name, input := some (C.marshal input) }

/-- The block as it is announced in a stream, still empty. -/
def ClaudeBlock.announced : ClaudeBlock C → ClaudeMediaMessage
  | .text _ => textBlock
  | .thinking _ => thinkingBlock
  | .toolUse id name _ => toolUseBlock { id := id, name := name }

/-- A delta of the block. -/
def ClaudeBlock.delta : ClaudeBlock C → String → ClaudeMediaMessage
  | .text _ => textDelta
  | .thinking _ => thinkingDelta
  | .toolUse _ _ _ => inputJsonDelta

/-- The parts make up the block; a tool without any input may come without JSON. -/
def ClaudeBlock.MadeUpOf : ClaudeBlock C → List String → Prop
  | .text s, parts => String.join parts = s
  | .thinking s, parts => String.join parts = s
  | .toolUse _ _ input, parts =>
    C.unmarshal (String.join parts) = some input ∨ String.join parts = "" ∧ input = C.emptyObject

variable (C)

/-- A block split into deltas. -/
structure SplitBlock where
  block : ClaudeBlock C
  parts : List String
  madeUp : block.MadeUpOf parts

variable {C}

/-- The events of a block. -/
def SplitBlock.events (split : SplitBlock C) (index : Nat) : List ClaudeResponse :=
  blockStart index split.block.announced ::
    (split.parts.map fun part => blockDelta index (split.block.delta part)) ++ [generateStopBlock index]

/-- Events such as `ping`. -/
def ClaudeType.isOther : ClaudeType → Bool
  | .other _ => true
  | _ => false

/-- A valid stream for the blocks: between `message_start` and `message_delta`
and `message_stop` the events of the blocks one after the other, and anywhere
events of other types such as `ping`. -/
def StreamOf (splits : List (SplitBlock C)) (events : List ClaudeResponse) : Prop :=
  ∃ start delta stop : ClaudeResponse,
    start.type = .messageStart ∧ delta.type = .messageDelta ∧ stop.type = .messageStop ∧
      (events.filter fun e => !e.type.isOther)
        = start :: (splits.zipIdx.flatMap fun (split, i) => split.events i) ++ [delta, stop]

end MicrossApi
