/-
MicrossApi/Dto.lean

What travels between a client, the relay and an upstream: chat completion
chunks, messages and events of the Claude protocol, and the token counts both
carry (relaykit/dto/openai_response.go, claude.go, billing_usage.go).

A pointer that may be nil is an `Option`; the strings that tell kinds apart are
enumerations, with one constructor for every string the converters do not know.
A decoded JSON value is kept as the text `Marshal` gives it.
-/
import MicrossApi.Database

namespace MicrossApi

/-! ### Token counts -/

/-- `ClaudeCacheCreationUsage`. -/
structure ClaudeCacheCreationUsage where
  ephemeral5mInputTokens : Int := 0
  ephemeral1hInputTokens : Int := 0
deriving DecidableEq, Repr

/-- `ClaudeUsage`. -/
structure ClaudeUsage where
  inputTokens : Int := 0
  cacheCreationInputTokens : Int := 0
  cacheReadInputTokens : Int := 0
  outputTokens : Int := 0
  cacheCreation : Option ClaudeCacheCreationUsage := none
  claudeCacheCreation5mTokens : Int := 0
  claudeCacheCreation1hTokens : Int := 0
deriving DecidableEq, Repr

/-- `BillingUsage`, as far as the conversion to Claude reads it. -/
structure BillingUsage where
  source : String := ""
  semantic : String := ""
  claudeUsage : Option ClaudeUsage := none
deriving DecidableEq, Repr

/-- `Usage`, with the prompt details the conversion to Claude reads. -/
structure Usage where
  promptTokens : Int := 0
  completionTokens : Int := 0
  cachedTokens : Int := 0
  cachedCreationTokens : Int := 0
  cacheWriteTokens : Int := 0
  claudeCacheCreation5mTokens : Int := 0
  claudeCacheCreation1hTokens : Int := 0
  billingUsage : Option BillingUsage := none
deriving DecidableEq, Repr

/-- `CacheCreationTokensTotal`. -/
def Usage.cacheCreationTokensTotal (u : Usage) : Int :=
  max (max u.cachedCreationTokens u.cacheWriteTokens) 0

/-! ### Chat completion chunks -/

/-- `ToolCallResponse` with its `FunctionResponse`. -/
structure ToolCallResponse where
  index : Option Int := none
  id : String := ""
  name : String := ""
  arguments : String := ""
deriving DecidableEq, Repr

/-- `ChatCompletionsStreamResponseChoiceDelta`. -/
structure ChoiceDelta where
  role : String := ""
  content : Option String := none
  reasoningContent : Option String := none
  reasoning : Option String := none
  toolCalls : List ToolCallResponse := []
deriving DecidableEq, Repr

/-- `GetContentString`. -/
def ChoiceDelta.getContentString (d : ChoiceDelta) : String := d.content.getD ""

/-- `GetReasoningContent`. -/
def ChoiceDelta.getReasoningContent (d : ChoiceDelta) : String :=
  (d.reasoningContent.or d.reasoning).getD ""

/-- `ChatCompletionsStreamResponseChoice`. -/
structure StreamChoice where
  delta : ChoiceDelta := {}
  finishReason : Option String := none
deriving DecidableEq, Repr

/-- `ChatCompletionsStreamResponse`. -/
structure ChatChunk where
  id : String := ""
  created : Int := 0
  model : String := ""
  choices : List StreamChoice := []
  usage : Option Usage := none
deriving DecidableEq, Repr

/-! ### Claude messages and events -/

/-- A decoded JSON value, as the text `Marshal` gives it. -/
structure JsonValue where
  text : String
deriving DecidableEq, Repr

/-- The empty JSON object. -/
def JsonValue.emptyObject : JsonValue := ⟨"\x7b\x7d"⟩

/-- The types of a `ClaudeMediaMessage`. -/
inductive MediaType where
  | unset
  | message
  | text
  | thinking
  | toolUse
  | textDelta
  | thinkingDelta
  | inputJsonDelta
  | signatureDelta
  | other (type : String)
deriving DecidableEq, Repr

/-- `ClaudeMediaMessage`. -/
structure ClaudeMediaMessage where
  type : MediaType := .unset
  text : Option String := none
  model : String := ""
  usage : Option ClaudeUsage := none
  stopReason : Option String := none
  partialJson : Option String := none
  role : String := ""
  thinking : Option String := none
  id : String := ""
  name : String := ""
  input : Option JsonValue := none
deriving DecidableEq, Repr

/-- `GetText`. -/
def ClaudeMediaMessage.getText (m : ClaudeMediaMessage) : String := m.text.getD ""

/-- The types of a `ClaudeResponse`. -/
inductive ClaudeType where
  | message
  | messageStart
  | contentBlockStart
  | contentBlockDelta
  | contentBlockStop
  | messageDelta
  | messageStop
  | other (type : String)
deriving DecidableEq, Repr

/-- `ClaudeResponse`: a whole message, or one event of a stream. -/
structure ClaudeResponse where
  id : String := ""
  type : ClaudeType
  content : List ClaudeMediaMessage := []
  stopReason : String := ""
  model : String := ""
  usage : Option ClaudeUsage := none
  index : Option Int := none
  contentBlock : Option ClaudeMediaMessage := none
  delta : Option ClaudeMediaMessage := none
  message : Option ClaudeMediaMessage := none
deriving DecidableEq, Repr

end MicrossApi
