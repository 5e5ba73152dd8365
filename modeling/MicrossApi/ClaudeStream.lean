/-
MicrossApi/ClaudeStream.lean

Chat completion chunks turned into the events of a Claude stream
(relaykit/relayconvert/internal/oai_chat/to_claude_messages_resp.go,
relaykit/relayconvert/convmeta/meta.go, relaykit/reasonmap).

`StreamResponseOpenAI2Claude` takes one chunk to a list of events.  What it
remembers between chunks is which kind of block is open and under which number;
for tool calls, which the upstream numbers itself, the number of the first block
of the group and the largest offset seen.  The first chunk goes through a path
of its own.  The closing events wait for a usage, which may come in a chunk
after the one with the finish reason; `FinalizeStreamResponseOpenAI2Claude`
closes what is still open at the end.
-/
import MicrossApi.Dto
import MicrossApi.Transducer

namespace MicrossApi

open Transducer

/-! ### Stop reasons -/

/-- `strings.ToLower`, for comparison with words in ASCII: outside ASCII only the
Kelvin sign and the dotted capital I have a lower case in ASCII. -/
def toLower (s : String) : String :=
  s.map fun c => if c.toNat = 0x212A then 'k' else if c.toNat = 0x130 then 'i' else c.toLower

/-- `OpenAIFinishReasonToClaudeStopReason`. -/
def stopReasonOpenAI2Claude (reason : String) : String :=
  if toLower reason = "stop" then "end_turn"
  else if toLower reason = "stop_sequence" then "stop_sequence"
  else if toLower reason = "length" ∨ toLower reason = "max_tokens" then "max_tokens"
  else if toLower reason = "content_filter" then "refusal"
  else if toLower reason = "tool_calls" then "tool_use"
  else reason

/-! ### Usage -/

/-- `NormalizeCacheCreationSplit`. -/
def normalizeCacheCreationSplit (totalTokens tokens5m tokens1h : Int) : Int × Int :=
  (tokens5m + max (totalTokens - tokens5m - tokens1h) 0, tokens1h)

/-- The usage an upstream has already counted in Claude's terms. -/
def Usage.claudeBilling (u : Usage) : Option ClaudeUsage :=
  u.billingUsage.bind fun b =>
    if b.source = "claude_messages" ∨ b.semantic = "anthropic" then b.claudeUsage else none

/-- `buildClaudeUsageFromOpenAIUsage`. -/
def buildClaudeUsageFromOpenAIUsage (oaiUsage : Option Usage) : Option ClaudeUsage :=
  oaiUsage.map fun u =>
    match u.claudeBilling with
    | some usage => usage
    | none =>
      let split := normalizeCacheCreationSplit u.cachedCreationTokens
        u.claudeCacheCreation5mTokens u.claudeCacheCreation1hTokens
      { inputTokens :=
          if 0 < u.cacheWriteTokens then
            max (u.promptTokens - u.cachedTokens - u.cacheCreationTokensTotal) 0
          else u.promptTokens
        outputTokens := u.completionTokens
        cacheCreationInputTokens := u.cacheCreationTokensTotal
        cacheReadInputTokens := u.cachedTokens
        cacheCreation := if 0 < split.1 ∨ 0 < split.2 then some ⟨split.1, split.2⟩ else none }

/-! ### The state of a conversion -/

/-- `LastMessageType…`. -/
inductive LastMessageType where
  | none
  | text
  | tools
  | thinking
deriving DecidableEq, Repr

/-- `ClaudeConvertInfo`. -/
structure ClaudeConvertInfo where
  lastMessagesType : LastMessageType := .none
  index : Int := 0
  usage : Option Usage := none
  finishReason : String := ""
  done : Bool := false
  toolCallBaseIndex : Int := 0
  toolCallMaxIndexOffset : Nat := 0
deriving DecidableEq, Repr

/-! ### Events -/

/-- `message_start`. -/
def messageStart (chunk : ChatChunk) (estimatePromptTokens : Int) : ClaudeResponse where
  type := .messageStart
  message := some
    { id := chunk.id
      model := chunk.model
      type := .message
      role := "assistant"
      usage := some { inputTokens := estimatePromptTokens } }

/-- `content_block_start`. -/
def blockStart (index : Int) (block : ClaudeMediaMessage) : ClaudeResponse where
  type := .contentBlockStart
  index := some index
  contentBlock := some block

/-- `content_block_delta`. -/
def blockDelta (index : Int) (delta : ClaudeMediaMessage) : ClaudeResponse where
  type := .contentBlockDelta
  index := some index
  delta := some delta

/-- `generateStopBlock`. -/
def generateStopBlock (index : Int) : ClaudeResponse where
  type := .contentBlockStop
  index := some index

/-- `message_delta`. -/
def messageDelta (stopReason : String) (usage : Option Usage) : ClaudeResponse where
  type := .messageDelta
  usage := buildClaudeUsageFromOpenAIUsage usage
  delta := some { stopReason := some stopReason }

/-- `message_stop`. -/
def messageStop : ClaudeResponse where
  type := .messageStop

/-- A new text block. -/
def textBlock : ClaudeMediaMessage where
  type := .text
  text := some ""

/-- A new thinking block. -/
def thinkingBlock : ClaudeMediaMessage where
  type := .thinking
  thinking := some ""

/-- A new block for a tool call. -/
def toolUseBlock (toolCall : ToolCallResponse) : ClaudeMediaMessage where
  id := toolCall.id
  type := .toolUse
  name := toolCall.name
  input := some JsonValue.emptyObject

/-- More text. -/
def textDelta (content : String) : ClaudeMediaMessage where
  type := .textDelta
  text := some content

/-- More thinking. -/
def thinkingDelta (reasoning : String) : ClaudeMediaMessage where
  type := .thinkingDelta
  thinking := some reasoning

/-- More of the arguments of a tool call. -/
def inputJsonDelta (arguments : String) : ClaudeMediaMessage where
  type := .inputJsonDelta
  partialJson := some arguments

/-- `stopOpenBlocks`. -/
def stopOpenBlocks (s : ClaudeConvertInfo) : List ClaudeResponse :=
  match s.lastMessagesType with
  | .text | .thinking => [generateStopBlock s.index]
  | .tools =>
    (List.range (s.toolCallMaxIndexOffset + 1)).map fun offset : Nat =>
      generateStopBlock (s.toolCallBaseIndex + offset)
  | .none => []

variable (s : ClaudeConvertInfo)

/-- The state once the open blocks are closed: the next free number. -/
def ClaudeConvertInfo.advance : ClaudeConvertInfo :=
  match s.lastMessagesType with
  | .none => s
  | .tools =>
    { s with
      index := s.toolCallBaseIndex + s.toolCallMaxIndexOffset + 1
      toolCallBaseIndex := 0
      toolCallMaxIndexOffset := 0
      lastMessagesType := .none }
  | .text | .thinking => { s with index := s.index + 1, lastMessagesType := .none }

/-- The closing events of a message. -/
def closeMessage (stopReason : String) (usage : Option Usage) : List ClaudeResponse :=
  [messageDelta stopReason usage, messageStop]

/-! ### Parts of a chunk -/

/-- The finish reason of a choice, unless it is nil or empty. -/
def StreamChoice.finish (choice : StreamChoice) : Option String := choice.finishReason.filter (· ≠ "")

/-- Close what is open and open a block of another kind, or go on with the open
block of that kind. -/
def ClaudeConvertInfo.switchTo (kind : LastMessageType)
    (block : ClaudeMediaMessage) : ClaudeConvertInfo × List ClaudeResponse :=
  if s.lastMessagesType = kind then (s, [])
  else ({ s.advance with lastMessagesType := kind },
    stopOpenBlocks s ++ [blockStart s.advance.index block])

/-- The same on the first chunk, where the block is opened in any case. -/
def ClaudeConvertInfo.switchToFirst (kind : LastMessageType)
    (block : ClaudeMediaMessage) : ClaudeConvertInfo × List ClaudeResponse :=
  if s.lastMessagesType = kind then (s, [blockStart s.index block])
  else ({ s.advance with lastMessagesType := kind },
    stopOpenBlocks s ++ [blockStart s.advance.index block])

/-- Reasoning, or text if there is no reasoning; `switch` opens the block. -/
def contentEvents (switch : LastMessageType → ClaudeMediaMessage → ClaudeConvertInfo × List ClaudeResponse)
    (s : ClaudeConvertInfo) (delta : ChoiceDelta) : ClaudeConvertInfo × List ClaudeResponse :=
  if delta.getReasoningContent ≠ "" then
    let r := switch .thinking thinkingBlock
    (r.1, r.2 ++ [blockDelta r.1.index (thinkingDelta delta.getReasoningContent)])
  else if delta.getContentString ≠ "" then
    let r := switch .text textBlock
    (r.1, r.2 ++ [blockDelta r.1.index (textDelta delta.getContentString)])
  else (s, [])

/-- The events for one delta of a tool call under its block's number. -/
def toolCallEvents (blockIndex : Int) (toolCall : ToolCallResponse) : List ClaudeResponse :=
  (if toolCall.name ≠ "" then [blockStart blockIndex (toolUseBlock toolCall)] else []) ++
    if toolCall.arguments ≠ "" then [blockDelta blockIndex (inputJsonDelta toolCall.arguments)] else []

/-- The loop over the deltas of a chunk: the largest offset, and the events.  A
delta without an index takes its place in the chunk. -/
def toolCallsLoop (base : Int) : Nat → Nat → List ToolCallResponse → Nat × List ClaudeResponse
  | _, maxOffset, [] => (maxOffset, [])
  | i, maxOffset, toolCall :: toolCalls =>
    let offset := toolCall.index.getD i
    let r := toolCallsLoop base (i + 1) (max (maxOffset : Int) offset).toNat toolCalls
    (r.1, toolCallEvents (base + offset) toolCall ++ r.2)

/-- The tool calls of a chunk. -/
def toolEvents (s : ClaudeConvertInfo) (toolCalls : List ToolCallResponse) :
    ClaudeConvertInfo × List ClaudeResponse :=
  let r :=
    if s.lastMessagesType = .tools then (s, [])
    else ({ s.advance with toolCallBaseIndex := s.advance.index, toolCallMaxIndexOffset := 0 },
      stopOpenBlocks s)
  let loop := toolCallsLoop r.1.toolCallBaseIndex 0 r.1.toolCallMaxIndexOffset toolCalls
  ({ r.1 with
      lastMessagesType := .tools
      toolCallMaxIndexOffset := loop.1
      index := r.1.toolCallBaseIndex + loop.1 },
    r.2 ++ loop.2)

/-! ### The conversion -/

/-- The first tool call of the first chunk. -/
def firstToolEvents (s : ClaudeConvertInfo) (toolCalls : List ToolCallResponse) :
    ClaudeConvertInfo × List ClaudeResponse :=
  match toolCalls with
  | [] => (s, [])
  | toolCall :: _ =>
    ({ s with lastMessagesType := .tools, toolCallBaseIndex := 0, toolCallMaxIndexOffset := 0 },
      blockStart 0 (toolUseBlock toolCall) ::
        if toolCall.arguments ≠ "" then [blockDelta 0 (inputJsonDelta toolCall.arguments)] else [])

variable (estimatePromptTokens : Int)

/-- `StreamResponseOpenAI2Claude` on the first chunk. -/
def firstChunkEvents (s : ClaudeConvertInfo) (chunk : ChatChunk) : ClaudeConvertInfo × List ClaudeResponse :=
  match chunk.choices with
  | [] => (s, [messageStart chunk estimatePromptTokens])
  | choice :: _ =>
    let tool := firstToolEvents s choice.delta.toolCalls
    let content := contentEvents tool.1.switchToFirst tool.1 choice.delta
    let events := messageStart chunk estimatePromptTokens :: (tool.2 ++ content.2)
    match choice.finish with
    | none => (content.1, events)
    | some reason =>
      let s := { content.1 with finishReason := reason }
      match chunk.usage.or s.usage with
      | none => (s, events)
      | some usage =>
        ({ s with done := true },
          events ++ stopOpenBlocks s ++ closeMessage (stopReasonOpenAI2Claude reason) usage)

/-- The events of a chunk's delta, on a later chunk. -/
def deltaEvents (s : ClaudeConvertInfo) (delta : ChoiceDelta) : ClaudeConvertInfo × List ClaudeResponse :=
  match delta.toolCalls with
  | [] => contentEvents s.switchTo s delta
  | toolCalls => toolEvents s toolCalls

/-- `stopReason`, or `end_turn` if there is none. -/
def endTurn (stopReason : String) : String := if stopReason = "" then "end_turn" else stopReason

/-- `StreamResponseOpenAI2Claude` on a later chunk. -/
def laterChunkEvents (s : ClaudeConvertInfo) (chunk : ChatChunk) : ClaudeConvertInfo × List ClaudeResponse :=
  match chunk.choices with
  | [] =>
    match chunk.usage.or s.usage with
    | none => (s, [])
    | some usage =>
      ({ s with done := true },
        stopOpenBlocks s ++ closeMessage (endTurn (stopReasonOpenAI2Claude s.finishReason)) usage)
  | choice :: _ =>
    match choice.finish, chunk.usage with
    | none, _ => deltaEvents s choice.delta
    | some reason, none => ({ s with finishReason := reason }, [])
    | some reason, some usage =>
      let r := deltaEvents { s with finishReason := reason } choice.delta
      ({ r.1 with done := true },
        r.2 ++ stopOpenBlocks r.1 ++ closeMessage (stopReasonOpenAI2Claude reason) usage)

/-- `StreamResponseOpenAI2Claude`; the count is `GetSendResponseCount`. -/
def streamResponseOpenAI2Claude (sendResponseCount : Nat)
    (s : ClaudeConvertInfo) (chunk : ChatChunk) : ClaudeConvertInfo × List ClaudeResponse :=
  if s.done then (s, [])
  else if sendResponseCount = 1 then firstChunkEvents estimatePromptTokens s chunk
  else laterChunkEvents s chunk

/-- `FinalizeStreamResponseOpenAI2Claude`. -/
def finalizeStreamResponseOpenAI2Claude (s : ClaudeConvertInfo) : ClaudeConvertInfo × List ClaudeResponse :=
  if s.done then (s, [])
  else ({ s with done := true },
    stopOpenBlocks s ++ closeMessage (endTurn (stopReasonOpenAI2Claude s.finishReason)) s.usage)

/-- One chunk of a stream whose chunks are counted from 1. -/
def claudeStreamStep (s : Nat × ClaudeConvertInfo) (chunk : ChatChunk) :
    (Nat × ClaudeConvertInfo) × List ClaudeResponse :=
  let r := streamResponseOpenAI2Claude estimatePromptTokens s.1 s.2 chunk
  ((s.1 + 1, r.1), r.2)

/-- The events for a whole stream of chunks. -/
def claudeStream (s : ClaudeConvertInfo) (chunks : List ChatChunk) : List ClaudeResponse :=
  let r := run (claudeStreamStep estimatePromptTokens) (1, s) chunks
  r.2 ++ (finalizeStreamResponseOpenAI2Claude r.1.2).2

end MicrossApi
