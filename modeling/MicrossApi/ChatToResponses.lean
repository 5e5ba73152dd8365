/-
MicrossApi/ChatToResponses.lean

Chat completion chunks turned into the events of a Responses stream
(relaykit/relayconvert/internal/oai_chat/to_oai_responses_stream_resp.go).

The converter keeps one message, one reasoning item and any number of tool calls,
numbers them in the order in which they start, and announces each with an
`output_item.added`.  A finish reason closes what is open; `Finalize…` closes
what is open then and sends the whole response.  A tool's id and name may still
change after it was announced, and the ids of the message and the reasoning item
are made from the id of the response, which may come late.
-/
import MicrossApi.ResponsesDto
import MicrossApi.ClaudeStreamContent
import Mathlib.Data.List.Sort

namespace MicrossApi

open Transducer

/-! ### State -/

/-- `chatToResponsesStreamTool`. -/
structure ChatTool where
  chatIndex : Int
  outputIndex : Nat
  id : String
  name : String
  arguments : String := ""
  done : Bool := false
deriving DecidableEq, Repr

/-- `chatToResponsesOutputRef`. -/
inductive OutputRef where
  | message
  | reasoning
  | tool (toolIndex : Int)
deriving DecidableEq, Repr

/-- `ChatToResponsesStreamState`.  The tools are those of `toolsByIndex`; an output
index is `-1` until the item starts. -/
structure ChatToResponsesState where
  id : String := ""
  model : String := ""
  created : Int := 0
  status : String := "completed"
  incompleteDetails : Option String := none
  sentCreated : Bool := false
  textOutputIndex : Int := -1
  textStarted : Bool := false
  textDone : Bool := false
  reasoningIndex : Int := -1
  reasoningStarted : Bool := false
  reasoningDone : Bool := false
  finalized : Bool := false
  nextOutputIndex : Nat := 0
  toolsByIndex : List ChatTool := []
  outputOrder : List OutputRef := []
  text : String := ""
  reasoning : String := ""
deriving DecidableEq, Repr

namespace ChatToResponsesState

variable (s : ChatToResponsesState)

/-- `messageID`. -/
def messageId : String := s.id ++ "_msg_0"

/-- `reasoningID`. -/
def reasoningId : String := s.id ++ "_reasoning_0"

/-- `outputStatus`. -/
def outputStatus : String :=
  if s.status = "incomplete" then "incomplete" else "completed"

/-- `toolsByIndex[chatIndex]`. -/
def tool? (chatIndex : Int) : Option ChatTool :=
  s.toolsByIndex.find? (·.chatIndex = chatIndex)

/-- `sortedTools`. -/
def sortedTools : List ChatTool :=
  s.toolsByIndex.insertionSort fun a b => a.chatIndex ≤ b.chatIndex

/-! ### Items -/

/-- `messageOutput`. -/
def messageOutput (status : String) : ResponsesOutput where
  type := .message
  id := s.messageId
  status := status
  role := "assistant"
  content := [⟨"output_text", s.text⟩]

/-- `reasoningOutput`. -/
def reasoningOutput (status : String) : ResponsesOutput where
  type := .reasoning
  id := s.reasoningId
  status := status
  content := [⟨"summary_text", s.reasoning⟩]

end ChatToResponsesState

variable (tool : ChatTool)

/-- `toolOutput`. -/
def ChatTool.output (status : String) : ResponsesOutput where
  type := .functionCall
  id := tool.id
  status := status
  callId := tool.id
  name := tool.name
  arguments := .string tool.arguments

namespace ChatToResponsesState

variable (s : ChatToResponsesState)

/-- `finalResponse`. -/
def finalResponse : ResponsesResponse where
  id := s.id
  createdAt := s.created
  status := .string s.status
  incompleteDetails := s.incompleteDetails
  model := s.model
  output := s.outputOrder.filterMap fun ref =>
    match ref with
    | .message => some (s.messageOutput s.outputStatus)
    | .reasoning => some (s.reasoningOutput s.outputStatus)
    | .tool toolIndex => (s.tool? toolIndex).map (·.output s.outputStatus)

/-- `createdResponse`. -/
def createdResponse : ResponsesResponse where
  id := s.id
  createdAt := s.created
  status := .string "in_progress"
  model := s.model

/-! ### Deltas -/

/-- `appendTextDelta`. -/
def appendTextDelta (delta : String) : ChatToResponsesState × List ResponsesEvent :=
  let r : ChatToResponsesState × List ResponsesEvent :=
    if s.textStarted then (s, [])
    else
      ({ s with
          textStarted := true
          textOutputIndex := s.nextOutputIndex
          nextOutputIndex := s.nextOutputIndex + 1
          outputOrder := s.outputOrder ++ [.message] },
        [{ type := .outputItemAdded
           outputIndex := some s.nextOutputIndex
           item := some
             { type := .message, id := s.messageId, status := "in_progress", role := "assistant" } }])
  ({ r.1 with text := r.1.text ++ delta },
    r.2 ++ [{ type := .outputTextDelta
              outputIndex := some r.1.textOutputIndex
              contentIndex := some 0
              delta := delta
              itemId := r.1.messageId }])

/-- `appendReasoningDelta`. -/
def appendReasoningDelta (delta : String) : ChatToResponsesState × List ResponsesEvent :=
  let r : ChatToResponsesState × List ResponsesEvent :=
    if s.reasoningStarted then (s, [])
    else
      ({ s with
          reasoningStarted := true
          reasoningIndex := s.nextOutputIndex
          nextOutputIndex := s.nextOutputIndex + 1
          outputOrder := s.outputOrder ++ [.reasoning] },
        [{ type := .outputItemAdded
           outputIndex := some s.nextOutputIndex
           item := some { type := .reasoning, id := s.reasoningId, status := "in_progress" } }])
  ({ r.1 with reasoning := r.1.reasoning ++ delta },
    r.2 ++ [{ type := .reasoningSummaryDelta
              outputIndex := some r.1.reasoningIndex
              summaryIndex := some 0
              delta := delta
              itemId := r.1.reasoningId }])

/-- A new tool; without an id it gets one from the response and its index. -/
def newTool (chatIndex : Int) (toolCall : ToolCallResponse) : ChatTool where
  chatIndex := chatIndex
  outputIndex := s.nextOutputIndex
  id := if trimSpace toolCall.id = "" then s.id ++ "_call_" ++ toString chatIndex else trimSpace toolCall.id
  name := trimSpace toolCall.name

end ChatToResponsesState

/-- The announcement of a tool. -/
def ChatTool.added : ResponsesEvent where
  type := .outputItemAdded
  outputIndex := some tool.outputIndex
  itemId := tool.id
  item := some
    { type := .functionCall
      id := tool.id
      status := "in_progress"
      callId := tool.id
      name := tool.name
      arguments := .string "" }

/-- A delta may bring an id and a name, and adds to the arguments. -/
def ChatTool.update (toolCall : ToolCallResponse) : ChatTool :=
  { tool with
    id := if trimSpace toolCall.id ≠ "" then trimSpace toolCall.id else tool.id
    name := if trimSpace toolCall.name ≠ "" then trimSpace toolCall.name else tool.name
    arguments := tool.arguments ++ toolCall.arguments }

/-- The event for more arguments. -/
def ChatTool.argumentsDelta (delta : String) : List ResponsesEvent :=
  if delta ≠ "" then
    [{ type := .functionArgsDelta, outputIndex := some tool.outputIndex, itemId := tool.id, delta := delta }]
  else []

/-- The events that close a tool. -/
def ChatTool.doneEvents (status : String) : List ResponsesEvent :=
  [{ type := .functionArgsDone, outputIndex := some tool.outputIndex, itemId := tool.id },
    { type := .outputItemDone, outputIndex := some tool.outputIndex, item := some (tool.output status) }]

namespace ChatToResponsesState

variable (s : ChatToResponsesState)

/-- Write a tool back under its index. -/
def setTool (tool : ChatTool) : ChatToResponsesState :=
  { s with toolsByIndex := s.toolsByIndex.map fun t => if t.chatIndex = tool.chatIndex then tool else t }

/-- `appendToolCallDelta`. -/
def appendToolCallDelta (toolCall : ToolCallResponse) : ChatToResponsesState × List ResponsesEvent :=
  let chatIndex := toolCall.index.getD 0
  match s.tool? chatIndex with
  | some tool =>
    let tool := tool.update toolCall
    (s.setTool tool, tool.argumentsDelta toolCall.arguments)
  | none =>
    let tool := s.newTool chatIndex toolCall
    ({ s with
        nextOutputIndex := s.nextOutputIndex + 1
        outputOrder := s.outputOrder ++ [.tool chatIndex]
        toolsByIndex := s.toolsByIndex ++ [tool.update toolCall] },
      tool.added :: (tool.update toolCall).argumentsDelta toolCall.arguments)

/-! ### Closing -/

/-- The events that close the message. -/
def textDoneEvents : List ResponsesEvent :=
  if s.textStarted ∧ ¬ s.textDone then
    [{ type := .outputTextDone
       outputIndex := some s.textOutputIndex
       contentIndex := some 0
       itemId := s.messageId },
      { type := .outputItemDone
        outputIndex := some s.textOutputIndex
        item := some (s.messageOutput s.outputStatus) }]
  else []

/-- The events that close the reasoning item. -/
def reasoningDoneEvents : List ResponsesEvent :=
  if s.reasoningStarted ∧ ¬ s.reasoningDone then
    [{ type := .reasoningSummaryDone
       outputIndex := some s.reasoningIndex
       summaryIndex := some 0
       itemId := s.reasoningId
       part := some s.reasoning },
      { type := .outputItemDone
        outputIndex := some s.reasoningIndex
        item := some (s.reasoningOutput s.outputStatus) }]
  else []

/-- `doneDeltaEvents`. -/
def doneDeltaEvents : ChatToResponsesState × List ResponsesEvent :=
  ({ s with
      textDone := s.textDone || s.textStarted
      reasoningDone := s.reasoningDone || s.reasoningStarted
      toolsByIndex := s.toolsByIndex.map fun tool => { tool with done := true } },
    s.textDoneEvents ++ s.reasoningDoneEvents ++
      (s.sortedTools.filter fun tool => !tool.done).flatMap (·.doneEvents s.outputStatus))

/-- `applyFinishReason` with `ResponsesStatusFromChatFinishReason`. -/
def applyFinishReason (finishReason : String) : ChatToResponsesState :=
  if trimSpace finishReason = "length" then
    { s with status := "incomplete", incompleteDetails := some "max_output_tokens" }
  else if trimSpace finishReason = "content_filter" then
    { s with status := "incomplete", incompleteDetails := some "content_filter" }
  else { s with status := "completed", incompleteDetails := none }

end ChatToResponsesState

/-! ### The conversion -/

/-- What a chunk asks for, one thing after the other. -/
inductive ChatAction where
  | reasoning (delta : String)
  | text (delta : String)
  | tool (toolCall : ToolCallResponse)
  | finish (reason : String)
deriving DecidableEq, Repr

/-- The body of the loop over the choices. -/
def StreamChoice.actions (choice : StreamChoice) : List ChatAction :=
  (if choice.delta.getReasoningContent ≠ "" then [.reasoning choice.delta.getReasoningContent] else []) ++
    (if choice.delta.getContentString ≠ "" then [.text choice.delta.getContentString] else []) ++
    choice.delta.toolCalls.map .tool ++
    ((choice.finishReason.filter (trimSpace · ≠ "")).map .finish).toList

variable (s : ChatToResponsesState)

/-- The events of one action. -/
def ChatToResponsesState.act : ChatAction → ChatToResponsesState × List ResponsesEvent
  | .reasoning delta => s.appendReasoningDelta delta
  | .text delta => s.appendTextDelta delta
  | .tool toolCall => s.appendToolCallDelta toolCall
  | .finish reason => (s.applyFinishReason reason).doneDeltaEvents

/-- The state takes its id, model and time from the first chunk that has them. -/
def ChatToResponsesState.identify (chunk : ChatChunk) : ChatToResponsesState :=
  { s with
    id := if s.id = "" then chunk.id else s.id
    model := if s.model = "" then chunk.model else s.model
    created := if s.created = 0 then chunk.created else s.created }

/-- `response.created`, before the first chunk. -/
def ChatToResponsesState.createdEvents : List ResponsesEvent :=
  if s.sentCreated then [] else [{ type := .created, response := some s.createdResponse }]

/-- `ChatCompletionsStreamChunkToResponsesEvents`. -/
def chatCompletionsStreamChunkToResponsesEvents (s : ChatToResponsesState) (chunk : ChatChunk) :
    ChatToResponsesState × List ResponsesEvent :=
  let s := s.identify chunk
  let r := run ChatToResponsesState.act { s with sentCreated := true }
    (chunk.choices.flatMap StreamChoice.actions)
  (r.1, s.createdEvents ++ r.2)

/-- `FinalizeChatCompletionsStreamToResponses`. -/
def finalizeChatCompletionsStreamToResponses (s : ChatToResponsesState) :
    ChatToResponsesState × List ResponsesEvent :=
  if s.finalized then (s, [])
  else
    let r := s.doneDeltaEvents
    let s := { r.1 with finalized := true }
    (s, r.2 ++ [{ type := if s.status = "incomplete" then .incomplete else .completed
                  response := some s.finalResponse }])

/-- `NewChatToResponsesStreamState`. -/
def newChatToResponsesState (id model : String) (now : Int) : ChatToResponsesState where
  id := id
  model := model
  created := now

/-- The events for a whole stream of chunks. -/
def responsesStream (s : ChatToResponsesState) (chunks : List ChatChunk) : List ResponsesEvent :=
  let r := run chatCompletionsStreamChunkToResponsesEvents s chunks
  r.2 ++ (finalizeChatCompletionsStreamToResponses r.1).2

end MicrossApi
