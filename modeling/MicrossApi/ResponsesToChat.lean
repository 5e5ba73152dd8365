/-
MicrossApi/ResponsesToChat.lean

The events of a Responses stream turned into chat completion chunks
(relaykit/relayconvert/internal/oai_responses/to_oai_chat_stream_resp.go), and a
whole Responses response turned into a chat completion (to_oai_chat_resp.go).

A tool is found by the output index, the id of its item or its call id, whichever
an event has: each leads to a key and the key to the tool.  Arguments that come
before their tool wait under the index or the id.  What of a tool has been sent is
remembered (`sent`, `nameSent`, `argsSentAt`), so that the events that repeat it
send only what is new.

Tools are kept in a list, in which `Index` is the place: several keys may lead to
one tool, as several entries of the Go map point to one struct.
-/
import MicrossApi.ResponsesDto
import MicrossApi.ClaudeToChat
import Mathlib.Data.List.AList
import Mathlib.Data.List.Sort
import Mathlib.Data.String.Basic

namespace MicrossApi

open Transducer

/-! ### Keys and tools -/

/-- A key of `toolByKey`: `output:…`, `item:…` or `call:…`. -/
inductive ToolKey where
  | output (outputIndex : Int)
  | item (itemId : String)
  | call (callId : String)
deriving DecidableEq, Repr

/-- A key as the string the Go code uses. -/
def ToolKey.text : ToolKey → String
  | .output outputIndex => "output:" ++ toString outputIndex
  | .item itemId => "item:" ++ itemId
  | .call callId => "call:" ++ callId

/-- `responsesStreamTool`; the place in the list is the `Index`. -/
structure StreamTool where
  key : ToolKey
  callId : String := ""
  itemId : String := ""
  name : String := ""
  arguments : String := ""
  sent : Bool := false
  nameSent : Bool := false
  argsSentAt : Nat := 0
deriving DecidableEq, Repr

/-- `ResponsesToChatStreamState`. -/
structure ResponsesToChatState where
  id : String := ""
  model : String := ""
  created : Int := 0
  sentStart : Bool := false
  finalized : Bool := false
  hasSentText : Bool := false
  sawToolCall : Bool := false
  hasSentReasoning : Bool := false
  needsReasoningSummaryBreak : Bool := false
  tools : List StreamTool := []
  toolByKey : AList fun _ : ToolKey => Nat := ∅
  outputIndexToKey : AList fun _ : Int => ToolKey := ∅
  itemIdToKey : AList fun _ : String => ToolKey := ∅
  callIdToKey : AList fun _ : String => ToolKey := ∅
  pendingArgsByOutputIndex : AList fun _ : Int => String := ∅
  pendingArgsByItemId : AList fun _ : String => String := ∅

/-- `NewResponsesToChatStreamState`. -/
def newResponsesToChatState (model : String) (now : Int) : ResponsesToChatState where
  model := model
  created := now

/-- What is left of a string after so many bytes. -/
def dropBytes : Nat → List Char → List Char
  | 0, cs => cs
  | _ + 1, [] => []
  | n + 1, c :: cs => dropBytes (n + 1 - c.utf8Size) cs

/-! ### Responses -/

variable (resp : ResponsesResponse)

/-- `responseStatusString`: what is not a JSON string leaves the status empty. -/
def ResponsesResponse.statusString : String :=
  match resp.status with
  | .string status => trimSpace status
  | _ => ""

/-- `ResponsesFinishReasonFromStatus`. -/
def responsesFinishReasonFromStatus (resp : Option ResponsesResponse) : Option String :=
  resp.bind fun resp =>
    if resp.statusString ≠ "incomplete" then none
    else if trimSpace (resp.incompleteDetails.getD "") = "content_filter" then some "content_filter"
    else some "length"

/-- `ensureIncompleteResponse`. -/
def ensureIncompleteResponse (resp : Option ResponsesResponse) : ResponsesResponse :=
  let resp := resp.getD {}
  if resp.status = .absent then { resp with status := .string "incomplete" } else resp

variable (out : ResponsesOutput)

/-- The `output_text` parts of an item. -/
def ResponsesOutput.outputText : String :=
  String.join (out.content.map fun c => if c.type = "output_text" then c.text else "")

/-- All text parts of an item. -/
def ResponsesOutput.allText : String := String.join (out.content.map (·.text))

/-- `ExtractOutputTextFromResponses`. -/
def extractOutputText : String :=
  let messages := resp.output.filter fun out => out.type = .message ∧ (out.role = "" ∨ out.role = "assistant")
  let text := String.join (messages.map (·.outputText))
  if text ≠ "" then text else String.join (resp.output.map (·.allText))

/-- `ExtractReasoningTextFromResponses`. -/
def extractReasoningText : String :=
  String.join ((resp.output.filter (·.type = .reasoning)).map (·.allText))

/-- The tool call of an item; items of other types and without a name have none. -/
def ResponsesOutput.toolCall? : Option ToolCallResponse :=
  if out.type.isTool ∧ trimSpace out.name ≠ "" then
    some
      { id := if trimSpace out.callId = "" then trimSpace out.id else trimSpace out.callId
        name := trimSpace out.name
        arguments := out.argumentsString }
  else none

/-- `ResponsesResponseToChatCompletionsResponse`. -/
def responsesResponseToChat (id : String) : ChatResponse :=
  let reasoning := extractReasoningText resp
  let toolCalls := resp.output.filterMap ResponsesOutput.toolCall?
  { id := id
    model := resp.model
    content := extractOutputText resp
    reasoningContent := if reasoning ≠ "" then some reasoning else none
    toolCalls := toolCalls
    finishReason := (responsesFinishReasonFromStatus (some resp)).getD
      (if toolCalls ≠ [] then "tool_calls" else "stop") }

/-! ### Events -/

variable (e : ResponsesEvent)

/-- `responseStreamEventItemID`. -/
def ResponsesEvent.eventItemId : String :=
  match e.item with
  | some item => if trimSpace item.id ≠ "" then trimSpace item.id else trimSpace e.itemId
  | none => trimSpace e.itemId

/-- `keyForEvent`. -/
def keyForEvent : Option ToolKey :=
  match e.outputIndex, e.item with
  | some i, _ => some (.output i)
  | none, some item =>
    if trimSpace item.id ≠ "" then some (.item (trimSpace item.id))
    else if trimSpace item.callId ≠ "" then some (.call (trimSpace item.callId))
    else if trimSpace e.itemId ≠ "" then some (.item (trimSpace e.itemId))
    else none
  | none, none => if trimSpace e.itemId ≠ "" then some (.item (trimSpace e.itemId)) else none

/-- `fallbackToolKey`. -/
def fallbackToolKey (itemId callId : String) (outputIndex : Option Int) : Option ToolKey :=
  match outputIndex with
  | some i => some (.output i)
  | none =>
    if trimSpace itemId ≠ "" then some (.item (trimSpace itemId))
    else if trimSpace callId ≠ "" then some (.call (trimSpace callId))
    else none

/-- `fallbackCallID`. -/
def fallbackCallId : String :=
  if trimSpace e.itemId ≠ "" then trimSpace e.itemId
  else match e.outputIndex with
    | some i => "call_output_" ++ toString i
    | none => ""

namespace ResponsesToChatState

/-! ### Chunks -/

variable (s : ResponsesToChatState)

/-- `applyResponseMetadata`. -/
def applyResponseMetadata (response : Option ResponsesResponse) : ResponsesToChatState :=
  match response with
  | none => s
  | some response =>
    { s with
      id := if response.id ≠ "" ∧ s.id = "" then response.id else s.id
      model := if response.model ≠ "" then response.model else s.model
      created := if response.createdAt ≠ 0 then response.createdAt else s.created }

/-- `makeChunk`. -/
def makeChunk (delta : ChoiceDelta) (finishReason : Option String) : ChatChunk where
  id := s.id
  created := s.created
  model := s.model
  choices := [{ delta := delta, finishReason := finishReason }]

/-- `ensureStart`. -/
def ensureStart : ResponsesToChatState × List ChatChunk :=
  if s.sentStart then (s, [])
  else
    ({ s with sentStart := true }, [s.makeChunk { role := "assistant", content := some "" } none])

/-- `textDelta`. -/
def textDelta (delta : String) : ResponsesToChatState × List ChatChunk :=
  if delta = "" then (s, [])
  else
    let r := { s with hasSentText := true }.ensureStart
    (r.1, r.2 ++ [r.1.makeChunk { content := some delta } none])

/-- The blank line between two parts of the reasoning. -/
def withSummaryBreak (delta : String) : String :=
  if startsWith delta "\n\n" then delta
  else if startsWith delta "\n" then "\n" ++ delta
  else "\n\n" ++ delta

/-- `reasoningDelta`. -/
def reasoningDelta (delta : String) : ResponsesToChatState × List ChatChunk :=
  if delta = "" then (s, [])
  else
    let delta := if s.needsReasoningSummaryBreak then withSummaryBreak delta else delta
    let r := { s with needsReasoningSummaryBreak := false }.ensureStart
    ({ r.1 with hasSentReasoning := true },
      r.2 ++ [r.1.makeChunk { reasoningContent := some delta } none])

/-- Change the tool with an index. -/
def modifyTool (n : Nat) (f : StreamTool → StreamTool) : ResponsesToChatState :=
  { s with tools := s.tools.modify n f }

end ResponsesToChatState

/-- The arguments that have not been sent. -/
def StreamTool.unsent (tool : StreamTool) : String :=
  if tool.argsSentAt < tool.arguments.utf8ByteSize then
    String.ofList (dropBytes tool.argsSentAt tool.arguments.toList)
  else ""

/-- The id a tool call goes by. -/
def StreamTool.chatId (tool : StreamTool) : String :=
  if trimSpace tool.callId = "" then tool.key.text else trimSpace tool.callId

namespace ResponsesToChatState

variable (s : ResponsesToChatState)

variable (n : Nat)

/-- `toolDelta`. -/
def toolDelta (explicitDelta : String) : ResponsesToChatState × List ChatChunk :=
  match s.tools[n]? with
  | none => (s, [])
  | some tool =>
    let argsDelta := if explicitDelta = "" then tool.unsent else explicitDelta
    if tool.sent ∧ argsDelta = "" ∧ (tool.name = "" ∨ tool.nameSent) then (s, [])
    else
      let r := s.ensureStart
      let responseTool : ToolCallResponse :=
        { index := some n
          id := tool.chatId
          name := if tool.nameSent then "" else tool.name
          arguments := argsDelta }
      ({ r.1.modifyTool n fun tool =>
            { tool with
              nameSent := tool.nameSent || tool.name ≠ ""
              sent := true
              argsSentAt := tool.argsSentAt + argsDelta.utf8ByteSize } with
          sawToolCall := true },
        r.2 ++ [r.1.makeChunk { toolCalls := [responseTool] } none])

/-! ### Finding tools -/

variable (e : ResponsesEvent)

/-- A tool known under the item's id or the call id. -/
def aliasedTool? (item : ResponsesOutput) : Option Nat :=
  (if e.eventItemId ≠ "" then (s.itemIdToKey.lookup e.eventItemId).bind (s.toolByKey.lookup ·) else none).or
    (if trimSpace item.callId ≠ "" then
      (s.callIdToKey.lookup (trimSpace item.callId)).bind (s.toolByKey.lookup ·)
    else none)

variable (key : ToolKey)

/-- The tool of a key: the one it leads to, one known otherwise, or a new one. -/
def toolForKey (known : Option Nat) (new : StreamTool) : ResponsesToChatState × Nat :=
  match s.toolByKey.lookup key with
  | some n => (s, n)
  | none =>
    match known with
    | some n => ({ s with toolByKey := s.toolByKey.insert key n }, n)
    | none =>
      ({ s with tools := s.tools ++ [new], toolByKey := s.toolByKey.insert key s.tools.length },
        s.tools.length)

/-- Note the output index; arguments that waited for it go to the tool. -/
def noteOutputIndex (outputIndex : Option Int) : ResponsesToChatState :=
  match outputIndex with
  | none => s
  | some i =>
    let s := { s with outputIndexToKey := s.outputIndexToKey.insert i key }
    let pending := (s.pendingArgsByOutputIndex.lookup i).getD ""
    if pending ≠ "" then
      { s.modifyTool n fun tool => { tool with arguments := tool.arguments ++ pending } with
        pendingArgsByOutputIndex := s.pendingArgsByOutputIndex.erase i }
    else s

/-- Note the item's id; arguments that waited for it go to the tool. -/
def noteItemId (itemId : String) : ResponsesToChatState :=
  if itemId = "" then s
  else
    let s := { s.modifyTool n fun tool => { tool with itemId := itemId } with
      itemIdToKey := s.itemIdToKey.insert itemId key }
    let pending := (s.pendingArgsByItemId.lookup itemId).getD ""
    if pending ≠ "" then
      { s.modifyTool n fun tool => { tool with arguments := tool.arguments ++ pending } with
        pendingArgsByItemId := s.pendingArgsByItemId.erase itemId }
    else s

/-- Note the call id; without one a tool goes by the item's id. -/
def noteCallId (item : ResponsesOutput) : ResponsesToChatState :=
  if trimSpace item.callId ≠ "" then
    { s.modifyTool n fun tool => { tool with callId := trimSpace item.callId } with
      callIdToKey := s.callIdToKey.insert (trimSpace item.callId) key }
  else
    s.modifyTool n fun tool =>
      { tool with callId := if tool.callId = "" then trimSpace item.id else tool.callId }

/-- Note the name. -/
def noteName (item : ResponsesOutput) : ResponsesToChatState :=
  if trimSpace item.name ≠ "" then s.modifyTool n fun tool => { tool with name := trimSpace item.name } else s

/-- `ensureToolForEvent`. -/
def ensureToolForEvent : Option (ResponsesToChatState × Nat) :=
  e.item.bind fun item =>
    ((keyForEvent e).or (fallbackToolKey item.id item.callId e.outputIndex)).map fun key =>
      let r := s.toolForKey key (s.aliasedTool? e item) { key := key }
      let s := r.1.noteOutputIndex r.2 key e.outputIndex
      let s := s.noteItemId r.2 key e.eventItemId
      let s := s.noteCallId r.2 key item
      (s.noteName r.2 item, r.2)

/-- `findToolForEvent`. -/
def findToolForEvent : Option Nat :=
  match e.outputIndex.bind (s.outputIndexToKey.lookup ·) with
  | some key => s.toolByKey.lookup key
  | none =>
    match if trimSpace e.itemId ≠ "" then s.itemIdToKey.lookup (trimSpace e.itemId) else none with
    | some key => s.toolByKey.lookup key
    | none => e.item.bind fun _ => (keyForEvent e).bind (s.toolByKey.lookup ·)

/-- `ensureFallbackToolForEvent`. -/
def ensureFallbackToolForEvent : Option (ResponsesToChatState × Nat) :=
  let key? : Option ToolKey :=
    match e.outputIndex with
    | some i => some (.output i)
    | none => if trimSpace e.itemId ≠ "" then some (.item (trimSpace e.itemId)) else none
  key?.map fun key =>
    let r := s.toolForKey key none { key := key, callId := fallbackCallId e }
    let s := r.1.noteOutputIndex r.2 key e.outputIndex
    (s.noteItemId r.2 key e.eventItemId, r.2)

/-! ### Tool events -/

/-- `toolItem`. -/
def toolItem : ResponsesToChatState × List ChatChunk :=
  match s.ensureToolForEvent e, e.item with
  | some r, some item =>
    let s :=
      if item.argumentsString ≠ "" then
        r.1.modifyTool r.2 fun tool => { tool with arguments := item.argumentsString }
      else r.1
    s.toolDelta r.2 ""
  | _, _ => (s, [])

/-- `toolArgumentsDelta`. -/
def toolArgumentsDelta : ResponsesToChatState × List ChatChunk :=
  if e.delta = "" then (s, [])
  else
    match s.findToolForEvent e with
    | some n =>
      (s.modifyTool n fun tool => { tool with arguments := tool.arguments ++ e.delta }).toolDelta n e.delta
    | none =>
      match e.outputIndex with
      | some i =>
        ({ s with
            pendingArgsByOutputIndex := s.pendingArgsByOutputIndex.insert i
              ((s.pendingArgsByOutputIndex.lookup i).getD "" ++ e.delta) }, [])
      | none =>
        if trimSpace e.itemId ≠ "" then
          ({ s with
              pendingArgsByItemId := s.pendingArgsByItemId.insert (trimSpace e.itemId)
                ((s.pendingArgsByItemId.lookup (trimSpace e.itemId)).getD "" ++ e.delta) }, [])
        else (s, [])

/-- `flushPendingTool`. -/
def flushPendingTool : ResponsesToChatState × List ChatChunk :=
  match ((s.findToolForEvent e).map fun n => (s, n)).or (s.ensureFallbackToolForEvent e) with
  | some r => r.1.toolDelta r.2 ""
  | none => (s, [])

/-! ### The end -/

/-- One item of the terminal event's output. -/
def terminalOutputItem (out : ResponsesOutput) : ResponsesToChatState × List ChatChunk :=
  if out.type = .message ∧ ¬ s.hasSentText then s.textDelta out.outputText
  else if out.type = .reasoning ∧ ¬ s.hasSentReasoning then s.reasoningDelta out.allText
  else if out.type.isTool then s.toolItem { type := .other "", item := some out }
  else (s, [])

variable (response : Option ResponsesResponse)

/-- `terminalOutputChunks`. -/
def terminalOutputChunks : ResponsesToChatState × List ChatChunk :=
  run terminalOutputItem s ((response.map (·.output)).getD [])

/-- The keys that `flushAllPendingTools` goes through. -/
def pendingKeys : List ToolKey :=
  let known := s.toolByKey.keys
  let byIndex := (s.pendingArgsByOutputIndex.keys.map ToolKey.output).filter (· ∉ known)
  let byItem := (s.pendingArgsByItemId.keys.map ToolKey.item).filter (· ∉ known)
  (known ++ byIndex ++ byItem).insertionSort fun a b => a.text ≤ b.text

/-- The arguments that still wait for a key go to its tool. -/
def takePending : ResponsesToChatState :=
  match key with
  | .output i =>
    { s.modifyTool n fun tool =>
        { tool with arguments := tool.arguments ++ (s.pendingArgsByOutputIndex.lookup i).getD "" } with
      pendingArgsByOutputIndex := s.pendingArgsByOutputIndex.erase i }
  | .item itemId =>
    { s.modifyTool n fun tool =>
        { tool with arguments := tool.arguments ++ (s.pendingArgsByItemId.lookup itemId).getD "" } with
      pendingArgsByItemId := s.pendingArgsByItemId.erase itemId }
  | .call _ => s

/-- One turn of the loop of `flushAllPendingTools`. -/
def flushKey : ResponsesToChatState × List ChatChunk :=
  let callId := match key with
    | .output i => "call_output_" ++ toString i
    | .item itemId => itemId
    | .call _ => key.text
  let r := s.toolForKey key none { key := key, callId := callId }
  (r.1.takePending r.2 key).toolDelta r.2 ""

/-- `flushAllPendingTools`. -/
def flushAllPendingTools : ResponsesToChatState × List ChatChunk :=
  run flushKey s s.pendingKeys

/-- `finalize`. -/
def finalize : ResponsesToChatState × List ChatChunk :=
  if s.finalized then (s, [])
  else
    let r := { s with finalized := true }.flushAllPendingTools
    let r' := r.1.ensureStart
    let finishReason := (responsesFinishReasonFromStatus response).getD
      (if r'.1.sawToolCall then "tool_calls" else "stop")
    (r'.1, r.2 ++ r'.2 ++ [r'.1.makeChunk {} (some finishReason)])

/-- The terminal event. -/
def terminate : ResponsesToChatState × List ChatChunk :=
  let r := (s.applyResponseMetadata response).terminalOutputChunks response
  let r' := r.1.finalize response
  (r'.1, r.2 ++ r'.2)

/-- The events that the converter has chunks for. -/
def convert : ResponsesToChatState × List ChatChunk :=
  match e.type with
  | .created => (s.applyResponseMetadata e.response).ensureStart
  | .reasoningSummaryDelta | .reasoningTextDelta => s.reasoningDelta e.delta
  | .reasoningSummaryDone | .reasoningTextDone =>
    ({ s with needsReasoningSummaryBreak := s.needsReasoningSummaryBreak || s.hasSentReasoning }, [])
  | .outputTextDelta => s.textDelta e.delta
  | .outputItemAdded | .outputItemDone =>
    if e.item.any (·.type.isTool) then s.toolItem e else (s, [])
  | .functionArgsDelta | .customToolInputDelta => s.toolArgumentsDelta e
  | .functionArgsDone | .customToolInputDone => s.flushPendingTool e
  | .completed | .done => s.terminate e.response
  | .incomplete => s.terminate (some (ensureIncompleteResponse e.response))
  | _ => (s, [])

end ResponsesToChatState

/-- `ResponsesStreamEventToChatChunks`. -/
def responsesStreamEventToChatChunks (s : ResponsesToChatState) (e : ResponsesEvent) :
    Except String (ResponsesToChatState × List ChatChunk) :=
  match e.type with
  | .failed => .error "responses stream error: response.failed"
  | .error => .error "responses stream error: response.error"
  | _ => .ok (s.convert e)

/-- The chunks for a whole stream of events, up to the first error. -/
def responsesStreamToChat (s : ResponsesToChatState) : List ResponsesEvent → Except String (List ChatChunk)
  | [] => .ok []
  | e :: es => do
    let r ← responsesStreamEventToChatChunks s e
    let chunks ← responsesStreamToChat r.1 es
    return r.2 ++ chunks

end MicrossApi
