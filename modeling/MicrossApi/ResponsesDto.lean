/-
MicrossApi/ResponsesDto.lean

Responses, their output items and the events of a Responses stream
(relaykit/dto/openai_response.go).

A `json.RawMessage` is absent, a JSON string, or some other JSON text; that the
encoding of strings loses nothing is built into the second case.
-/
import MicrossApi.Dto

namespace MicrossApi

/-- A `json.RawMessage`. -/
inductive RawMessage where
  | absent
  | string (value : String)
  | other (text : String)
deriving DecidableEq, Repr

/-- `JsonRawMessageToString`. -/
def RawMessage.toText : RawMessage → String
  | .absent => ""
  | .string value => value
  | .other text => if trimSpace text = "null" then "" else trimSpace text

/-- The types of output items. -/
inductive OutputType where
  | message
  | reasoning
  | functionCall
  | customToolCall
  | other (type : String)
deriving DecidableEq, Repr

/-- `isResponsesToolOutputType`. -/
def OutputType.isTool : OutputType → Bool
  | .functionCall | .customToolCall => true
  | _ => false

/-- `ResponsesOutputContent`. -/
structure OutputContent where
  type : String
  text : String
deriving DecidableEq, Repr

/-- `ResponsesOutput`. -/
structure ResponsesOutput where
  type : OutputType
  id : String := ""
  status : String := ""
  role : String := ""
  content : List OutputContent := []
  callId : String := ""
  name : String := ""
  arguments : RawMessage := .absent
deriving DecidableEq, Repr

/-- `ArgumentsString`. -/
def ResponsesOutput.argumentsString (out : ResponsesOutput) : String := out.arguments.toText

/-- `OpenAIResponsesResponse`; of the incomplete details, the reason. -/
structure ResponsesResponse where
  id : String := ""
  createdAt : Int := 0
  status : RawMessage := .absent
  incompleteDetails : Option String := none
  model : String := ""
  output : List ResponsesOutput := []
deriving DecidableEq, Repr

/-- The types of events. -/
inductive EventType where
  | created
  | completed
  | done
  | incomplete
  | failed
  | error
  | outputTextDelta
  | outputTextDone
  | outputItemAdded
  | outputItemDone
  | functionArgsDelta
  | functionArgsDone
  | customToolInputDelta
  | customToolInputDone
  | reasoningSummaryDelta
  | reasoningSummaryDone
  | reasoningTextDelta
  | reasoningTextDone
  | other (type : String)
deriving DecidableEq, Repr

/-- `ResponsesStreamResponse`; of a summary part, the text. -/
structure ResponsesEvent where
  type : EventType
  response : Option ResponsesResponse := none
  delta : String := ""
  item : Option ResponsesOutput := none
  outputIndex : Option Int := none
  contentIndex : Option Int := none
  summaryIndex : Option Int := none
  itemId : String := ""
  part : Option String := none
deriving DecidableEq, Repr

end MicrossApi
