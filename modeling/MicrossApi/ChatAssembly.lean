/-
MicrossApi/ChatAssembly.lean

What a client makes of a stream of chat completion chunks: it puts the text and
the reasoning together, keeps a roster of the tool calls by their index, with the
first id and the first name it is told and all arguments, and notes the finish
reasons.
-/
import MicrossApi.Dto
import MicrossApi.Roster

namespace MicrossApi

open Roster

/-- A tool call put together. -/
structure AssembledTool where
  index : Int
  id : String
  name : String
  arguments : String
deriving DecidableEq, Repr

/-- What a client has put together. -/
structure Assembly where
  text : String := ""
  reasoning : String := ""
  tools : List AssembledTool := []
  finishReasons : List String := []
deriving DecidableEq, Repr

/-- The first delta of a tool call. -/
def ToolCallResponse.assembled (c : ToolCallResponse) : AssembledTool :=
  ⟨c.index.getD 0, c.id, c.name, c.arguments⟩

/-- A later delta of a tool call. -/
def AssembledTool.merge (t : AssembledTool) (c : ToolCallResponse) : AssembledTool where
  index := t.index
  id := if t.id = "" then c.id else t.id
  name := if t.name = "" then c.name else t.name
  arguments := t.arguments ++ c.arguments

/-- A delta goes to the tool call with its index. -/
def addToolCall (tools : List AssembledTool) (c : ToolCallResponse) : List AssembledTool :=
  upsert AssembledTool.index tools (c.index.getD 0) c.assembled (·.merge c)

namespace Assembly

variable (a : Assembly)

/-- One choice of a chunk. -/
def addChoice (choice : StreamChoice) : Assembly where
  text := a.text ++ choice.delta.getContentString
  reasoning := a.reasoning ++ choice.delta.getReasoningContent
  tools := choice.delta.toolCalls.foldl addToolCall a.tools
  finishReasons := a.finishReasons ++ choice.finishReason.toList

/-- Some choices. -/
def addChoices (choices : List StreamChoice) : Assembly := choices.foldl addChoice a

/-- Some chunks. -/
def add (chunks : List ChatChunk) : Assembly := a.addChoices (chunks.flatMap (·.choices))

theorem add_append (xs ys : List ChatChunk) : a.add (xs ++ ys) = (a.add xs).add ys := by
  rw [add, List.flatMap_append]
  exact List.foldl_append

theorem add_cons (chunk : ChatChunk) (chunks : List ChatChunk) :
    a.add (chunk :: chunks) = (a.add [chunk]).add chunks :=
  add_append a [chunk] chunks

end Assembly

/-- What a client makes of the chunks. -/
def assemble (chunks : List ChatChunk) : Assembly := Assembly.add {} chunks

end MicrossApi
