/-
MicrossApi/ChatToResponsesForm.lean

The form of the Responses stream that chat completion chunks are turned into:
`response.created`, whole items numbered 0, 1, 2, …, and a last event whose
response lists the items with what their deltas add up to.

The numbering and the contents are right in every run.  What can go wrong is that
an item is added to after a finish reason has closed it, and that it goes by
another id than the one it was announced with: a tool because a later delta
brings another id, the message and the reasoning item because the response got
its id after they had started.  `responsesFormed_iff` says that nothing else can.
-/
import MicrossApi.ChatToResponses

namespace MicrossApi

open List Transducer NumberedBlocks StepSystem

/-! ### The form of a stream -/

/-- The kind and the id of an item. -/
abbrev ItemName := OutputType × String

/-- What the event says about an item, if it is about an item. -/
def ResponsesEvent.blockEvent? (e : ResponsesEvent) : Option (BlockEvent ItemName ItemName) :=
  match e.type, e.outputIndex with
  | .outputItemAdded, some i => e.item.map fun item => .start i (item.type, item.id)
  | .outputItemDone, some i => e.item.map fun item => .stop i (item.type, item.id)
  | .outputTextDelta, some i | .outputTextDone, some i => some (.delta i (.message, e.itemId))
  | .reasoningSummaryDelta, some i | .reasoningSummaryDone, some i =>
    some (.delta i (.reasoning, e.itemId))
  | .functionArgsDelta, some i | .functionArgsDone, some i => some (.delta i (.functionCall, e.itemId))
  | _, _ => none

/-- The deltas for an output index put together. -/
def deltaText (i : Int) (events : List ResponsesEvent) : String :=
  String.join (events.map fun e => if e.outputIndex = some i then e.delta else "")

/-- The text or the arguments of an item. -/
def ResponsesOutput.payload (out : ResponsesOutput) : String :=
  if out.type.isTool then out.argumentsString else String.join (out.content.map (·.text))

/-- A whole Responses stream, for chunks or for none. -/
def ResponsesFormed (chunks : List ChatChunk) (events : List ResponsesEvent) : Prop :=
  ∃ (created body : List ResponsesEvent) (last : ResponsesEvent) (r : ResponsesResponse)
    (blocks : List (BlockEvent ItemName ItemName)),
    events = created ++ body ++ [last] ∧
      (if chunks = [] then created = [] else ∃ e, created = [e] ∧ e.type = .created) ∧
      body.map ResponsesEvent.blockEvent? = blocks.map some ∧ WellFormed Eq blocks ∧
      (last.type = .completed ∨ last.type = .incomplete) ∧ last.response = some r ∧
      r.output.map (fun out => (out.type, out.id)) = (kinds blocks).map Prod.snd ∧
      ∀ (k : Nat) (out : ResponsesOutput), r.output[k]? = some out → out.payload = deltaText k body

/-! ### Items in a state -/

/-- The type of an item. -/
def OutputRef.type : OutputRef → OutputType
  | .message => .message
  | .reasoning => .reasoning
  | .tool _ => .functionCall

namespace ChatToResponsesState

variable (s : ChatToResponsesState)

/-- The id an item goes by. -/
def idOf : OutputRef → String
  | .message => s.messageId
  | .reasoning => s.reasoningId
  | .tool j => ((s.tool? j).map (·.id)).getD ""

/-- Whether an item has been closed. -/
def doneOf : OutputRef → Bool
  | .message => s.textDone
  | .reasoning => s.reasoningDone
  | .tool j => ((s.tool? j).map (·.done)).getD false

/-- What the item has so far. -/
def contentOf : OutputRef → String
  | .message => s.text
  | .reasoning => s.reasoning
  | .tool j => ((s.tool? j).map (·.arguments)).getD ""

/-- The output index is the place in the order of items, and what has not
started is empty and open. -/
structure Coherent : Prop where
  next : s.nextOutputIndex = s.outputOrder.length
  nodup : s.outputOrder.Nodup
  text : if s.textStarted then ∃ n : Nat, s.textOutputIndex = n ∧ s.outputOrder[n]? = some .message
    else OutputRef.message ∉ s.outputOrder ∧ s.textDone = false ∧ s.text = ""
  reasoning : if s.reasoningStarted then
      ∃ n : Nat, s.reasoningIndex = n ∧ s.outputOrder[n]? = some .reasoning
    else OutputRef.reasoning ∉ s.outputOrder ∧ s.reasoningDone = false ∧ s.reasoning = ""
  tools : ∀ t ∈ s.toolsByIndex, s.outputOrder[t.outputIndex]? = some (.tool t.chatIndex)
  toolsNodup : (s.toolsByIndex.map (·.chatIndex)).Nodup
  toolsOf : ∀ j, OutputRef.tool j ∈ s.outputOrder → (s.tool? j).isSome

end ChatToResponsesState

/-! ### Moves -/

/-- What happens in a stream, one thing after the other: a chunk comes, or its
choices ask for something. -/
inductive ChatMove where
  | chunk (chunk : ChatChunk)
  | act (action : ChatAction)

/-- The moves of a chunk. -/
def ChatChunk.moves (chunk : ChatChunk) : List ChatMove :=
  .chunk chunk :: (chunk.choices.flatMap StreamChoice.actions).map .act

open ChatToResponsesState

variable (s : ChatToResponsesState) {s' : ChatToResponsesState} {e : ResponsesEvent} {n : Nat}
  {d : String} {ref : OutputRef} {tool t : ChatTool}

/-- One move. -/
def ChatToResponsesState.move : ChatMove → ChatToResponsesState × List ResponsesEvent
  | .chunk chunk => ({ s.identify chunk with sentCreated := true }, (s.identify chunk).createdEvents)
  | .act action => s.act action

/-- The ids that items were announced with. -/
abbrev Announced := OutputRef → String

/-- One move with the ids announced so far: a new item is announced with the id
it goes by. -/
def announce (st : ChatToResponsesState × Announced) (m : ChatMove) : ChatToResponsesState × Announced :=
  ((st.1.move m).1, fun ref =>
    if ref ∈ (st.1.move m).1.outputOrder ∧ ref ∉ st.1.outputOrder then (st.1.move m).1.idOf ref
    else st.2 ref)

/-- A move that the stream survives.  Text, reasoning and arguments are for an
item that has not been closed and goes by the id it was announced with; and what
a finish reason closes goes by that id. -/
def Steady (st : ChatToResponsesState × Announced) : ChatMove → Prop
  | .chunk _ => True
  | .act (.reasoning _) =>
    st.1.reasoningStarted → st.1.reasoningDone = false ∧ st.1.reasoningId = st.2 .reasoning
  | .act (.text _) => st.1.textStarted → st.1.textDone = false ∧ st.1.messageId = st.2 .message
  | .act (.tool c) => c.arguments ≠ "" → ∀ t ∈ st.1.tool? (c.index.getD 0),
      t.done = false ∧ (t.update c).id = st.2 (.tool (c.index.getD 0))
  | .act (.finish _) => ∀ ref ∈ st.1.outputOrder, st.1.doneOf ref = false → st.1.idOf ref = st.2 ref

instance Steady.decidable (st m) : Decidable (Steady st m) := by
  unfold Steady
  split <;> infer_instance

/-! ### Tools in a state -/

section Tools

variable {s : ChatToResponsesState} {t tool : ChatTool} {j : Int}

theorem chatIndex_of_tool? (h : s.tool? j = some t) : t.chatIndex = j := by
  simpa using find?_some h

theorem mem_of_tool? (h : s.tool? j = some t) : t ∈ s.toolsByIndex := mem_of_find?_eq_some h

theorem ChatToResponsesState.Coherent.tool?_eq (hc : s.Coherent) (ht : t ∈ s.toolsByIndex) :
    s.tool? t.chatIndex = some t := by
  rcases hx : s.tool? t.chatIndex with - | x
  · have := find?_eq_none.mp hx t ht
    simp at this
  · have hinj := inj_on_of_nodup_map hc.toolsNodup (mem_of_tool? hx) ht (chatIndex_of_tool? hx)
    rw [hinj]

theorem idOf_tool (h : s.tool? j = some t) : s.idOf (.tool j) = t.id := by
  rw [idOf, h]
  rfl

theorem doneOf_tool (h : s.tool? j = some t) : s.doneOf (.tool j) = t.done := by
  rw [doneOf, h]
  rfl

theorem contentOf_tool (h : s.tool? j = some t) : s.contentOf (.tool j) = t.arguments := by
  rw [contentOf, h]
  rfl

theorem tool_missing (h : s.tool? j = none) : s.doneOf (.tool j) = false ∧ s.contentOf (.tool j) = "" := by
  rw [doneOf, contentOf, h]
  exact ⟨rfl, rfl⟩

theorem tool_congr (h : s'.tool? j = s.tool? j) :
    s'.doneOf (.tool j) = s.doneOf (.tool j) ∧ s'.contentOf (.tool j) = s.contentOf (.tool j) := by
  rw [doneOf, contentOf, h]
  exact ⟨rfl, rfl⟩

theorem tool?_setTool (s : ChatToResponsesState) (tool : ChatTool) (j : Int) :
    (s.setTool tool).tool? j = if j = tool.chatIndex then (s.tool? j).map fun _ => tool else s.tool? j := by
  unfold ChatToResponsesState.setTool ChatToResponsesState.tool?
  dsimp only
  induction s.toolsByIndex with
  | nil => simp
  | cons t tools ih =>
    rw [map_cons, find?_cons, find?_cons, ih]
    by_cases hj : j = tool.chatIndex
    · subst hj
      by_cases ht : t.chatIndex = tool.chatIndex <;> simp [ht]
    by_cases ht : t.chatIndex = tool.chatIndex
    · simp [ht, Ne.symm hj]
    · simp [ht, hj]

variable (s t j) (c : ToolCallResponse)

@[simp] theorem chatIndex_update : (t.update c).chatIndex = t.chatIndex := by
  rw [ChatTool.update]

@[simp] theorem outputIndex_update : (t.update c).outputIndex = t.outputIndex := by
  rw [ChatTool.update]

@[simp] theorem done_update : (t.update c).done = t.done := by
  rw [ChatTool.update]

@[simp] theorem arguments_update : (t.update c).arguments = t.arguments ++ c.arguments := by
  rw [ChatTool.update]

@[simp] theorem newTool_fields : (s.newTool j c).chatIndex = j ∧
    (s.newTool j c).outputIndex = s.nextOutputIndex ∧
      (s.newTool j c).arguments = "" ∧ (s.newTool j c).done = false := by
  simp only [newTool, and_self]

/-- The first delta of a tool does not change the id it was announced with. -/
theorem id_update_newTool : ((s.newTool j c).update c).id = (s.newTool j c).id := by
  simp only [ChatTool.update, newTool]
  split_ifs <;> simp_all

end Tools

/-! ### What a delta does -/

variable (k : Int)

@[simp] theorem deltaText_nil : deltaText k [] = "" := rfl

theorem deltaText_append (es es' : List ResponsesEvent) :
    deltaText k (es ++ es') = deltaText k es ++ deltaText k es' := by
  simp only [deltaText, map_append, String.join_append]

theorem deltaText_cons (e : ResponsesEvent) (es : List ResponsesEvent) :
    deltaText k (e :: es) = (if e.outputIndex = some k then e.delta else "") ++ deltaText k es := by
  simp only [deltaText, map_cons, String.join_cons]

theorem deltaText_cons_of_empty {k : Int} {es : List ResponsesEvent} (h : e.delta = "") :
    deltaText k (e :: es) = deltaText k es := by
  rw [deltaText_cons, h, ite_self, String.empty_append]

theorem deltaText_singleton (h : e.outputIndex = some (n : Int)) (k : Nat) :
    deltaText k [e] = if k = n then e.delta else "" := by
  rw [deltaText_cons, h, deltaText_nil]
  by_cases hk : k = n
  · simp [hk]
  · simp [hk, Ne.symm hk]

theorem coherent_new (id model : String) (now : Int) : (newChatToResponsesState id model now).Coherent := by
  refine ⟨rfl, nodup_nil, ?_, ?_, ?_, nodup_nil, ?_⟩
  · exact ⟨not_mem_nil, rfl, rfl⟩
  · exact ⟨not_mem_nil, rfl, rfl⟩
  · exact fun t ht => absurd ht not_mem_nil
  · exact fun j hj => absurd hj not_mem_nil

/-- A delta for an item: the item is announced if it is new, and the delta, if
there is one, goes to its place. -/
structure Delivered (s s' : ChatToResponsesState) (ref : OutputRef) (d : String) (n : Nat)
    (events : List ResponsesEvent) : Prop where
  coherent : s'.Coherent
  sentCreated : s'.sentCreated = s.sentCreated
  order : s'.outputOrder = if ref ∈ s.outputOrder then s.outputOrder else s.outputOrder ++ [ref]
  place : s'.outputOrder[n]? = some ref
  fresh : ref ∉ s.outputOrder → s.doneOf ref = false ∧ s.contentOf ref = ""
  done : s'.doneOf ref = s.doneOf ref
  content : s'.contentOf ref = s.contentOf ref ++ d
  others : ∀ r ≠ ref, s'.doneOf r = s.doneOf r ∧ s'.contentOf r = s.contentOf r
  views : events.map ResponsesEvent.blockEvent? =
    (if ref ∈ s.outputOrder then [] else [some (.start n (ref.type, s'.idOf ref))]) ++
      if d = "" then [] else [some (.delta n (ref.type, s'.idOf ref))]
  deltas : ∀ k : Nat, deltaText k events = if k = n then d else ""

section Deliveries

variable {s : ChatToResponsesState}

theorem getElem?_append_of_some {α : Type*} {l : List α} {x : α} (y : α)
    (h : l[n]? = some x) : (l ++ [y])[n]? = some x := by
  obtain ⟨hn, -⟩ := List.getElem?_eq_some_iff.mp h
  rw [getElem?_append_left hn, h]

/-- An item that has its place if it has started, and is empty and open if not. -/
def InPlace (order : List OutputRef) (ref : OutputRef) (started done : Bool) (index : Int)
    (text : String) : Prop :=
  if started then ∃ n : Nat, index = n ∧ order[n]? = some ref else ref ∉ order ∧ done = false ∧ text = ""

section InPlace

variable {order : List OutputRef} {ref : OutputRef} {started done : Bool} {index : Int} {text : String}
  (h : InPlace order ref started done index text)

include h

theorem InPlace.mem_iff : ref ∈ order ↔ started = true := by
  unfold InPlace at h
  split_ifs at h with hs
  · obtain ⟨n, -, hn⟩ := h
    exact iff_of_true (mem_of_getElem? hn) hs
  · exact iff_of_false h.1 hs

theorem InPlace.index_eq (hnodup : order.Nodup) (hs : started = true) : index = order.idxOf ref := by
  unfold InPlace at h
  rw [if_pos hs] at h
  obtain ⟨n, hn, hplace⟩ := h
  obtain ⟨hlt, rfl⟩ := List.getElem?_eq_some_iff.mp hplace
  rw [hn, hnodup.idxOf_getElem n hlt]

/-- It stays so when another item starts. -/
theorem InPlace.concat {ref' : OutputRef} (hne : ref ≠ ref') :
    InPlace (order ++ [ref']) ref started done index text := by
  unfold InPlace at h ⊢
  split_ifs at h ⊢
  · obtain ⟨n, hn, hplace⟩ := h
    exact ⟨n, hn, getElem?_append_of_some _ hplace⟩
  · refine ⟨?_, h.2⟩
    rw [mem_append, mem_singleton, not_or]
    exact ⟨h.1, hne⟩

/-- It stays so when what has started is closed. -/
theorem InPlace.close : InPlace order ref started (done || started) index text := by
  unfold InPlace at h ⊢
  split_ifs at h ⊢ with hs
  · exact h
  · exact ⟨h.1, by simp [h.2.1, hs], h.2.2⟩

end InPlace

theorem mem_iff_textStarted (hc : s.Coherent) : OutputRef.message ∈ s.outputOrder ↔ s.textStarted = true :=
  InPlace.mem_iff hc.text

theorem mem_iff_reasoningStarted (hc : s.Coherent) :
    OutputRef.reasoning ∈ s.outputOrder ↔ s.reasoningStarted = true :=
  InPlace.mem_iff hc.reasoning

theorem mem_iff_tool? (hc : s.Coherent) (j : Int) :
    OutputRef.tool j ∈ s.outputOrder ↔ (s.tool? j).isSome = true := by
  constructor
  · exact hc.toolsOf j
  · intro h
    obtain ⟨t, ht⟩ := Option.isSome_iff_exists.mp h
    have hplace := hc.tools t (mem_of_tool? ht)
    rw [chatIndex_of_tool? ht] at hplace
    exact mem_of_getElem? hplace

theorem place_new (order : List OutputRef) (ref : OutputRef) :
    (order ++ [ref])[order.length]? = some ref := by
  rw [getElem?_append_right (le_refl _), Nat.sub_self]
  rfl

theorem next_new (hc : s.Coherent) (ref : OutputRef) :
    s.nextOutputIndex + 1 = (s.outputOrder ++ [ref]).length := by
  rw [hc.next, length_append]
  rfl

theorem nodup_new {order : List OutputRef} (h : order.Nodup) (hr : ref ∉ order) :
    (order ++ [ref]).Nodup := by
  rw [← concat_eq_append]
  exact h.concat hr

theorem delivered_text (hc : s.Coherent) (hd : d ≠ "") :
    ∃ n, Delivered s (s.appendTextDelta d).1 .message d n (s.appendTextDelta d).2 := by
  have hmem := mem_iff_textStarted hc
  have hown := hc.text
  rcases hs : s.textStarted with - | -
  · -- a message that is new
    rw [hs] at hown
    have hnot : OutputRef.message ∉ s.outputOrder := hown.1
    simp only [appendTextDelta, hs]
    refine ⟨s.outputOrder.length, ?_, rfl, (if_neg hnot).symm, place_new _ _, fun _ => hown.2, rfl, rfl,
      ?_, ?_, ?_⟩
    · refine ⟨next_new hc _, nodup_new hc.nodup hnot, ?_, ?_, ?_, hc.toolsNodup, ?_⟩
      · exact ⟨s.outputOrder.length, congrArg _ hc.next, place_new _ _⟩
      · exact InPlace.concat hc.reasoning (by simp)
      · exact fun t ht => getElem?_append_of_some _ (hc.tools t ht)
      · intro j hj
        exact hc.toolsOf j (by simpa using hj)
    · rintro (- | - | j) hr
      · exact absurd rfl hr
      · exact ⟨rfl, rfl⟩
      · exact ⟨rfl, rfl⟩
    · rw [if_neg hnot, if_neg hd, ← hc.next]
      rfl
    · intro k
      exact (deltaText_cons_of_empty rfl).trans (deltaText_singleton (congrArg some (congrArg _ hc.next)) k)
  · -- a message that has started
    rw [hs] at hmem hown
    obtain ⟨n, hn, hplace⟩ := hown
    have hin : OutputRef.message ∈ s.outputOrder := hmem.mpr rfl
    simp only [appendTextDelta, hs, if_true]
    refine ⟨n, ?_, rfl, (if_pos hin).symm, hplace, fun h => absurd hin h, rfl, rfl, ?_, ?_, ?_⟩
    · exact { hc with text := ⟨n, hn, hplace⟩ }
    · rintro (- | - | j) hr
      · exact absurd rfl hr
      · exact ⟨rfl, rfl⟩
      · exact ⟨rfl, rfl⟩
    · rw [if_pos hin, if_neg hd, hn]
      rfl
    · exact fun k => deltaText_singleton (congrArg some hn) k

theorem delivered_reasoning (hc : s.Coherent) (hd : d ≠ "") :
    ∃ n, Delivered s (s.appendReasoningDelta d).1 .reasoning d n (s.appendReasoningDelta d).2 := by
  have hmem := mem_iff_reasoningStarted hc
  have hown := hc.reasoning
  rcases hs : s.reasoningStarted with - | -
  · -- a reasoning item that is new
    rw [hs] at hown
    have hnot : OutputRef.reasoning ∉ s.outputOrder := hown.1
    simp only [appendReasoningDelta, hs]
    refine ⟨s.outputOrder.length, ?_, rfl, (if_neg hnot).symm, place_new _ _, fun _ => hown.2, rfl, rfl,
      ?_, ?_, ?_⟩
    · refine ⟨next_new hc _, nodup_new hc.nodup hnot, ?_, ?_, ?_, hc.toolsNodup, ?_⟩
      · exact InPlace.concat hc.text (by simp)
      · exact ⟨s.outputOrder.length, congrArg _ hc.next, place_new _ _⟩
      · exact fun t ht => getElem?_append_of_some _ (hc.tools t ht)
      · intro j hj
        exact hc.toolsOf j (by simpa using hj)
    · rintro (- | - | j) hr
      · exact ⟨rfl, rfl⟩
      · exact absurd rfl hr
      · exact ⟨rfl, rfl⟩
    · rw [if_neg hnot, if_neg hd, ← hc.next]
      rfl
    · intro k
      exact (deltaText_cons_of_empty rfl).trans (deltaText_singleton (congrArg some (congrArg _ hc.next)) k)
  · -- a reasoning item that has started
    rw [hs] at hmem hown
    obtain ⟨n, hn, hplace⟩ := hown
    have hin : OutputRef.reasoning ∈ s.outputOrder := hmem.mpr rfl
    simp only [appendReasoningDelta, hs, if_true]
    refine ⟨n, ?_, rfl, (if_pos hin).symm, hplace, fun h => absurd hin h, rfl, rfl, ?_, ?_, ?_⟩
    · exact { hc with reasoning := ⟨n, hn, hplace⟩ }
    · rintro (- | - | j) hr
      · exact ⟨rfl, rfl⟩
      · exact absurd rfl hr
      · exact ⟨rfl, rfl⟩
    · rw [if_pos hin, if_neg hd, hn]
      rfl
    · exact fun k => deltaText_singleton (congrArg some hn) k

theorem views_argumentsDelta (t : ChatTool) (d : String) : (t.argumentsDelta d).map ResponsesEvent.blockEvent?
      = if d = "" then [] else [some (.delta t.outputIndex (.functionCall, t.id))] := by
  unfold ChatTool.argumentsDelta
  by_cases hd : d = ""
  · simp [hd]
  · rw [if_pos hd, if_neg hd]
    rfl

theorem deltas_argumentsDelta (t : ChatTool) (d : String) (k : Nat) :
    deltaText k (t.argumentsDelta d) = if k = t.outputIndex then d else "" := by
  unfold ChatTool.argumentsDelta
  by_cases hd : d = ""
  · simp [hd]
  · rw [if_pos hd, deltaText_singleton rfl]

theorem map_chatIndex_setTool (s : ChatToResponsesState) (tool : ChatTool) :
    (s.setTool tool).toolsByIndex.map (·.chatIndex) = s.toolsByIndex.map (·.chatIndex) := by
  show (s.toolsByIndex.map _).map _ = _
  rw [map_map]
  apply map_congr_left
  intro t _
  by_cases h : t.chatIndex = tool.chatIndex <;> simp [h]

/-- Tools are written back in their own place. -/
theorem coherent_setTool (hc : s.Coherent) (ht : t ∈ s.toolsByIndex)
    (hindex : tool.chatIndex = t.chatIndex) (hout : tool.outputIndex = t.outputIndex) :
    (s.setTool tool).Coherent := by
  refine ⟨hc.next, hc.nodup, hc.text, hc.reasoning, ?_, ?_, ?_⟩
  · intro x hx
    obtain ⟨y, hy, rfl⟩ := mem_map.mp hx
    split_ifs with h
    · rw [hindex, hout]
      exact hc.tools t ht
    · exact hc.tools y hy
  · rw [map_chatIndex_setTool]
    exact hc.toolsNodup
  · intro j hj
    rw [tool?_setTool]
    have := hc.toolsOf j hj
    split_ifs <;> simpa using this

/-- The tools after one was added. -/
theorem tool?_concat (tools : List ChatTool) (tool : ChatTool) (j : Int) :
    (tools ++ [tool]).find? (·.chatIndex = j)
      = (tools.find? (·.chatIndex = j)).or (if tool.chatIndex = j then some tool else none) := by
  by_cases h : tool.chatIndex = j <;> simp

/-- The state with one more tool. -/
def ChatToResponsesState.addTool (s : ChatToResponsesState) (tool : ChatTool) : ChatToResponsesState :=
  { s with
    nextOutputIndex := s.nextOutputIndex + 1
    outputOrder := s.outputOrder ++ [.tool tool.chatIndex]
    toolsByIndex := s.toolsByIndex ++ [tool] }

theorem coherent_addTool (hc : s.Coherent) (hs : s.tool? tool.chatIndex = none)
    (hout : tool.outputIndex = s.nextOutputIndex) : (s.addTool tool).Coherent := by
  have hnot : OutputRef.tool tool.chatIndex ∉ s.outputOrder := by simp [mem_iff_tool? hc, hs]
  refine ⟨next_new hc _, nodup_new hc.nodup hnot, InPlace.concat hc.text (by simp),
    InPlace.concat hc.reasoning (by simp), ?_, ?_, ?_⟩
  · intro t ht
    rcases mem_append.mp ht with ht | ht
    · exact getElem?_append_of_some _ (hc.tools t ht)
    · rw [mem_singleton.mp ht, hout, hc.next]
      exact place_new _ _
  · show ((s.toolsByIndex ++ [tool]).map (·.chatIndex)).Nodup
    rw [map_append, map_singleton, ← concat_eq_append]
    refine hc.toolsNodup.concat fun h => ?_
    obtain ⟨x, hx, heq⟩ := mem_map.mp h
    simpa [heq] using find?_eq_none.mp hs x hx
  · intro j hj
    show ((s.toolsByIndex ++ [tool]).find? (·.chatIndex = j)).isSome
    rw [tool?_concat, Option.isSome_or]
    rcases mem_append.mp hj with hj | hj
    · rw [Bool.or_eq_true]
      exact .inl (hc.toolsOf j hj)
    · have : tool.chatIndex = j := by simpa [eq_comm] using hj
      simp [this]

theorem delivered_addTool (hc : s.Coherent) {first : ChatTool} (hs : s.tool? tool.chatIndex = none)
    (hfirst : first.outputIndex = s.nextOutputIndex) (hout : tool.outputIndex = s.nextOutputIndex)
    (hid : tool.id = first.id) (hdone : tool.done = false) : Delivered s (s.addTool tool)
      (.tool tool.chatIndex) tool.arguments s.outputOrder.length
      (first.added :: tool.argumentsDelta tool.arguments) := by
  have hnot : OutputRef.tool tool.chatIndex ∉ s.outputOrder := by simp [mem_iff_tool? hc, hs]
  have hfind : ∀ j, (s.addTool tool).tool? j
      = (s.tool? j).or (if tool.chatIndex = j then some tool else none) :=
    tool?_concat s.toolsByIndex tool
  have hown : (s.addTool tool).tool? tool.chatIndex = some tool := by
    rw [hfind, hs, if_pos rfl]
    rfl
  refine ⟨coherent_addTool hc hs hout, rfl, (if_neg hnot).symm, place_new _ _, fun _ => tool_missing hs,
    ?_, ?_, ?_, ?_, ?_⟩
  · rw [doneOf_tool hown, (tool_missing hs).1, hdone]
  · rw [contentOf_tool hown, (tool_missing hs).2, String.empty_append]
  · rintro (- | - | j) hr
    · exact ⟨rfl, rfl⟩
    · exact ⟨rfl, rfl⟩
    · have hj : tool.chatIndex ≠ j := fun h => hr (by rw [h])
      refine tool_congr ?_
      rw [hfind, if_neg hj, Option.or_none]
  · rw [map_cons, views_argumentsDelta, if_neg hnot, idOf_tool hown, hid, hout, ← hc.next, ← hfirst]
    rfl
  · intro k
    rw [deltaText_cons_of_empty rfl, deltas_argumentsDelta, hout, hc.next]

theorem delivered_setTool (hc : s.Coherent)
    (hs : s.tool? tool.chatIndex = some t) (hout : tool.outputIndex = t.outputIndex)
    (hdone : tool.done = t.done) (harguments : tool.arguments = t.arguments ++ d) :
    Delivered s (s.setTool tool) (.tool tool.chatIndex) d t.outputIndex (tool.argumentsDelta d) := by
  have ht := mem_of_tool? hs
  have hj := chatIndex_of_tool? hs
  have hin : OutputRef.tool tool.chatIndex ∈ s.outputOrder := by simp [mem_iff_tool? hc, hs]
  have hown : (s.setTool tool).tool? tool.chatIndex = some tool := by
    rw [tool?_setTool, if_pos rfl, hs]
    rfl
  have hplace := hc.tools t ht
  rw [hj] at hplace
  refine ⟨coherent_setTool hc ht hj.symm hout, rfl, (if_pos hin).symm, hplace, fun h => absurd hin h,
    ?_, ?_, ?_, ?_, ?_⟩
  · rw [doneOf_tool hown, doneOf_tool hs, hdone]
  · rw [contentOf_tool hown, contentOf_tool hs, harguments]
  · rintro (- | - | j) hr
    · exact ⟨rfl, rfl⟩
    · exact ⟨rfl, rfl⟩
    · have hj' : j ≠ tool.chatIndex := fun h => hr (by rw [h])
      refine tool_congr ?_
      rw [tool?_setTool, if_neg hj']
  · rw [views_argumentsDelta, if_pos hin, idOf_tool hown, hout]
    rfl
  · exact fun k => hout ▸ deltas_argumentsDelta ..

theorem delivered_tool (hc : s.Coherent) (c : ToolCallResponse) :
    ∃ n, Delivered s (s.appendToolCallDelta c).1 (.tool (c.index.getD 0)) c.arguments n
      (s.appendToolCallDelta c).2 := by
  rcases hs : s.tool? (c.index.getD 0) with - | t
  · -- the first delta makes the tool from what it brings itself
    obtain ⟨hindex, hout, hargs, hdone⟩ := newTool_fields s (c.index.getD 0) c
    have hindex' : ((s.newTool (c.index.getD 0) c).update c).chatIndex = c.index.getD 0 := by
      rw [chatIndex_update, hindex]
    have hnone : s.tool? ((s.newTool (c.index.getD 0) c).update c).chatIndex = none := by rw [hindex', hs]
    have h := delivered_addTool hc hnone hout
      (by rw [outputIndex_update, hout]) (id_update_newTool s _ c) (by rw [done_update, hdone])
    simp only [appendToolCallDelta, hs]
    exact ⟨_, h⟩
  · have hindex : (t.update c).chatIndex = c.index.getD 0 := by
      rw [chatIndex_update, chatIndex_of_tool? hs]
    have h := delivered_setTool hc (hindex.symm ▸ hs) (outputIndex_update t c) (done_update t c)
      (arguments_update t c)
    rw [hindex] at h
    simp only [appendToolCallDelta, hs]
    exact ⟨_, h⟩

end Deliveries

/-! ### What the watchman remembers -/

/-- What is open, under the names that were announced. -/
def itemTrack (st : ChatToResponsesState × Announced) : Track ItemName :=
  st.1.outputOrder.map fun ref => ((ref.type, st.2 ref), !st.1.doneOf ref)

/-- The watchman sees events of a Responses stream. -/
abbrev seeEvents (t : Track ItemName) (events : List ResponsesEvent) : Option (Track ItemName) :=
  seeAll Eq ResponsesEvent.blockEvent? t events

/-- The ids announced once the items of `s'` have been. -/
def announceNew (s s' : ChatToResponsesState) (an : Announced) : Announced := fun ref =>
  if ref ∈ s'.outputOrder ∧ ref ∉ s.outputOrder then s'.idOf ref else an ref

variable (st : ChatToResponsesState × Announced)

theorem announce_eq (m : ChatMove) :
    announce st m = ((st.1.move m).1, announceNew st.1 (st.1.move m).1 st.2) := rfl

theorem announceNew_of_eq {s : ChatToResponsesState} (h : s'.outputOrder = s.outputOrder)
    (an : Announced) : announceNew s s' an = an := by
  funext ref
  unfold announceNew
  rw [h, if_neg (by tauto)]

section Watch

variable {s s' : ChatToResponsesState} {ref : OutputRef} {d : String} {n : Nat}
  {events : List ResponsesEvent}

/-- A new item gets the next place. -/
theorem Delivered.place_eq (h : Delivered s s' ref d n events) (hin : ref ∉ s.outputOrder) :
    n = s.outputOrder.length := by
  have hplace := h.place
  have hnodup := h.coherent.nodup
  rw [h.order, if_neg hin] at hplace hnodup
  have hlt := (List.getElem?_eq_some_iff.mp hplace).1
  exact (getElem?_inj hlt hnodup).mp (hplace.trans (place_new _ _).symm)

/-- A delta passes unless it is for an item that is closed or goes by another name. -/
theorem Delivered.see (h : Delivered s s' ref d n events) (an : Announced) :
    seeEvents (itemTrack (s, an)) events =
      if ref ∈ s.outputOrder → d ≠ "" → s.doneOf ref = false ∧ s'.idOf ref = an ref then
        some (itemTrack (s', announceNew s s' an))
      else none := by
  have hdone : ∀ r, s'.doneOf r = s.doneOf r := by
    intro r
    rcases eq_or_ne r ref with rfl | hne
    · exact h.done
    · exact (h.others r hne).1
  rw [seeEvents, seeAll_eq_map, h.views]
  by_cases hin : ref ∈ s.outputOrder
  · have horder : s'.outputOrder = s.outputOrder := h.order.trans (if_pos hin)
    have htrack : itemTrack (s', announceNew s s' an) = itemTrack (s, an) := by
      rw [announceNew_of_eq horder]
      simp only [itemTrack, horder, hdone]
    rw [if_pos hin, htrack]
    by_cases hd : d = ""
    · simp [hd]
    have hplace := h.place
    rw [horder] at hplace
    rw [if_neg hd]
    show (watch Eq (itemTrack (s, an)) (.delta n (ref.type, s'.idOf ref))).bind _ = _
    rw [itemTrack, watch_delta_key _ hplace]
    simp only [hin, hd, ne_eq, not_false_eq_true, true_imp_iff, Bool.not_eq_true', Prod.mk.injEq, true_and,
      eq_comm (a := an ref)]
    split_ifs <;> rfl
  · have horder : s'.outputOrder = s.outputOrder ++ [ref] := h.order.trans (if_neg hin)
    have htrack : itemTrack (s', announceNew s s' an)
        = (s.outputOrder ++ [ref]).map (Function.update
            (fun r => ((r.type, an r), !s.doneOf r)) ref ((ref.type, s'.idOf ref), true)) := by
      rw [itemTrack, horder]
      apply map_congr_left
      intro r hr
      rcases eq_or_ne r ref with rfl | hne
      · rw [hdone, (h.fresh hin).1]
        simp [announceNew, horder, hin]
      have hold : r ∈ s.outputOrder := by simpa [hne] using hr
      rw [Function.update_of_ne hne, hdone]
      simp [announceNew, hold]
    rw [if_neg hin, htrack, if_pos fun h' => absurd h' hin, cons_append, nil_append]
    show (watch Eq (itemTrack (s, an)) (.start n (ref.type, s'.idOf ref))).bind _ = _
    rw [itemTrack, h.place_eq hin, watch_start_key _ hin]
    by_cases hd : d = ""
    · rw [if_pos hd]
      rfl
    rw [if_neg hd]
    show (watch Eq _ (.delta s.outputOrder.length (ref.type, s'.idOf ref))).bind _ = _
    rw [watch_delta_key _ (place_new _ _), Function.update_self, if_pos ⟨rfl, rfl⟩]
    rfl

end Watch

/-! ### Contents -/

/-- What the item in a place has so far. -/
def ChatToResponsesState.contentAt (k : Nat) : String :=
  (s.outputOrder[k]?.map s.contentOf).getD ""

variable {events : List ResponsesEvent}

theorem Delivered.contentAt {s : ChatToResponsesState} (h : Delivered s s' ref d n events) (k : Nat) :
    s'.contentAt k = s.contentAt k ++ deltaText k events := by
  have hnodup := h.coherent.nodup
  rw [h.deltas k]
  unfold ChatToResponsesState.contentAt
  by_cases hk : k = n
  · -- the item's own place: it was there, or it is new
    subst hk
    rw [h.place, Option.map_some, h.content, if_pos rfl]
    by_cases hin : ref ∈ s.outputOrder
    · have horder : s'.outputOrder = s.outputOrder := h.order.trans (if_pos hin)
      rw [← horder, h.place]
      rfl
    have horder : s'.outputOrder = s.outputOrder ++ [ref] := h.order.trans (if_neg hin)
    have hnone : s.outputOrder[k]? = none := by
      rw [Option.eq_none_iff_forall_ne_some]
      intro r hr
      have hr' := getElem?_append_of_some ref hr
      rw [← horder, h.place] at hr'
      exact hin (Option.some.inj hr' ▸ mem_of_getElem? hr)
    rw [hnone, (h.fresh hin).2]
    rfl
  · rw [if_neg hk, String.append_empty]
    have hplace : s'.outputOrder[k]? = s.outputOrder[k]? := by
      rw [h.order]
      split_ifs with hin
      · rfl
      have hn := h.place_eq hin
      rcases lt_or_ge k s.outputOrder.length with hlt | hge
      · rw [getElem?_append_left hlt]
      · rw [getElem?_eq_none hge, getElem?_eq_none (by simp; omega)]
    rw [hplace]
    rcases hr : s.outputOrder[k]? with - | r
    · rfl
    have hne : r ≠ ref := by
      rintro rfl
      have hlt := (List.getElem?_eq_some_iff.mp h.place).1
      exact hk ((getElem?_inj hlt hnodup).mp (h.place.trans (hplace.trans hr).symm)).symm
    rw [Option.map_some, Option.map_some, (h.others r hne).2]

/-! ### Closing -/

/-- The items that are open, as they are closed. -/
def ChatToResponsesState.openRefs : List OutputRef :=
  (if s.textStarted ∧ ¬ s.textDone then [.message] else []) ++
    (if s.reasoningStarted ∧ ¬ s.reasoningDone then [.reasoning] else []) ++
    (s.sortedTools.filter fun tool => !tool.done).map fun tool => .tool tool.chatIndex

section Closing

variable {s : ChatToResponsesState}

theorem mem_sortedTools : t ∈ s.sortedTools ↔ t ∈ s.toolsByIndex :=
  (perm_insertionSort _ _).mem_iff

theorem mem_openRefs (hc : s.Coherent) (ref : OutputRef) :
    ref ∈ s.openRefs ↔ ref ∈ s.outputOrder ∧ s.doneOf ref = false := by
  cases ref with
  | message =>
    rw [mem_iff_textStarted hc]
    simp [openRefs, doneOf]
  | reasoning =>
    rw [mem_iff_reasoningStarted hc]
    simp [openRefs, doneOf]
  | tool j =>
    have hopen : OutputRef.tool j ∈ s.openRefs
        ↔ ∃ t ∈ s.toolsByIndex, t.done = false ∧ t.chatIndex = j := by
      simp [openRefs, mem_sortedTools, and_assoc]
    rw [hopen, mem_iff_tool? hc]
    constructor
    · rintro ⟨t, ht, hdone, rfl⟩
      have htool := hc.tool?_eq ht
      rw [doneOf_tool htool, htool]
      exact ⟨rfl, hdone⟩
    · rintro ⟨hsome, hdone⟩
      obtain ⟨t, ht⟩ := Option.isSome_iff_exists.mp hsome
      rw [doneOf_tool ht] at hdone
      exact ⟨t, mem_of_tool? ht, hdone, chatIndex_of_tool? ht⟩

theorem nodup_openRefs (hc : s.Coherent) : s.openRefs.Nodup := by
  have htools : ((s.sortedTools.filter fun tool => !tool.done).map fun tool =>
      OutputRef.tool tool.chatIndex).Nodup := by
    have hsorted : (s.sortedTools.map (·.chatIndex)).Nodup :=
      ((perm_insertionSort _ _).map _).nodup_iff.mpr hc.toolsNodup
    have hfilter := hsorted.sublist (filter_sublist (p := fun tool : ChatTool => !tool.done).map _)
    have hmap := hfilter.map (f := OutputRef.tool) fun a b h => OutputRef.tool.inj h
    rwa [map_map] at hmap
  rw [openRefs, nodup_append]
  refine ⟨?_, htools, ?_⟩
  · split_ifs <;> simp
  · intro a ha b hb
    obtain ⟨t, -, rfl⟩ := mem_map.mp hb
    rintro rfl
    revert ha
    split_ifs <;> simp

theorem idxOf_eq (hc : s.Coherent) (h : s.outputOrder[n]? = some ref) :
    s.outputOrder.idxOf ref = n := by
  obtain ⟨hn, rfl⟩ := List.getElem?_eq_some_iff.mp h
  exact hc.nodup.idxOf_getElem n hn

theorem views_doneDeltaEvents (hc : s.Coherent) : s.doneDeltaEvents.2.map ResponsesEvent.blockEvent?
      = closings (fun ref => s.outputOrder.idxOf ref) (fun ref => (ref.type, s.idOf ref)) s.openRefs := by
  have htext : s.textDoneEvents.map ResponsesEvent.blockEvent? =
      closings (fun ref => s.outputOrder.idxOf ref) (fun ref => (ref.type, s.idOf ref))
        (if s.textStarted ∧ ¬ s.textDone then [OutputRef.message] else []) := by
    unfold textDoneEvents
    split_ifs with h
    · rw [InPlace.index_eq hc.text hc.nodup h.1]
      rfl
    · rfl
  have hreasoning : s.reasoningDoneEvents.map ResponsesEvent.blockEvent? =
      closings (fun ref => s.outputOrder.idxOf ref) (fun ref => (ref.type, s.idOf ref))
        (if s.reasoningStarted ∧ ¬ s.reasoningDone then [OutputRef.reasoning] else []) := by
    unfold reasoningDoneEvents
    split_ifs with h
    · rw [InPlace.index_eq hc.reasoning hc.nodup h.1]
      rfl
    · rfl
  have htools : ((s.sortedTools.filter fun tool => !tool.done).flatMap
        (·.doneEvents s.outputStatus)).map ResponsesEvent.blockEvent? =
      closings (fun ref => s.outputOrder.idxOf ref) (fun ref => (ref.type, s.idOf ref))
        ((s.sortedTools.filter fun tool => !tool.done).map fun tool => .tool tool.chatIndex) := by
    rw [map_flatMap, closings, flatMap_map]
    apply flatMap_congr
    intro t ht
    have hmem := mem_sortedTools.mp (mem_filter.mp ht).1
    rw [idOf_tool (hc.tool?_eq hmem), idxOf_eq hc (hc.tools t hmem)]
    rfl
  show (s.textDoneEvents ++ s.reasoningDoneEvents ++ _).map _ = _
  rw [map_append, map_append, htext, hreasoning, htools, openRefs]
  simp only [closings, flatMap_append]

/-- The events that close items bring no deltas and are no errors. -/
theorem of_mem_doneDeltaEvents (he : e ∈ s.doneDeltaEvents.2) :
    e.delta = "" ∧ e.type ≠ .failed ∧ e.type ≠ .error := by
  rcases mem_append.mp he with he | he
  · rcases mem_append.mp he with he | he
    · unfold textDoneEvents at he
      split_ifs at he <;> simp at he
      rcases he with rfl | rfl <;> simp
    · unfold reasoningDoneEvents at he
      split_ifs at he <;> simp at he
      rcases he with rfl | rfl <;> simp
  · obtain ⟨t, -, ht⟩ := mem_flatMap.mp he
    simp only [ChatTool.doneEvents, mem_cons, not_mem_nil, or_false] at ht
    rcases ht with rfl | rfl <;> simp

variable (s)

theorem deltaText_doneDeltaEvents : deltaText k s.doneDeltaEvents.2 = "" := by
  have hempty : ∀ events : List ResponsesEvent, (∀ e ∈ events, e.delta = "") → deltaText k events = "" := by
    intro events h
    induction events with
    | nil => rfl
    | cons e events ih =>
      rw [deltaText_cons_of_empty (h e (by simp))]
      exact ih fun e he => h e (by simp [he])
  exact hempty _ fun e he => (of_mem_doneDeltaEvents he).1

theorem tool?_doneDeltaEvents (j : Int) :
    s.doneDeltaEvents.1.tool? j = (s.tool? j).map fun tool => { tool with done := true } :=
  find?_map

theorem idOf_doneDeltaEvents (ref : OutputRef) : s.doneDeltaEvents.1.idOf ref = s.idOf ref := by
  rcases ref with - | - | j
  · rfl
  · rfl
  · rw [idOf, tool?_doneDeltaEvents, Option.map_map]
    rfl

theorem contentOf_doneDeltaEvents (ref : OutputRef) :
    s.doneDeltaEvents.1.contentOf ref = s.contentOf ref := by
  rcases ref with - | - | j
  · rfl
  · rfl
  · rw [contentOf, tool?_doneDeltaEvents, Option.map_map]
    rfl

theorem contentAt_doneDeltaEvents (k : Nat) : s.doneDeltaEvents.1.contentAt k = s.contentAt k := by
  show (s.outputOrder[k]?.map s.doneDeltaEvents.1.contentOf).getD "" = _
  rw [funext (contentOf_doneDeltaEvents s)]
  rfl

variable {s}

theorem coherent_doneDeltaEvents (hc : s.Coherent) : s.doneDeltaEvents.1.Coherent := by
  refine ⟨hc.next, hc.nodup, InPlace.close hc.text, InPlace.close hc.reasoning, ?_, ?_, ?_⟩
  · intro t ht
    obtain ⟨x, hx, rfl⟩ := mem_map.mp ht
    exact hc.tools x hx
  · show ((s.toolsByIndex.map _).map _).Nodup
    rw [map_map]
    exact hc.toolsNodup
  · intro j hj
    rw [tool?_doneDeltaEvents, Option.isSome_map]
    exact hc.toolsOf j hj

/-- Whatever has started is closed. -/
theorem doneOf_doneDeltaEvents (hc : s.Coherent) (h : ref ∈ s.outputOrder) :
    s.doneDeltaEvents.1.doneOf ref = true := by
  rcases ref with - | - | j
  · show (s.textDone || s.textStarted) = true
    rw [(mem_iff_textStarted hc).mp h, Bool.or_true]
  · show (s.reasoningDone || s.reasoningStarted) = true
    rw [(mem_iff_reasoningStarted hc).mp h, Bool.or_true]
  · obtain ⟨t, ht⟩ := Option.isSome_iff_exists.mp (hc.toolsOf j h)
    rw [doneOf, tool?_doneDeltaEvents, ht]
    rfl

/-- Closing passes when what is open goes by the names that were announced. -/
theorem see_doneDeltaEvents (hc : s.Coherent) (an : Announced) (t : Track ItemName) :
    seeEvents (itemTrack (s, an)) s.doneDeltaEvents.2 = some t ↔
      (∀ ref ∈ s.outputOrder, s.doneOf ref = false → s.idOf ref = an ref) ∧
        t = itemTrack (s.doneDeltaEvents.1, an) := by
  have hplace : ∀ ref ∈ s.openRefs, s.outputOrder[s.outputOrder.idxOf ref]? = some ref :=
    fun ref hr => getElem?_idxOf ((mem_openRefs hc ref).mp hr).1
  rw [seeEvents, seeAll_eq_map, views_doneDeltaEvents hc, itemTrack]
  by_cases hnames : ∀ ref ∈ s.outputOrder, s.doneOf ref = false → s.idOf ref = an ref
  · have htrack : (s.outputOrder.map fun ref => if ref ∈ s.openRefs then ((ref.type, an ref), false)
        else ((ref.type, an ref), !s.doneOf ref)) = itemTrack (s.doneDeltaEvents.1, an) := by
      apply map_congr_left
      intro ref hr
      rw [doneOf_doneDeltaEvents hc hr]
      split_ifs with hopen
      · rfl
      · have : s.doneOf ref = true := by simpa [mem_openRefs hc, hr] using hopen
        rw [this]
    rw [seeAll_closings hc.nodup (nodup_openRefs hc) hplace, htrack, Option.some.injEq, eq_comm]
    · exact (and_iff_right hnames).symm
    · intro ref hr
      rw [((mem_openRefs hc ref).mp hr).2]
      rfl
    · intro ref hr
      obtain ⟨hmem, hdone⟩ := (mem_openRefs hc ref).mp hr
      rw [hnames ref hmem hdone]
  · have hbad := hnames
    push Not at hbad
    obtain ⟨ref, hmem, hdone, hne⟩ := hbad
    rw [seeAll_closings_eq_none hc.nodup (nodup_openRefs hc) hplace ((mem_openRefs hc ref).mpr ⟨hmem, hdone⟩)
      (by simpa using Ne.symm hne)]
    simp [hnames]

end Closing

/-! ### Steps and runs -/

/-- Empty texts are not passed on. -/
def ChatMove.Proper : ChatMove → Prop
  | .act (.reasoning d) => d ≠ ""
  | .act (.text d) => d ≠ ""
  | _ => True

/-- What the actions of a choice say. -/
def StreamChoice.Says (choice : StreamChoice) : ChatAction → Prop
  | .reasoning d => d ≠ "" ∧ d = choice.delta.getReasoningContent
  | .text d => d ≠ "" ∧ d = choice.delta.getContentString
  | .tool c => c ∈ choice.delta.toolCalls
  | .finish reason => choice.finishReason = some reason ∧ trimSpace reason ≠ ""

theorem says_of_mem {choice : StreamChoice} {a : ChatAction} (h : a ∈ choice.actions) : choice.Says a := by
  simp only [StreamChoice.actions, mem_append, mem_map, Option.mem_toList,
    Option.map_eq_some_iff, mem_ite_nil_right, mem_singleton] at h
  rcases h with ((⟨hd, rfl⟩ | ⟨hd, rfl⟩) | ⟨c, hc, rfl⟩) | ⟨r, hr, rfl⟩
  · exact ⟨hd, rfl⟩
  · exact ⟨hd, rfl⟩
  · exact hc
  · simpa [StreamChoice.Says] using Option.filter_eq_some_iff.mp hr

variable {m : ChatMove}

theorem proper_of_mem_moves {chunk : ChatChunk} (h : m ∈ chunk.moves) : m.Proper := by
  rcases mem_cons.mp h with rfl | h
  · trivial
  obtain ⟨a, ha, rfl⟩ := mem_map.mp h
  obtain ⟨choice, -, ha⟩ := mem_flatMap.mp ha
  rcases a with d | d | c | reason
  · exact (says_of_mem ha).1
  · exact (says_of_mem ha).1
  · trivial
  · trivial

theorem applyFinishReason_eq (reason : String) :
    ∃ status details, s.applyFinishReason reason
      = { s with status := status, incompleteDetails := details } := by
  unfold applyFinishReason
  split_ifs <;> exact ⟨_, _, rfl⟩

section Moves

variable {s : ChatToResponsesState} {an : Announced}

theorem steady_text_iff (hc : s.Coherent) (hd : d ≠ "") : Steady (s, an) (.act (.text d)) ↔
      (OutputRef.message ∈ s.outputOrder → d ≠ "" →
        s.doneOf .message = false ∧ (s.appendTextDelta d).1.idOf .message = an .message) := by
  have hid : (s.appendTextDelta d).1.idOf .message = s.messageId := by
    rcases hs : s.textStarted with - | - <;> simp only [appendTextDelta, hs] <;> rfl
  rw [mem_iff_textStarted hc, hid]
  exact ⟨fun h hs _ => h hs, fun h hs => h hs hd⟩

theorem steady_reasoning_iff (hc : s.Coherent) (hd : d ≠ "") :
    Steady (s, an) (.act (.reasoning d)) ↔ (OutputRef.reasoning ∈ s.outputOrder → d ≠ "" →
        s.doneOf .reasoning = false ∧ (s.appendReasoningDelta d).1.idOf .reasoning = an .reasoning) := by
  have hid : (s.appendReasoningDelta d).1.idOf .reasoning = s.reasoningId := by
    rcases hs : s.reasoningStarted with - | - <;> simp only [appendReasoningDelta, hs] <;> rfl
  rw [mem_iff_reasoningStarted hc, hid]
  exact ⟨fun h hs _ => h hs, fun h hs => h hs hd⟩

theorem steady_tool_iff (hc : s.Coherent) (c : ToolCallResponse) : Steady (s, an) (.act (.tool c)) ↔
      (OutputRef.tool (c.index.getD 0) ∈ s.outputOrder → c.arguments ≠ "" →
        s.doneOf (.tool (c.index.getD 0)) = false ∧
          (s.appendToolCallDelta c).1.idOf (.tool (c.index.getD 0)) = an (.tool (c.index.getD 0))) := by
  rw [mem_iff_tool? hc]
  show (c.arguments ≠ "" → ∀ t ∈ s.tool? (c.index.getD 0), _) ↔ _
  rcases hs : s.tool? (c.index.getD 0) with - | t
  · simp
  have hid : (s.appendToolCallDelta c).1.idOf (.tool (c.index.getD 0)) = (t.update c).id := by
    simp only [appendToolCallDelta, hs]
    refine idOf_tool ?_
    rw [tool?_setTool, chatIndex_update, chatIndex_of_tool? hs, if_pos rfl, hs]
    rfl
  rw [hid, doneOf_tool hs]
  simp only [Option.mem_some_iff, forall_eq', Option.isSome_some, true_imp_iff]

/-- What a move does to a stream that has begun. -/
structure Moved (st : ChatToResponsesState × Announced) (m : ChatMove) : Prop where
  coherent : (st.1.move m).1.Coherent
  sentCreated : (st.1.move m).1.sentCreated = true
  contentAt : ∀ k : Nat, (st.1.move m).1.contentAt k = st.1.contentAt k ++ deltaText k (st.1.move m).2
  see : ∀ t, seeEvents (itemTrack st) (st.1.move m).2 = some t ↔ Steady st m ∧ t = itemTrack (announce st m)

theorem Delivered.moved (hmove : s.move m = (s', events))
    (h : Delivered s s' ref d n events) (hsent : s.sentCreated = true) (hsteady : Steady (s, an) m ↔
      (ref ∈ s.outputOrder → d ≠ "" → s.doneOf ref = false ∧ s'.idOf ref = an ref)) : Moved (s, an) m := by
  refine ⟨?_, ?_, ?_, ?_⟩
  · rw [hmove]
    exact h.coherent
  · rw [hmove]
    exact h.sentCreated.trans hsent
  · rw [hmove]
    exact h.contentAt
  · intro t
    rw [announce_eq, hmove, h.see an, hsteady]
    split_ifs with hcond
    · rw [Option.some.injEq, eq_comm]
      exact (and_iff_right hcond).symm
    · exact iff_of_false (by simp) fun h' => hcond h'.1

theorem moved (hc : s.Coherent) (hsent : s.sentCreated = true) (hm : m.Proper)
    (an : Announced) : Moved (s, an) m := by
  rcases m with chunk | (d | d | c | reason)
  · -- a chunk only brings what the response is called
    have hnone : (s.identify chunk).createdEvents = [] := if_pos hsent
    refine ⟨{ hc with }, rfl, ?_, ?_⟩
    · intro k
      show s.contentAt k = s.contentAt k ++ deltaText k (s.identify chunk).createdEvents
      rw [hnone, deltaText_nil, String.append_empty]
    · intro t
      show seeEvents (itemTrack (s, an)) (s.identify chunk).createdEvents = some t ↔ _
      have horder : (s.move (.chunk chunk)).1.outputOrder = s.outputOrder := rfl
      rw [hnone, seeEvents, seeAll_nil, announce_eq,
        announceNew_of_eq horder, Option.some.injEq, eq_comm]
      exact (and_iff_right trivial).symm
  · obtain ⟨n, h⟩ := delivered_reasoning hc hm
    exact h.moved rfl hsent (steady_reasoning_iff hc hm)
  · obtain ⟨n, h⟩ := delivered_text hc hm
    exact h.moved rfl hsent (steady_text_iff hc hm)
  · obtain ⟨n, h⟩ := delivered_tool hc c
    exact h.moved rfl hsent (steady_tool_iff hc c)
  · -- the status is not part of an item
    obtain ⟨status, details, heq⟩ := applyFinishReason_eq s reason
    have hmove : s.move (.act (.finish reason))
        = { s with status := status, incompleteDetails := details }.doneDeltaEvents := by
      rw [← heq]
      rfl
    set s₁ : ChatToResponsesState := { s with status := status, incompleteDetails := details }
    have hc₁ : s₁.Coherent := { hc with }
    refine ⟨?_, ?_, ?_, ?_⟩
    · rw [hmove]
      exact coherent_doneDeltaEvents hc₁
    · rw [hmove]
      exact hsent
    · intro k
      rw [hmove, deltaText_doneDeltaEvents, String.append_empty, contentAt_doneDeltaEvents]
      rfl
    · intro t
      have horder : s₁.doneDeltaEvents.1.outputOrder = s.outputOrder := rfl
      rw [announce_eq, hmove, announceNew_of_eq horder]
      exact see_doneDeltaEvents hc₁ an t

end Moves

section Runs

variable (s : ChatToResponsesState) {ms : List ChatMove}

theorem chunk_eq_moves (chunk : ChatChunk) :
    chatCompletionsStreamChunkToResponsesEvents s chunk = run move s chunk.moves := by
  have hacts : ∀ (s : ChatToResponsesState) (as : List ChatAction),
      run move s (as.map .act) = run act s as := by
    intro s as
    induction as generalizing s with
    | nil => rfl
    | cons a as ih =>
      rw [map_cons, run_cons, ih]
      rfl
  rw [ChatChunk.moves, run_cons, hacts]
  rfl

theorem chunks_eq_moves (chunks : List ChatChunk) : run chatCompletionsStreamChunkToResponsesEvents s chunks
      = run move s (chunks.flatMap ChatChunk.moves) :=
  run_flatMap chunk_eq_moves s chunks

theorem exec_announce_fst (ms : List ChatMove) :
    (exec announce st ms).1 = (run move st.1 ms).1 := by
  induction ms generalizing st with
  | nil => rfl
  | cons m ms ih => rw [exec_cons, ih, run_cons, announce_eq]

theorem coherent_run {s : ChatToResponsesState} (hc : s.Coherent) (hsent : s.sentCreated = true)
    (hms : ∀ m ∈ ms, m.Proper) : (run move s ms).1.Coherent ∧
      ∀ k : Nat, (run move s ms).1.contentAt k = s.contentAt k ++ deltaText k (run move s ms).2 := by
  induction ms generalizing s with
  | nil => exact ⟨hc, fun k => by rw [run_nil, deltaText_nil, String.append_empty]⟩
  | cons m ms ih =>
    obtain ⟨hm, hms⟩ := forall_mem_cons.mp hms
    have h := moved hc hsent hm fun _ => ""
    obtain ⟨hrun, hcontent⟩ := ih h.coherent h.sentCreated hms
    refine ⟨hrun, fun k => ?_⟩
    rw [run_cons, hcontent, h.contentAt, deltaText_append, String.append_assoc]

theorem see_run {st : ChatToResponsesState × Announced} (hc : st.1.Coherent)
    (hsent : st.1.sentCreated = true) (hms : ∀ m ∈ ms, m.Proper) (t : Track ItemName) :
    seeEvents (itemTrack st) (run move st.1 ms).2 = some t ↔
      Along announce Steady st ms ∧ t = itemTrack (exec announce st ms) := by
  induction ms generalizing st with
  | nil =>
    rw [run_nil, seeEvents, seeAll_nil, Option.some.injEq, eq_comm]
    exact (and_iff_right trivial).symm
  | cons m ms ih =>
    obtain ⟨hm, hms⟩ := forall_mem_cons.mp hms
    have h := moved hc hsent hm st.2
    rw [run_cons, seeEvents, seeAll_append_iff h.see, along_cons, and_assoc]
    exact and_congr_right' (@ih (announce st m) h.coherent h.sentCreated hms)

/-- What an action asks for, of what a chunk brings. -/
def ChatMove.action? : ChatMove → Option ChatAction
  | .chunk _ => none
  | .act action => some action

/-- The status of the response and the details after an action. -/
def ChatAction.statusAfter (status : String × Option String) : ChatAction → String × Option String
  | .finish reason =>
    if trimSpace reason = "length" then ("incomplete", some "max_output_tokens")
    else if trimSpace reason = "content_filter" then ("incomplete", some "content_filter")
    else ("completed", none)
  | _ => status

/-- Events that the second converter goes on after. -/
def Fine (events : List ResponsesEvent) : Prop := ∀ e ∈ events, e.type ≠ .failed ∧ e.type ≠ .error

theorem Fine.append {events' : List ResponsesEvent} (h : Fine events) (h' : Fine events') :
    Fine (events ++ events') :=
  forall_mem_append.mpr ⟨h, h'⟩

theorem fine_nil : Fine [] := fun _ h => absurd h not_mem_nil

theorem fine_argumentsDelta (t : ChatTool) (d : String) : Fine (t.argumentsDelta d) := by
  unfold ChatTool.argumentsDelta
  split_ifs
  · simp [Fine]
  · exact fine_nil

theorem fine_doneDeltaEvents : Fine s.doneDeltaEvents.2 := fun _ he => (of_mem_doneDeltaEvents he).2

/-- The status is the one that the actions lead to, the stream stays open, and no
event is an error. -/
structure Tells (actions : List ChatAction) (r : ChatToResponsesState × List ResponsesEvent) : Prop where
  status : (r.1.status, r.1.incompleteDetails)
    = actions.foldl ChatAction.statusAfter (s.status, s.incompleteDetails)
  finalized : r.1.finalized = s.finalized
  fine : Fine r.2

-- the trimmed finish reason is compared, never computed
attribute [local irreducible] trimSpace in
theorem tells_move (m : ChatMove) : Tells s m.action?.toList (s.move m) := by
  rcases m with chunk | (d | d | c | reason)
  · refine ⟨rfl, rfl, ?_⟩
    show Fine (s.identify chunk).createdEvents
    unfold createdEvents
    split_ifs
    · exact fine_nil
    · simp [Fine]
  · show Tells s [.reasoning d] (s.appendReasoningDelta d)
    rcases hs : s.reasoningStarted with - | - <;> simp only [appendReasoningDelta, hs] <;>
      exact ⟨rfl, rfl, by simp [Fine]⟩
  · show Tells s [.text d] (s.appendTextDelta d)
    rcases hs : s.textStarted with - | - <;> simp only [appendTextDelta, hs] <;>
      exact ⟨rfl, rfl, by simp [Fine]⟩
  · show Tells s [.tool c] (s.appendToolCallDelta c)
    rcases hs : s.tool? (c.index.getD 0) with - | t
    · simp only [appendToolCallDelta, hs]
      refine ⟨rfl, rfl, forall_mem_cons.mpr ⟨?_, fine_argumentsDelta _ _⟩⟩
      simp [ChatTool.added]
    · simp only [appendToolCallDelta, hs]
      exact ⟨rfl, rfl, fine_argumentsDelta _ _⟩
  · obtain ⟨status, details, heq⟩ := applyFinishReason_eq s reason
    refine ⟨?_, congrArg (·.finalized) heq, fine_doneDeltaEvents _⟩
    show ((s.applyFinishReason reason).status, (s.applyFinishReason reason).incompleteDetails)
      = ChatAction.statusAfter (s.status, s.incompleteDetails) (.finish reason)
    unfold applyFinishReason ChatAction.statusAfter
    dsimp only
    split_ifs <;> rfl

theorem tells_run (ms : List ChatMove) : Tells s (ms.filterMap ChatMove.action?) (run move s ms) := by
  induction ms generalizing s with
  | nil => exact ⟨rfl, rfl, fine_nil⟩
  | cons m ms ih =>
    have hmove := tells_move s m
    have hrest := ih (s.move m).1
    refine ⟨?_, hrest.finalized.trans hmove.finalized, hmove.fine.append hrest.fine⟩
    rw [run_cons, hrest.status, hmove.status, ← foldl_append]
    congr 1
    rcases m with chunk | action <;> rfl

end Runs

/-! ### The last event -/

/-- The item of a reference in the whole response. -/
def ChatToResponsesState.itemOf : OutputRef → ResponsesOutput
  | .message => s.messageOutput s.outputStatus
  | .reasoning => s.reasoningOutput s.outputStatus
  | .tool j => ((s.tool? j).map (·.output s.outputStatus)).getD { type := .functionCall }

section Items

variable {s : ChatToResponsesState}

theorem output_finalResponse (hc : s.Coherent) : s.finalResponse.output = s.outputOrder.map s.itemOf := by
  rw [← filterMap_eq_map]
  apply filterMap_congr
  rintro (- | - | j) hr
  · rfl
  · rfl
  · obtain ⟨t, ht⟩ := Option.isSome_iff_exists.mp (hc.toolsOf j hr)
    simp only [ht, Option.map_some, Function.comp_apply, itemOf, Option.getD_some]

theorem name_itemOf (s : ChatToResponsesState) (ref : OutputRef) :
    ((s.itemOf ref).type, (s.itemOf ref).id) = (ref.type, s.idOf ref) := by
  rcases ref with - | - | j
  · rfl
  · rfl
  · rw [itemOf, idOf]
    rcases s.tool? j with - | t <;> rfl

theorem payload_itemOf (s : ChatToResponsesState) (ref : OutputRef) :
    (s.itemOf ref).payload = s.contentOf ref := by
  rcases ref with - | - | j
  · simp [itemOf, messageOutput, ResponsesOutput.payload, OutputType.isTool, contentOf]
  · simp [itemOf, reasoningOutput, ResponsesOutput.payload, OutputType.isTool, contentOf]
  · rw [itemOf, contentOf]
    rcases s.tool? j with - | t <;> rfl

end Items

/-! ### The form -/

/-- The events about items, to the end. -/
def bodyEvents (s : ChatToResponsesState) (ms : List ChatMove) : List ResponsesEvent :=
  (run move s ms).2 ++ (run move s ms).1.doneDeltaEvents.2

/-- The state at the end. -/
def closedState (s : ChatToResponsesState) (ms : List ChatMove) : ChatToResponsesState :=
  (run move s ms).1.doneDeltaEvents.1

/-- In the end every item goes by the id it was announced with. -/
def NamesKept (st : ChatToResponsesState × Announced) : Prop :=
  ∀ ref ∈ st.1.outputOrder, st.1.idOf ref = st.2 ref
deriving Decidable

section Form

variable {s : ChatToResponsesState} {an : Announced} {ms : List ChatMove}

section Body

variable (hc : s.Coherent) (hsent : s.sentCreated = true) (hempty : s.outputOrder = [])
  (hms : ∀ m ∈ ms, m.Proper)

include hc hsent hempty hms

theorem blocks_iff : (∃ blocks : List (BlockEvent ItemName ItemName),
        (bodyEvents s ms).map ResponsesEvent.blockEvent? = blocks.map some ∧ WellFormed Eq blocks ∧
          (closedState s ms).finalResponse.output.map (fun out => (out.type, out.id))
            = (kinds blocks).map Prod.snd) ↔
      Along announce Steady (s, an) ms ∧ NamesKept (exec announce (s, an) ms) := by
  obtain ⟨hcr, -⟩ := coherent_run hc hsent hms
  have htrack : itemTrack (s, an) = [] := by rw [itemTrack, hempty, map_nil]
  have hfst : (exec announce (s, an) ms).1 = (run move s ms).1 :=
    exec_announce_fst (s, an) ms
  set st := exec announce (s, an) ms with hst
  have hcst : st.1.Coherent := hfst ▸ hcr
  have houtput : (closedState s ms).finalResponse.output.map (fun out => (out.type, out.id))
      = st.1.outputOrder.map fun ref => (ref.type, st.1.idOf ref) := by
    rw [closedState, ← hfst, output_finalResponse (coherent_doneDeltaEvents hcst), map_map]
    apply map_congr_left
    intro ref _
    exact (name_itemOf _ ref).trans (by rw [idOf_doneDeltaEvents])
  have hsee : ∀ t, seeEvents [] (bodyEvents s ms) = some t ↔
      Along announce Steady (s, an) ms ∧
        (∀ ref ∈ st.1.outputOrder, st.1.doneOf ref = false → st.1.idOf ref = st.2 ref) ∧
          t = itemTrack (st.1.doneDeltaEvents.1, st.2) := by
    intro t
    rw [bodyEvents, seeEvents, ← htrack, seeAll_append_iff (@see_run ms (s, an) hc hsent hms), ← hst, ← hfst]
    exact and_congr_right' (see_doneDeltaEvents hcst st.2 t)
  have hfirst : (itemTrack (st.1.doneDeltaEvents.1, st.2)).map Prod.fst
      = st.1.outputOrder.map fun ref => (ref.type, st.2 ref) := by
    rw [itemTrack, map_map]
    rfl
  rw [houtput]
  constructor
  · rintro ⟨blocks, hmap, hwell, hkinds⟩
    obtain ⟨t, ht, -⟩ := wellFormed_iff.mp hwell
    obtain ⟨halong, -, rfl⟩ := (hsee t).mp (seeAll_eq_some_iff.mpr ⟨blocks, hmap, ht⟩)
    rw [hwell.kinds_eq ht, hfirst] at hkinds
    refine ⟨halong, fun ref hr => ?_⟩
    exact (Prod.mk.inj (map_inj_left.mp hkinds ref hr)).2
  · rintro ⟨halong, hnames⟩
    obtain ⟨blocks, hmap, ht⟩ := seeAll_eq_some_iff.mp
      ((hsee _).mpr ⟨halong, fun ref hr _ => hnames ref hr, rfl⟩)
    have hwell : WellFormed Eq blocks := by
      refine wellFormed_iff.mpr ⟨_, ht, fun x hx => ?_⟩
      obtain ⟨ref, hr, rfl⟩ := mem_map.mp hx
      rw [doneOf_doneDeltaEvents hcst (show ref ∈ st.1.outputOrder from hr)]
      rfl
    refine ⟨blocks, hmap, hwell, ?_⟩
    rw [hwell.kinds_eq ht, hfirst]
    apply map_congr_left
    intro ref hr
    rw [hnames ref hr]

/-- The items of the last response have what their deltas add up to. -/
theorem payload_eq_deltaText {k : Nat} {out : ResponsesOutput}
    (hout : (closedState s ms).finalResponse.output[k]? = some out) :
    out.payload = deltaText k (bodyEvents s ms) := by
  obtain ⟨hcr, hcontent⟩ := coherent_run hc hsent hms
  have hclosed : (closedState s ms).Coherent := coherent_doneDeltaEvents hcr
  rw [output_finalResponse hclosed, getElem?_map, Option.map_eq_some_iff] at hout
  obtain ⟨ref, hr, rfl⟩ := hout
  have hat : (closedState s ms).contentAt k = (closedState s ms).contentOf ref := by
    show ((closedState s ms).outputOrder[k]?.map _).getD "" = _
    rw [hr]
    rfl
  have hstart : s.contentAt k = "" := by
    rw [contentAt, hempty]
    rfl
  rw [payload_itemOf]
  rw [← hat, closedState, contentAt_doneDeltaEvents, hcontent, hstart, String.empty_append,
    bodyEvents, deltaText_append, deltaText_doneDeltaEvents, String.append_empty]

end Body

theorem finalize_eq (h : s.finalized = false) :
    (finalizeChatCompletionsStreamToResponses s).2 = s.doneDeltaEvents.2 ++
      [{ type := if s.doneDeltaEvents.1.status = "incomplete" then .incomplete else .completed
         response := some s.doneDeltaEvents.1.finalResponse }] := by
  simp only [finalizeChatCompletionsStreamToResponses, h]
  rfl

theorem responsesStream_cons (id model : String) (now : Int) (c : ChatChunk) (cs : List ChatChunk) :
    ∃ (s : ChatToResponsesState) (ms : List ChatMove) (created : ResponsesEvent) (ending : EventType),
      (c :: cs).flatMap ChatChunk.moves = .chunk c :: ms ∧
        announce (newChatToResponsesState id model now, fun _ => "") (.chunk c) = (s, fun _ => "") ∧
        s.Coherent ∧ s.sentCreated = true ∧ s.outputOrder = [] ∧ (∀ m ∈ ms, m.Proper) ∧
        created.type = .created ∧ (ending = .completed ∨ ending = .incomplete) ∧
        responsesStream (newChatToResponsesState id model now) (c :: cs) = [created] ++ bodyEvents s ms ++
            [{ type := ending, response := some (closedState s ms).finalResponse }] := by
  set s₀ := newChatToResponsesState id model now with hs₀
  set s := (s₀.move (.chunk c)).1 with hs
  set ms := (c.choices.flatMap StreamChoice.actions).map ChatMove.act ++ cs.flatMap ChatChunk.moves with hms
  have hmoves : (c :: cs).flatMap ChatChunk.moves = .chunk c :: ms := rfl
  have hfin : (run move s ms).1.finalized = false := (tells_run s ms).finalized
  refine ⟨s, ms, { type := .created, response := some (s₀.identify c).createdResponse },
    if (closedState s ms).status = "incomplete" then .incomplete else .completed, hmoves, ?_, ?_, rfl, rfl, ?_,
    rfl, ?_, ?_⟩
  · have horder : (s₀.move (.chunk c)).1.outputOrder = s₀.outputOrder := rfl
    rw [announce_eq, announceNew_of_eq horder]
  · exact { coherent_new id model now with }
  · intro m hm
    rcases mem_append.mp hm with hm | hm
    · exact proper_of_mem_moves (show m ∈ c.moves from mem_cons_of_mem _ hm)
    · obtain ⟨c', -, hm⟩ := mem_flatMap.mp hm
      exact proper_of_mem_moves hm
  · split_ifs
    · exact .inr rfl
    · exact .inl rfl
  · unfold responsesStream
    rw [chunks_eq_moves, hmoves]
    show (s₀.move (.chunk c)).2 ++ (run move s ms).2 ++
      (finalizeChatCompletionsStreamToResponses (run move s ms).1).2 = _
    rw [finalize_eq hfin, bodyEvents]
    simp only [append_assoc]
    rfl

/-- A stream has the form exactly when its moves are steady and the items keep
their ids to the end. -/
theorem responsesFormed_iff (id model : String) (now : Int) (chunks : List ChatChunk) :
    ResponsesFormed chunks (responsesStream (newChatToResponsesState id model now) chunks) ↔
      Along announce Steady (newChatToResponsesState id model now, fun _ => "")
          (chunks.flatMap ChatChunk.moves) ∧
        NamesKept (exec announce (newChatToResponsesState id model now, fun _ => "")
          (chunks.flatMap ChatChunk.moves)) := by
  rcases chunks with - | ⟨c, cs⟩
  · -- no chunk: only the last event
    have hkept : NamesKept (exec announce (newChatToResponsesState id model now, fun _ => "")
        ([].flatMap ChatChunk.moves)) := by
      intro ref hr
      cases hr
    refine iff_of_true ?_ ⟨trivial, hkept⟩
    refine ⟨[], [], _, _, [], rfl, rfl, rfl, wellFormed_iff.mpr ⟨[], rfl, by simp⟩, .inl rfl, rfl, rfl, ?_⟩
    intro k out hout
    cases hout
  · obtain ⟨s, ms, created, ending, hmoves, hann, hc, hsent, hempty, hms, hcreated, hending, hevents⟩ :=
      responsesStream_cons id model now c cs
    have hchunk : Steady (newChatToResponsesState id model now, fun _ => "") (.chunk c) := trivial
    rw [hmoves, along_cons, exec_cons, hann, and_iff_right hchunk,
      ← blocks_iff hc hsent hempty hms, hevents]
    constructor
    · rintro ⟨created', body, last, r, blocks, heq, hcr, hmap, hwell, -, hr, hkinds, -⟩
      obtain ⟨e, rfl, -⟩ := hcr
      obtain ⟨hfront, hlast⟩ := append_inj' heq rfl
      obtain ⟨-, rfl⟩ := append_inj hfront rfl
      obtain rfl := (List.cons.inj hlast).1
      obtain rfl := Option.some.inj hr
      exact ⟨blocks, hmap, hwell, hkinds⟩
    · rintro ⟨blocks, hmap, hwell, hkinds⟩
      refine ⟨[created], bodyEvents s ms, _, _, blocks, rfl, ?_, hmap, hwell, hending, rfl, hkinds, ?_⟩
      · exact ⟨created, rfl, hcreated⟩
      · exact fun k out hout => payload_eq_deltaText hc hsent hempty hms hout

/-- Two tools at once, then text, then the end. -/
theorem responsesFormed_tools_text : ResponsesFormed
      [toolChunk [{ index := some 1, id := "x", name := "f" }, { index := some 0, id := "y", name := "g" }],
        toolChunk [{ index := some 1, arguments := "1" }], textChunk "a",
        { choices := [{ delta := { toolCalls := [{ index := some 0, arguments := "2" }] },
                        finishReason := some "stop" }] }]
      (responsesStream (newChatToResponsesState "r" "m" 1)
        [toolChunk [{ index := some 1, id := "x", name := "f" }, { index := some 0, id := "y", name := "g" }],
          toolChunk [{ index := some 1, arguments := "1" }], textChunk "a",
          { choices := [{ delta := { toolCalls := [{ index := some 0, arguments := "2" }] },
                          finishReason := some "stop" }] }]) :=
  (responsesFormed_iff "r" "m" 1 _).mpr (by decide)

/-- What the watchman stops is not of the form. -/
theorem not_responsesFormed {chunks : List ChatChunk} (hne : chunks ≠ [])
    (h : seeEvents [] events.tail.dropLast = none) : ¬ ResponsesFormed chunks events := by
  rintro ⟨created, body, last, r, blocks, rfl, hcr, hmap, hwell, -⟩
  rw [if_neg hne] at hcr
  obtain ⟨e, rfl, -⟩ := hcr
  obtain ⟨t, ht, -⟩ := wellFormed_iff.mp hwell
  have hbody : ([e] ++ body ++ [last]).tail.dropLast = body := by simp
  rw [hbody, seeEvents, seeAll_eq_some_iff.mpr ⟨blocks, hmap, ht⟩] at h
  cases h

end Form

/-- Text after a finish reason goes to a message that has been closed; and a tool
whose id comes with its second delta goes by two ids. -/
theorem responsesStream_late_text_and_id : ¬ ResponsesFormed
        [{ choices := [{ delta := { content := some "a" }, finishReason := some "stop" }] }, textChunk "b"]
        (responsesStream (newChatToResponsesState "r" "m" 1)
          [{ choices := [{ delta := { content := some "a" }, finishReason := some "stop" }] }, textChunk "b"]) ∧
      ¬ ResponsesFormed
        [toolChunk [{ index := some 0, name := "f" }],
          toolChunk [{ index := some 0, id := "x", arguments := "1" }]]
        (responsesStream (newChatToResponsesState "r" "m" 1)
          [toolChunk [{ index := some 0, name := "f" }],
            toolChunk [{ index := some 0, id := "x", arguments := "1" }]]) :=
  ⟨not_responsesFormed (by decide) (by decide), not_responsesFormed (by decide) (by decide)⟩

end MicrossApi
