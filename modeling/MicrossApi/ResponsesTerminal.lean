/-
MicrossApi/ResponsesTerminal.lean

A Responses stream that consists of its terminal event only, against the plain
conversion of the response that the event carries.

The terminal event's output is replayed through the machinery for deltas, with the
flags that say what has been sent.  The replay itself sets these flags: after the
first message with text it passes over all others, and likewise after the first
reasoning item.  The plain conversion puts all of them together.
`terminal_saysSame_iff` says that this is the only difference.
-/
import MicrossApi.ResponsesToChatDraft
import MicrossApi.ClaudeToChatAlike

namespace MicrossApi

open List Roster Transducer
open OutputType (isTool)

-- comparisons of trimmed texts are never to be evaluated here
attribute [local irreducible] trimSpace

/-! ### Responses -/

variable (out : ResponsesOutput) {q : ResponsesToChatState} {a : Assembly}

/-- An assistant message, a reasoning item, or a tool call with a name and an id. -/
def ResponsesOutput.Plain : Prop :=
  out.type = .message ∧ (out.role = "" ∨ out.role = "assistant") ∨
    out.type = .reasoning ∨
    out.type.isTool = true ∧ trimSpace out.name ≠ "" ∧ (trimSpace out.id ≠ "" ∨ trimSpace out.callId ≠ "")

variable (outs : List ResponsesOutput)

/-- No two tool calls share an item id or a call id. -/
def DistinctIds : Prop :=
  (outs.filter (·.type.isTool)).Pairwise fun x y =>
    (trimSpace x.id ≠ "" → trimSpace x.id ≠ trimSpace y.id) ∧
      (trimSpace x.callId ≠ "" → trimSpace x.callId ≠ trimSpace y.callId)

/-- A client that was told a stream and one that was told a whole completion know the same. -/
structure SaysSame (a : Assembly) (r : ChatResponse) : Prop where
  text : a.text = r.content
  reasoning : a.reasoning = r.reasoningContent.getD ""
  tools : a.tools = r.toolCalls.mapIdx fun n c => ⟨n, c.id, c.name, c.arguments⟩

/-- The texts of the messages. -/
def messageTexts : List String :=
  (outs.filter (·.type = .message)).map (·.outputText)

/-- The texts of the reasoning items. -/
def reasoningTexts : List String :=
  (outs.filter (·.type = .reasoning)).map (·.allText)

variable (texts : List String)

/-- At most one of the texts is not empty. -/
def AtMostOne : Prop := (texts.filter (· ≠ "")).length ≤ 1
deriving Decidable

/-! ### The first text and all texts -/

/-- The first text that is not empty. -/
def firstText : String := (texts.find? (· ≠ "")).getD ""

@[simp] theorem firstText_nil : firstText [] = "" := rfl

theorem firstText_cons (x : String) :
    firstText (x :: texts) = if x = "" then firstText texts else x := by
  unfold firstText
  by_cases hx : x = "" <;> simp [hx]

theorem firstText_concat (x : String) :
    firstText (texts ++ [x]) = if firstText texts = "" then x else firstText texts := by
  induction texts with
  | nil => by_cases hx : x = "" <;> simp [firstText_cons]
  | cons y texts ih =>
    rw [cons_append, firstText_cons, firstText_cons, ih]
    by_cases hy : y = "" <;> simp [hy]

theorem firstText_eq_join_iff :
    firstText texts = String.join texts ↔ AtMostOne texts := by
  induction texts with
  | nil => simp [AtMostOne]
  | cons x texts ih =>
    rw [firstText_cons, String.join_cons, AtMostOne, filter_cons]
    by_cases hx : x = ""
    · simpa [hx, AtMostOne] using ih
    have hself : x = x ++ String.join texts ↔ String.join texts = "" := by
      constructor
      · intro h
        have h' : x ++ "" = x ++ String.join texts := by rw [String.append_empty]; exact h
        exact (String.append_right_inj x).mp h' |>.symm
      · intro h
        rw [h, String.append_empty]
    rw [if_neg hx, if_pos (by simp [hx]), hself, join_eq_empty_iff]
    simp

/-! ### What the replay tells -/

/-- An item of the terminal event's output, as an event. -/
def ResponsesOutput.replayed : ResponsesEvent := { type := .other "", item := some out }

/-- The key of a tool call in the replay. -/
def ResponsesOutput.key : ToolKey :=
  if trimSpace out.id ≠ "" then .item (trimSpace out.id) else .call (trimSpace out.callId)

/-- A tool call as it is told. -/
def ResponsesOutput.entry : ToolEntry :=
  (out.replayed.said out out.key).entry out.key ""

/-- What the replay of some items tells. -/
def replayDraft : Draft where
  text := firstText (messageTexts outs)
  reasoning := firstText (reasoningTexts outs)
  entries := (outs.filter (·.type.isTool)).map ResponsesOutput.entry

section Replay

variable {out : ResponsesOutput} {outs : List ResponsesOutput}

theorem eventItemId_replayed (out : ResponsesOutput) : out.replayed.eventItemId = trimSpace out.id := by
  show (if trimSpace out.id ≠ "" then trimSpace out.id else trimSpace "") = trimSpace out.id
  rw [trimSpace_empty]
  by_cases h : trimSpace out.id = "" <;> simp [h]

theorem keyForEvent_replayed (h : trimSpace out.id ≠ "" ∨ trimSpace out.callId ≠ "") :
    keyForEvent out.replayed = some out.key := by
  show (if trimSpace out.id ≠ "" then some (ToolKey.item (trimSpace out.id))
    else if trimSpace out.callId ≠ "" then some (ToolKey.call (trimSpace out.callId))
    else if trimSpace "" ≠ "" then some (ToolKey.item (trimSpace "")) else none) = some out.key
  unfold ResponsesOutput.key
  split_ifs with h₁ h₂
  · rfl
  · rfl
  · exact absurd (trimSpace_empty) ‹_›
  · rcases h with h | h
    · exact absurd h h₁
    · exact absurd h h₂

theorem of_mem_replayDraft {x : ToolEntry} (hx : x ∈ (replayDraft outs).entries) :
    ∃ o ∈ outs.filter (·.type.isTool), x = o.entry ∧ x.key = o.key ∧ x.ids = [trimSpace o.id] ∧
      x.calls = [trimSpace o.callId] := by
  obtain ⟨o, ho, rfl⟩ := mem_map.mp hx
  refine ⟨o, ho, rfl, rfl, ?_, rfl⟩
  show [o.replayed.eventItemId] = _
  rw [eventItemId_replayed]

theorem distinct_of_concat (h : DistinctIds (outs ++ [out])) (htool : out.type.isTool = true) :
    ∀ o ∈ outs.filter (·.type.isTool), (trimSpace o.id ≠ "" → trimSpace o.id ≠ trimSpace out.id) ∧
        (trimSpace o.callId ≠ "" → trimSpace o.callId ≠ trimSpace out.callId) := by
  intro o ho
  rw [DistinctIds, filter_append, pairwise_append] at h
  exact h.2.2 o ho out (by simp [htool])

theorem place_replayed (hplain : ∀ o ∈ outs, o.Plain) (h : DistinctIds (outs ++ [out]))
    (htool : out.type.isTool = true) : place ToolEntry.key (replayDraft outs).entries out.key = none := by
  rw [place_eq_none_iff]
  intro hmem
  obtain ⟨x, hx, hkey⟩ := mem_map.mp hmem
  obtain ⟨o, ho, -, hko, -⟩ := of_mem_replayDraft hx
  obtain ⟨hmem, hto⟩ := mem_filter.mp ho
  have hids : trimSpace o.id ≠ "" ∨ trimSpace o.callId ≠ "" := by
    rcases hplain o hmem with ⟨hm, -⟩ | hm | ⟨-, -, hm⟩
    · simp [hm, isTool] at hto
    · simp [hm, isTool] at hto
    · exact hm
  have hdiff := distinct_of_concat h htool o ho
  have hkeys : o.key = out.key := hko.symm.trans hkey
  unfold ResponsesOutput.key at hkeys
  split_ifs at hkeys with h₁ h₂ h₃
  · exact hdiff.1 h₁ (ToolKey.item.inj hkeys)
  · exact hdiff.2 (hids.resolve_left h₁) (ToolKey.call.inj hkeys)

theorem itemFits_replayed (hplain : ∀ o ∈ outs, o.Plain) (h : DistinctIds (outs ++ [out]))
    (htool : out.type.isTool = true) :
    ItemFits (replayDraft outs) out.key (out.replayed.said out out.key) := by
  have hdiff := distinct_of_concat h htool
  refine ⟨?_, ?_, fun _ _ => rfl, ?_⟩
  · intro hne x hx hid
    obtain ⟨o, ho, -, -, hids, -⟩ := of_mem_replayDraft hx
    have heq : trimSpace out.id = trimSpace o.id := by
      rw [hids, mem_singleton] at hid
      exact (eventItemId_replayed out).symm.trans hid
    have hne' : trimSpace out.id ≠ "" := fun hempty => hne ((eventItemId_replayed out).trans hempty)
    exact absurd heq.symm ((hdiff o ho).1 (heq ▸ hne'))
  · intro hne x hx hid
    obtain ⟨o, ho, -, -, -, hcalls⟩ := of_mem_replayDraft hx
    rw [hcalls, mem_singleton] at hid
    have heq : trimSpace out.callId = trimSpace o.callId := hid
    exact absurd heq.symm ((hdiff o ho).2 (heq ▸ hne))
  · intro hne x hx hkey
    have hnone := place_eq_none_iff.mp (place_replayed hplain h htool)
    exact absurd (hkey ▸ mem_map_of_mem hx) hnone

theorem replayDraft_message (hm : out.type = .message) : replayDraft (outs ++ [out]) =
      { replayDraft outs with text := firstText (messageTexts outs ++ [out.outputText]) } := by
  simp [replayDraft, messageTexts, reasoningTexts, hm, isTool]

theorem replayDraft_reasoning (hm : out.type = .reasoning) : replayDraft (outs ++ [out]) =
      { replayDraft outs with reasoning := firstText (reasoningTexts outs ++ [out.allText]) } := by
  simp [replayDraft, messageTexts, reasoningTexts, hm, isTool]

theorem replayDraft_tool (htool : out.type.isTool = true) : replayDraft (outs ++ [out]) =
      { replayDraft outs with entries := (replayDraft outs).entries ++ [out.entry] } := by
  have hne : out.type ≠ .message ∧ out.type ≠ .reasoning := by
    constructor <;> (intro h; simp [h, isTool] at htool)
  simp [replayDraft, messageTexts, reasoningTexts, htool, hne.1, hne.2]

/-- **One item** of the replay keeps converter, client and draft in step. -/
theorem inStep_replay_item (h : InStep q a (replayDraft outs))
    (hplain : ∀ o ∈ outs ++ [out], o.Plain) (hdistinct : DistinctIds (outs ++ [out])) :
    InStep (q.terminalOutputItem out).1 (a.add (q.terminalOutputItem out).2) (replayDraft (outs ++ [out])) := by
  have hbefore : ∀ o ∈ outs, o.Plain := fun o ho => hplain o (mem_append_left _ ho)
  unfold ResponsesToChatState.terminalOutputItem
  rcases hplain out (by simp) with ⟨hm, -⟩ | hm | ⟨htool, -, hids⟩
  · -- a message: its text, unless there has been one
    rw [replayDraft_message hm, firstText_concat]
    have hsent := h.hasSentText
    by_cases htext : firstText (messageTexts outs) = ""
    · have hstep := inStep_text h out.outputText
      have hflag : q.hasSentText = false := by simp [hsent, replayDraft, htext]
      rw [if_pos ⟨hm, by simp [hflag]⟩, if_pos htext]
      rwa [show (replayDraft outs).text = "" from htext] at hstep
    · have hflag : q.hasSentText = true := by simp [hsent, replayDraft, htext]
      rw [if_neg (by simp [hflag]), if_neg (by simp [hm]), if_neg (by simp [hm, isTool]), if_neg htext]
      exact h
  · -- a reasoning item, likewise
    rw [replayDraft_reasoning hm, firstText_concat]
    have hsent := h.hasSentReasoning
    rw [if_neg (by simp [hm])]
    by_cases htext : firstText (reasoningTexts outs) = ""
    · have hstep := inStep_reasoning h out.allText
      rw [reason_of_open rfl] at hstep
      have hflag : q.hasSentReasoning = false := by simp [hsent, replayDraft, htext]
      rw [if_pos ⟨hm, by simp [hflag]⟩, if_pos htext]
      rwa [show (replayDraft outs).reasoning = "" from htext] at hstep
    · have hflag : q.hasSentReasoning = true := by simp [hsent, replayDraft, htext]
      rw [if_neg (by simp [hflag]), if_neg (by simp [hm, isTool]), if_neg htext]
      exact h
  · -- a tool call
    have hne : out.type ≠ .message ∧ out.type ≠ .reasoning := by
      constructor <;> (intro h; simp [h, isTool] at htool)
    rw [if_neg (by simp [hne.1]), if_neg (by simp [hne.2]), if_pos htool, replayDraft_tool htool]
    have hstep := inStep_item h (rfl : out.replayed.item = some out) (keyForEvent_replayed hids)
      (itemFits_replayed hbefore hdistinct htool)
    have hannounce : (replayDraft outs).announce out.key (out.replayed.said out out.key) =
        { replayDraft outs with entries := (replayDraft outs).entries ++ [out.entry] } := by
      unfold Draft.announce
      rw [upsert_of_none (place_replayed hbefore hdistinct htool)]
      congr 1
      exact Function.update_eq_self _ _
    rw [hannounce] at hstep
    exact hstep

theorem distinct_of_append {more : List ResponsesOutput} (h : DistinctIds (outs ++ more)) :
    DistinctIds outs := by
  rw [DistinctIds, filter_append, pairwise_append] at h
  exact h.1

/-- **The replay** keeps converter, client and draft in step. -/
theorem inStep_replay (h : InStep q a (replayDraft outs))
    (more : List ResponsesOutput) (hplain : ∀ o ∈ outs ++ more, o.Plain)
    (hdistinct : DistinctIds (outs ++ more)) :
    InStep (run ResponsesToChatState.terminalOutputItem q more).1
      (a.add (run ResponsesToChatState.terminalOutputItem q more).2) (replayDraft (outs ++ more)) := by
  induction more generalizing outs q a with
  | nil =>
    rw [append_nil]
    exact h
  | cons out more ih =>
    have hsplit : outs ++ out :: more = outs ++ [out] ++ more := by simp
    rw [hsplit] at hplain hdistinct ⊢
    have hstep := inStep_replay_item h (fun o ho => hplain o (mem_append_left _ ho))
      (distinct_of_append hdistinct)
    rw [run_cons, Assembly.add_append]
    exact ih hstep hplain hdistinct

end Replay

/-! ### The whole stream -/

/-- The stream that consists of the terminal event only. -/
def terminalOnly (resp : ResponsesResponse) : List ResponsesEvent :=
  [{ type := .completed, response := some resp }]

section Terminal

variable {resp : ResponsesResponse}

theorem assemble_terminal (model : String) (now : Int) (hplain : ∀ o ∈ resp.output, o.Plain)
    (hdistinct : DistinctIds resp.output) :
    ∃ chunks, responsesStreamToChat (newResponsesToChatState model now) (terminalOnly resp) = .ok chunks ∧
      assemble chunks =
        { text := firstText (messageTexts resp.output)
          reasoning := firstText (reasoningTexts resp.output)
          tools := Draft.toolView (replayDraft resp.output).entries
          finishReasons := [(responsesFinishReasonFromStatus (some resp)).getD
            (if (replayDraft resp.output).entries ≠ [] then "tool_calls" else "stop")] } := by
  have hstart := inStep_metadata (inStep_new model now) (some resp)
  have hrun := @inStep_replay _ _ [] hstart resp.output hplain hdistinct
  set q := run ResponsesToChatState.terminalOutputItem
    ((newResponsesToChatState model now).applyResponseMetadata (some resp)) resp.output with hq
  refine ⟨_, responsesStreamToChat_eq _ (by simp [terminalOnly]), ?_⟩
  have hchunks : (run ResponsesToChatState.convert (newResponsesToChatState model now) (terminalOnly resp)).2
      = q.2 ++ (q.1.finalize (some resp)).2 := append_nil _
  rw [assemble, hchunks, Assembly.add_append, add_finalize (hrun.allSent fun _ => rfl) hrun.finalized,
    hrun.tools.sawToolCall]
  rcases ha : Assembly.add {} q.2 with ⟨text, reasoning, tools, finishReasons⟩
  rw [ha] at hrun
  obtain rfl : text = _ := hrun.text
  obtain rfl : reasoning = _ := hrun.reasoning
  obtain rfl : tools = _ := hrun.view
  obtain rfl : finishReasons = _ := hrun.finished
  simp [replayDraft]

theorem content_plain (hplain : ∀ o ∈ resp.output, o.Plain) (htext : ∃ s ∈ messageTexts resp.output, s ≠ "")
    (id : String) : (responsesResponseToChat resp id).content = String.join (messageTexts resp.output) := by
  have hfilter : (resp.output.filter fun out => out.type = .message ∧ (out.role = "" ∨ out.role = "assistant"))
      = resp.output.filter (·.type = .message) := by
    apply filter_congr
    intro out hout
    rcases hplain out hout with ⟨hm, hrole⟩ | hm | ⟨hm, -⟩
    · simp [hrole]
    · simp [hm]
    have hne : out.type ≠ .message := by
      intro h
      simp [h, isTool] at hm
    simp [hne]
  have hne : String.join (messageTexts resp.output) ≠ "" := by
    intro h
    obtain ⟨s, hs, hne⟩ := htext
    exact hne (join_eq_empty_iff.mp h s hs)
  show extractOutputText resp = _
  unfold extractOutputText
  rw [hfilter]
  exact if_pos hne

theorem reasoning_plain (resp : ResponsesResponse) (id : String) :
    (responsesResponseToChat resp id).reasoningContent.getD "" = String.join (reasoningTexts resp.output) := by
  show (if extractReasoningText resp ≠ "" then some (extractReasoningText resp) else none).getD "" = _
  have heq : extractReasoningText resp = String.join (reasoningTexts resp.output) := rfl
  split_ifs with h
  · exact heq
  · exact (not_not.mp h).symm

theorem toolCall?_plain {out : ResponsesOutput} (hplain : out.Plain) : out.toolCall? = if out.type.isTool then
      some { id := out.entry.id, name := out.entry.name, arguments := out.entry.args } else none := by
  unfold ResponsesOutput.toolCall?
  by_cases htool : out.type.isTool = true
  · obtain ⟨hname, hids⟩ : trimSpace out.name ≠ "" ∧ (trimSpace out.id ≠ "" ∨ trimSpace out.callId ≠ "") := by
      rcases hplain with ⟨hm, -⟩ | hm | ⟨-, hm⟩
      · simp [hm, isTool] at htool
      · simp [hm, isTool] at htool
      · exact hm
    rw [if_pos ⟨htool, hname⟩, if_pos htool]
    have hid : out.entry.id = if trimSpace out.callId = "" then trimSpace out.id else trimSpace out.callId := by
      show (if trimSpace out.callId ≠ "" then trimSpace out.callId
        else if trimSpace out.id ≠ "" then trimSpace out.id else out.key.text) = _
      by_cases h₁ : trimSpace out.callId = ""
      · simp [hids.resolve_right (by simp [h₁])]
      · simp [h₁]
    have hargs : out.entry.args = out.argumentsString := by
      show (if out.argumentsString ≠ "" then out.argumentsString else "") = out.argumentsString
      by_cases h : out.argumentsString = "" <;> simp [h]
    rw [hid, hargs]
    rfl
  · rw [if_neg fun h => htool h.1, if_neg htool]

theorem toolCalls_plain (hplain : ∀ o ∈ resp.output, o.Plain) (id : String) :
    (responsesResponseToChat resp id).toolCalls
      = (replayDraft resp.output).entries.map fun x => { id := x.id, name := x.name, arguments := x.args } := by
  show resp.output.filterMap ResponsesOutput.toolCall? = _
  rw [filterMap_congr fun out hout => toolCall?_plain (hplain out hout)]
  unfold replayDraft
  generalize resp.output = outs
  induction outs with
  | nil => rfl
  | cons out outs ih =>
    by_cases h : out.type.isTool = true <;> simpa [h] using ih

/-- A stream of the terminal event only says the same as the plain response
exactly when at most one message and at most one reasoning item has text. -/
theorem terminal_saysSame_iff (resp : ResponsesResponse) (id model : String) (now : Int)
    (hplain : ∀ o ∈ resp.output, o.Plain) (hdistinct : DistinctIds resp.output)
    (htext : ∃ s ∈ messageTexts resp.output, s ≠ "") :
    (∃ chunks, responsesStreamToChat (newResponsesToChatState model now) (terminalOnly resp) = .ok chunks ∧
        SaysSame (assemble chunks) (responsesResponseToChat resp id) ∧
        (assemble chunks).finishReasons = [(responsesResponseToChat resp id).finishReason]) ↔
      AtMostOne (messageTexts resp.output) ∧ AtMostOne (reasoningTexts resp.output) := by
  obtain ⟨chunks, hchunks, hassemble⟩ := assemble_terminal model now hplain hdistinct
  have hcontent := content_plain hplain htext id
  have hreasoning := reasoning_plain resp id
  have htools := toolCalls_plain hplain id
  rw [← firstText_eq_join_iff, ← firstText_eq_join_iff]
  constructor
  · rintro ⟨chunks', hchunks', hsame, -⟩
    obtain rfl := Except.ok.inj (hchunks.symm.trans hchunks')
    have htext' := hsame.text
    have hreasoning' := hsame.reasoning
    rw [hassemble, hcontent] at htext'
    rw [hassemble, hreasoning] at hreasoning'
    exact ⟨htext', hreasoning'⟩
  · rintro ⟨htext', hreasoning'⟩
    refine ⟨chunks, hchunks, ⟨?_, ?_, ?_⟩, ?_⟩
    · rw [hassemble, hcontent]
      exact htext'
    · rw [hassemble, hreasoning]
      exact hreasoning'
    · rw [hassemble, htools]
      exact toolView_eq_mapIdx _
    · have hreason : (responsesResponseToChat resp id).finishReason =
          (responsesFinishReasonFromStatus (some resp)).getD
            (if (responsesResponseToChat resp id).toolCalls ≠ [] then "tool_calls" else "stop") := rfl
      rw [hassemble, hreason, htools]
      simp

/-- A reasoning item, an assistant message and a function call. -/
def reasonedCall : ResponsesResponse where
  status := .string "completed"
  output :=
    [{ type := .reasoning, content := [⟨"summary_text", "r"⟩] },
      { type := .message, role := "assistant", content := [⟨"output_text", "a"⟩] },
      { type := .functionCall, id := "fc_1", callId := "c1", name := "f", arguments := .string "{}" }]

theorem terminal_saysSame_reasonedCall :
    ∃ chunks, responsesStreamToChat (newResponsesToChatState "m" 0) (terminalOnly reasonedCall) = .ok chunks ∧
      SaysSame (assemble chunks) (responsesResponseToChat reasonedCall "x") ∧
      (assemble chunks).finishReasons = [(responsesResponseToChat reasonedCall "x").finishReason] := by
  have hids : trimSpace "f" ≠ "" ∧ trimSpace "fc_1" ≠ "" := by decide +kernel
  refine (terminal_saysSame_iff reasonedCall "x" "m" 0 ?_ ?_ ?_).mpr ?_
  · intro o ho
    simp only [reasonedCall, mem_cons, not_mem_nil, or_false] at ho
    rcases ho with rfl | rfl | rfl
    · exact .inr (.inl rfl)
    · exact .inl ⟨rfl, .inr rfl⟩
    · exact .inr (.inr ⟨rfl, hids.1, .inl hids.2⟩)
  · simp [DistinctIds, reasonedCall, isTool]
  · exact ⟨"a", by decide, by decide⟩
  · decide

/-- Two assistant messages. -/
def twoMessages : ResponsesResponse where
  status := .string "completed"
  output :=
    [{ type := .message, role := "assistant", content := [⟨"output_text", "a"⟩] },
      { type := .message, role := "assistant", content := [⟨"output_text", "b"⟩] }]

/-- The stream tells the first message only, the plain conversion both. -/
theorem terminal_two_messages : (∀ o ∈ twoMessages.output, o.Plain) ∧ DistinctIds twoMessages.output ∧
      (∃ chunks, responsesStreamToChat (newResponsesToChatState "m" 0) (terminalOnly twoMessages) = .ok chunks ∧
        (assemble chunks).text = "a") ∧ (responsesResponseToChat twoMessages "x").content = "ab" := by
  refine ⟨?_, ?_, ⟨_, rfl, ?_⟩, ?_⟩
  · intro o ho
    simp only [twoMessages, mem_cons, not_mem_nil, or_false] at ho
    rcases ho with rfl | rfl <;> exact .inl ⟨rfl, .inr rfl⟩
  · simp [DistinctIds, twoMessages, isTool]
  · decide +kernel
  · decide +kernel

end Terminal

end MicrossApi
