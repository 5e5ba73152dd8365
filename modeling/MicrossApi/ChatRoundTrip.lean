/-
MicrossApi/ChatRoundTrip.lean

Chat completion chunks turned into a Responses stream and back into chunks.

The first converter tells everything three times: in deltas, in the events that
close an item, and in the response of the last event.  The second has to pass on
each thing once.  Both keep in step with one draft (`RoundTrip`), move by move;
the items of the last event are all known by then, so that they add nothing
(`add_terminate`).

What the second converter goes by are output indices and ids.  So an id may be
used for one index only.  Ids and names lose surrounding white space.  After a
finish reason has closed the items, more reasoning would be set off by a blank
line, and a tool that then got another id would be taken for a new one.
-/
import MicrossApi.ChatToResponsesForm
import MicrossApi.ResponsesToChatDraft

namespace MicrossApi

open List Roster Transducer
open ChatMove (act)
open ChatToResponsesState (createdEvents newTool textDoneEvents reasoningDoneEvents move itemOf)
open ChatToResponsesState (messageOutput reasoningOutput applyFinishReason)
open ChatChunk (moves)

-- comparisons of trimmed texts are never to be evaluated here
attribute [local irreducible] trimSpace

/-! ### Items that are known -/

/-- A tool item that is known by its id, with all its arguments. -/
structure KnownTool (q : ResponsesToChatState) (out : ResponsesOutput) (n : Nat) : Prop where
  id : trimSpace out.id ≠ ""
  leads : (q.itemIdToKey.lookup (trimSpace out.id)).bind (q.toolByKey.lookup ·) = some n
  byKey : ∀ n', q.toolByKey.lookup (.item (trimSpace out.id)) = some n' → n' = n
  sent : ∃ t, q.tools[n]? = some t ∧ t.Quiet ∧ t.nameSent = true ∧
    (out.argumentsString = "" ∨ out.argumentsString = t.arguments)

section Replay

variable {q : ResponsesToChatState} {out : ResponsesOutput} {n : Nat}

/-- The event that the replay makes of a tool item. -/
def replayEvent (out : ResponsesOutput) : ResponsesEvent := { type := .other "", item := some out }

theorem eventItemId_replayEvent (h : trimSpace out.id ≠ "") :
    (replayEvent out).eventItemId = trimSpace out.id :=
  if_pos h

theorem toolForKey_known (hk : KnownTool q out n) (new : StreamTool) :
    ∃ byKey, q.toolForKey (.item (trimSpace out.id)) (q.aliasedTool? (replayEvent out) out) new
        = ({ q with toolByKey := byKey }, n) ∧
      ∀ k, byKey.lookup k = if k = .item (trimSpace out.id) then some n else q.toolByKey.lookup k := by
  have halias : q.aliasedTool? (replayEvent out) out = some n := by
    unfold ResponsesToChatState.aliasedTool?
    rw [eventItemId_replayEvent hk.id, if_pos hk.id, hk.leads]
    rfl
  unfold ResponsesToChatState.toolForKey
  rw [halias]
  rcases hlookup : q.toolByKey.lookup (.item (trimSpace out.id)) with - | n'
  · rw [hlookup]
    exact ⟨q.toolByKey.insert (.item (trimSpace out.id)) n, rfl, fun k => lookup_insert_eq _ _ _ _⟩
  obtain rfl := hk.byKey n' hlookup
  rw [hlookup]
  refine ⟨q.toolByKey, rfl, fun k => ?_⟩
  split_ifs with h
  · rw [h, hlookup]
  · rfl

/-- A tool that hears again what has been sent has nothing to send. -/
theorem quiet_heard {t : StreamTool} (h : t.Quiet) (hname : t.nameSent = true)
    (hargs : out.argumentsString = "" ∨ out.argumentsString = t.arguments) (e : ResponsesEvent) :
    (t.hear e out "").Quiet ∧ (t.hear e out "").arguments = t.arguments := by
  have hsame : (t.hear e out "").arguments = t.arguments := by
    show (if out.argumentsString ≠ "" then out.argumentsString else t.arguments ++ "") = _
    rw [String.append_empty]
    rcases hargs with hargs | hargs
    · simp [hargs]
    · rw [hargs, ite_self]
  exact ⟨⟨h.sent, hsame ▸ h.argsSentAt, .inr hname⟩, hsame⟩

/-- What a replayed tool item leaves as it was. -/
structure Replayed (q q' : ResponsesToChatState) : Prop where
  allSent : AllSent q'
  sawToolCall : q'.sawToolCall = q.sawToolCall
  finalized : q'.finalized = q.finalized
  hasSentText : q'.hasSentText = q.hasSentText
  hasSentReasoning : q'.hasSentReasoning = q.hasSentReasoning
  known : ∀ out n, KnownTool q out n → KnownTool q' out n

theorem replayed_tool (h : AllSent q) (hk : KnownTool q out n) :
    ∃ q', q.toolItem (replayEvent out) = (q', []) ∧ Replayed q q' := by
  obtain ⟨byKey, hplace, hbyKey⟩ := toolForKey_known hk { key := .item (trimSpace out.id) }
  obtain ⟨t, htn, hquiet, hname, hargs⟩ := hk.sent
  have hitem : (replayEvent out).item = some out := rfl
  have hwaited : ResponsesToChatState.waited { q with toolByKey := byKey } (replayEvent out) = "" := by
    show "" ++ waitingFor q.pendingArgsByItemId _ = ""
    rw [waitingFor_eq _ (w := fun _ => "") fun y => h.waits (.item y)]
    cases filled (replayEvent out).eventItemId <;> rfl
  obtain ⟨hquiet', hargs'⟩ := quiet_heard hquiet hname hargs (replayEvent out)
  rw [toolItem_eq hitem (if_pos hk.id) hplace, hwaited]
  set q₂ := (ResponsesToChatState.noted { q with toolByKey := byKey } (.item (trimSpace out.id))
    (replayEvent out) out).modifyTool n (·.hear (replayEvent out) out "")
  have htool : q₂.tools[n]? = some (t.hear (replayEvent out) out "") := getElem?_modify_self htn _
  refine ⟨_, toolDelta_quiet htool hquiet', ?_⟩
  -- what has been sent stays so, in this tool and in every other
  have hkept : ∀ (m : Nat) (t' : StreamTool), q.tools[m]? = some t' → t'.Quiet →
      ∃ t'', q₂.tools[m]? = some t'' ∧ t''.Quiet ∧ t''.nameSent = t'.nameSent ∧
        t''.arguments = t'.arguments := by
    intro m t' ht' hq'
    rcases eq_or_ne m n with rfl | hne
    · obtain rfl := Option.mem_unique htn ht'
      exact ⟨_, htool, hquiet', rfl, hargs'⟩
    · exact ⟨t', (getElem?_modify_of_ne hne _).trans ht', hq', rfl, rfl⟩
  have hbyItem : ∀ y, q₂.itemIdToKey.lookup y
      = if y = trimSpace out.id then some (.item (trimSpace out.id)) else q.itemIdToKey.lookup y := by
    intro y
    refine (lookup_noteEntry _ _ _ y).trans ?_
    rw [eventItemId_replayEvent hk.id, filled, if_neg hk.id]
    simp only [Option.some_inj, eq_comm]
  refine ⟨⟨fun k => ?_, fun k m hm => ?_⟩, rfl, rfl, rfl, rfl, fun out' m hk' => ?_⟩
  · cases k with
    | output i => exact h.waits (.output i)
    | item y =>
      refine (lookup_takeEntry _ (w := fun _ => "") (fun z => h.waits (.item z)) y).trans ?_
      rw [show q.pendingArgsByItemId.lookup y = none from h.waits (.item y), ite_self]
    | call => rfl
  · have hold : ∃ t', q.tools[m]? = some t' ∧ t'.Quiet := by
      replace hm := (hbyKey k).symm.trans hm
      split_ifs at hm
      · exact ⟨t, Option.some.inj hm ▸ htn, hquiet⟩
      · exact h.tools k m hm
    obtain ⟨t', ht', hq'⟩ := hold
    obtain ⟨t'', ht'', hq'', -⟩ := hkept m t' ht' hq'
    exact ⟨t'', ht'', hq''⟩
  · obtain ⟨t', ht', hq', hname', hargs'⟩ := hk'.sent
    obtain ⟨t'', ht'', hq'', hsame, hargs''⟩ := hkept m t' ht' hq'
    have hsame' : trimSpace out'.id = trimSpace out.id → m = n := by
      intro heq
      have hleads := hk'.leads
      rw [heq, hk.leads] at hleads
      exact (Option.some.inj hleads).symm
    refine ⟨hk'.id, ?_, fun n' hn' => ?_, t'', ht'', hq'', hsame.trans hname', hargs''.symm ▸ hargs'⟩
    · rw [hbyItem]
      split_ifs with heq
      · rw [Option.bind_some, hsame' heq]
        exact (hbyKey _).trans (if_pos rfl)
      obtain ⟨k, hk₁, hk₂⟩ := Option.bind_eq_some_iff.mp hk'.leads
      rw [hk₁, Option.bind_some]
      refine (hbyKey k).trans ?_
      split_ifs with hkey
      · rw [hk.byKey m (hkey ▸ hk₂)]
      · exact hk₂
    · replace hn' := (hbyKey _).symm.trans hn'
      split_ifs at hn' with heq
      · obtain rfl := Option.some.inj hn'
        exact (hsame' (ToolKey.item.inj heq)).symm
      · exact hk'.byKey n' hn'

/-- An output item that the replay has nothing to send for. -/
structure Silent (q : ResponsesToChatState) (out : ResponsesOutput) : Prop where
  message : out.type = .message → q.hasSentText = false → out.outputText = ""
  reasoning : out.type = .reasoning → q.hasSentReasoning = false → out.allText = ""
  tool : out.type.isTool = true → ∃ n, KnownTool q out n

theorem Replayed.refl (h : AllSent q) : Replayed q q := ⟨h, rfl, rfl, rfl, rfl, fun _ _ hk => hk⟩

theorem Replayed.trans {q' q'' : ResponsesToChatState} (h : Replayed q q') (h' : Replayed q' q'') :
    Replayed q q'' :=
  ⟨h'.allSent, h'.sawToolCall.trans h.sawToolCall, h'.finalized.trans h.finalized,
    h'.hasSentText.trans h.hasSentText, h'.hasSentReasoning.trans h.hasSentReasoning,
    fun out n hk => h'.known out n (h.known out n hk)⟩

theorem Replayed.silent {q' : ResponsesToChatState} (h : Replayed q q') (hs : Silent q out) :
    Silent q' out := by
  refine ⟨fun htype hsent => ?_, fun htype hsent => ?_, fun htool => ?_⟩
  · exact hs.message htype (h.hasSentText ▸ hsent)
  · exact hs.reasoning htype (h.hasSentReasoning ▸ hsent)
  · obtain ⟨n, hn⟩ := hs.tool htool
    exact ⟨n, h.known out n hn⟩

theorem replayed_item (h : AllSent q) (hs : Silent q out) :
    ∃ q', q.terminalOutputItem out = (q', []) ∧ Replayed q q' := by
  unfold ResponsesToChatState.terminalOutputItem
  split_ifs with h₁ h₂ h₃
  · refine ⟨q, ?_, .refl h⟩
    rw [hs.message h₁.1 (by simpa using h₁.2)]
    exact if_pos rfl
  · refine ⟨q, ?_, .refl h⟩
    rw [hs.reasoning h₂.1 (by simpa using h₂.2)]
    exact if_pos rfl
  · obtain ⟨n, hn⟩ := hs.tool h₃
    exact replayed_tool h hn
  · exact ⟨q, rfl, .refl h⟩

theorem replayed_run (h : AllSent q) {outs : List ResponsesOutput} (hs : ∀ out ∈ outs, Silent q out) :
    ∃ q', run ResponsesToChatState.terminalOutputItem q outs = (q', []) ∧ Replayed q q' := by
  induction outs generalizing q with
  | nil => exact ⟨q, rfl, .refl h⟩
  | cons out outs ih =>
    obtain ⟨hout, houts⟩ := forall_mem_cons.mp hs
    obtain ⟨q₁, hq₁, hr₁⟩ := replayed_item h hout
    obtain ⟨q₂, hq₂, hr₂⟩ := ih hr₁.allSent fun out hmem => hr₁.silent (houts out hmem)
    refine ⟨q₂, ?_, hr₁.trans hr₂⟩
    rw [run_cons, hq₁, hq₂]
    rfl

end Replay

/-- An output item that repeats what is in the draft: text or reasoning where there
has been some, and tools by an id they have been told under. -/
structure Draft.Knows (b : Draft) (out : ResponsesOutput) : Prop where
  message : out.type = .message → b.text = "" → out.outputText = ""
  reasoning : out.type = .reasoning → b.reasoning = "" → out.allText = ""
  tool : out.type.isTool = true → trimSpace out.id ≠ "" ∧ ∃ x ∈ b.entries, trimSpace out.id ∈ x.ids ∧
    x.name ≠ "" ∧ (out.argumentsString = "" ∨ out.argumentsString = x.args)

section Terminate

variable {q : ResponsesToChatState} {a : Assembly} {b : Draft} {out : ResponsesOutput}

theorem silent_of_knows (h : InStep q a b) (hk : b.Knows out) : Silent q out := by
  have ht := h.tools
  refine ⟨fun htype hsent => ?_, fun htype hsent => ?_, fun htool => ?_⟩
  · exact hk.message htype (by simpa [h.hasSentText] using hsent)
  · exact hk.reasoning htype (by simpa [h.hasSentReasoning] using hsent)
  · obtain ⟨hid, x, hx, hids, hname, hargs⟩ := hk.tool htool
    obtain ⟨n, hn⟩ := mem_iff_getElem?.mp hx
    obtain ⟨t, htn, hsent⟩ := getElem?_of_forall₂ (List.Forall₂.flip ht.tools) hn
    have hplace : place ToolEntry.key b.entries x.key = some n := place_of_getElem? ht.nodup hn rfl
    have hbyItem := (ht.byItem _ _).mpr ⟨hid, x, hx, rfl, hids⟩
    refine ⟨n, hid, ?_, ?_, t, htn, hsent.quiet, ?_, hsent.arguments ▸ hargs⟩
    · rw [hbyItem, Option.bind_some, ht.byKey, hplace]
    · -- a tool that goes by the id as its key has it among its ids
      intro n' hn'
      rw [ht.byKey] at hn'
      have hown := (ht.byItem _ _).mpr ⟨hid, ht.ownItem _ (mem_keys_of_place hn')⟩
      rw [hbyItem, Option.some_inj] at hown
      rw [← hown, hplace] at hn'
      exact (Option.some.inj hn').symm
    · rw [hsent.nameSent, decide_eq_true_eq]
      exact hname

/-- **The last event** of a stream that has told everything adds the finish reason. -/
theorem add_terminate (h : InStep q a b) (hwaiting : ∀ k, b.waiting k = "") {resp : ResponsesResponse}
    (hknows : ∀ out ∈ resp.output, b.Knows out) : a.add (q.terminate (some resp)).2 = { a with
        finishReasons := [(responsesFinishReasonFromStatus (some resp)).getD
          (if b.entries ≠ [] then "tool_calls" else "stop")] } := by
  have hmeta := inStep_metadata h (some resp)
  obtain ⟨q', hq', hr⟩ := replayed_run (hmeta.allSent hwaiting)
    fun out hout => silent_of_knows hmeta (hknows out hout)
  have hrun : (q.applyResponseMetadata (some resp)).terminalOutputChunks (some resp) = (q', []) := hq'
  unfold ResponsesToChatState.terminate
  rw [hrun]
  dsimp only
  rw [nil_append, add_finalize hr.allSent (hr.finalized.trans hmeta.finalized), h.finished, hr.sawToolCall,
    hmeta.tools.sawToolCall]
  simp

end Terminate

/-! ### A stream that tells a message -/

section Told

/-- What an event that fits the draft adds to it. -/
inductive Draft.Hears (b : Draft) (e : ResponsesEvent) : Draft → Prop
  | created (h : e.type = .created) : b.Hears e b
  | text (h : e.type = .outputTextDelta) : b.Hears e { b with text := b.text ++ e.delta }
  | ignored (h : e.type = .outputTextDone ∨ ∃ name, e.type = .other name) : b.Hears e b
  | reasoning (h : e.type = .reasoningSummaryDelta ∨ e.type = .reasoningTextDelta) :
      b.Hears e (b.reason e.delta)
  | reasoningDone (h : e.type = .reasoningSummaryDone ∨ e.type = .reasoningTextDone) :
      b.Hears e { b with partClosed := b.partClosed || decide (b.reasoning ≠ "") }
  | tool {item : ResponsesOutput} {key : ToolKey} (h : e.type = .outputItemAdded ∨ e.type = .outputItemDone)
      (hitem : e.item = some item) (htool : item.type.isTool = true) (hkey : keyForEvent e = some key)
      (hfits : ItemFits b key (e.said item key)) : b.Hears e (b.announce key (e.said item key))
  | item (h : e.type = .outputItemAdded ∨ e.type = .outputItemDone)
      (hitem : e.item.any (·.type.isTool) = false) : b.Hears e b
  | arguments {key : ToolKey} (h : e.type = .functionArgsDelta ∨ e.type = .customToolInputDelta)
      (hitem : e.item = none) (hkey : keyForEvent e = some key) (hfits : ArgumentsFit b key e) :
      b.Hears e (b.argue key e.delta)
  | argumentsDone {key : ToolKey} (h : e.type = .functionArgsDone ∨ e.type = .customToolInputDone)
      (hitem : e.item = none) (hkey : keyForEvent e = some key) (hfits : ArgumentsFit b key e)
      (hin : key ∈ b.keys) : b.Hears e b

/-- Events that lead from one draft to another. -/
inductive Draft.Told : Draft → List ResponsesEvent → Draft → Prop
  | nil (b : Draft) : b.Told [] b
  | cons {b b' b'' : Draft} {e : ResponsesEvent} {events : List ResponsesEvent} (h : b.Hears e b')
      (hrest : b'.Told events b'') : b.Told (e :: events) b''

variable {e : ResponsesEvent} {events : List ResponsesEvent} {b b' : Draft}

theorem Draft.Hears.carries (h : b.Hears e b') : Carries [e] b b' := by
  cases h with
  | created h => exact carries_created h b
  | text h => exact carries_text h b
  | ignored h => exact carries_ignored h b
  | reasoning h => exact carries_reasoning h b
  | reasoningDone h => exact carries_reasoningDone h b
  | tool h hitem htool hkey hfits => exact carries_item h hitem htool hkey hfits
  | item h hitem => exact carries_other_item h hitem b
  | arguments h hitem hkey hfits => exact carries_arguments h hitem hkey hfits
  | argumentsDone h hitem hkey hfits hin => exact carries_argumentsDone h hitem hkey hfits hin

theorem Draft.Told.carries (h : b.Told events b') : Carries events b b' := by
  induction h with
  | nil b => exact carries_nil b
  | cons h _ ih => exact h.carries.cons ih

/-- A call of `f`. -/
def someCall : ResponsesOutput := { type := .functionCall, id := "i", callId := "c", name := "f" }

/-- Reasoning in two parts, text, and a call whose arguments begin before it. -/
def someEvents : List ResponsesEvent :=
  [{ type := .created }, { type := .other "response.in_progress" },
    { type := .reasoningSummaryDelta, delta := "p" }, { type := .reasoningSummaryDone },
    { type := .reasoningTextDelta, delta := "q" }, { type := .reasoningTextDone },
    { type := .functionArgsDelta, outputIndex := some 1, delta := "1" },
    { type := .outputTextDelta, delta := "t" }, { type := .outputTextDone },
    { type := .outputItemAdded, outputIndex := some 1, item := some someCall },
    { type := .functionArgsDelta, outputIndex := some 1, delta := "2" },
    { type := .functionArgsDone, outputIndex := some 1 },
    { type := .outputItemDone, outputIndex := some 1,
      item := some { someCall with arguments := .string "12" } }]

/-- The response that ends the stream. -/
def someResponse : ResponsesResponse where
  output :=
    [{ type := .reasoning, content := [{ type := "summary_text", text := "p" },
        { type := "summary_text", text := "q" }] },
      { type := .message, content := [{ type := "output_text", text := "t" }] },
      { someCall with arguments := .string "12" }]

end Told

/-! ### Both converters and the draft -/

/-- A finish reason has been heard. -/
def Finished (heard : List ChatMove) : Prop := ∃ reason, act (.finish reason) ∈ heard

/-- A tool of the first converter and its entry in the draft.  Every id that was
used for it belongs to its index, and the draft knows a closed tool by its id. -/
structure Linked (own : String → Int → Prop) (t : ChatTool) (e : ToolEntry) : Prop where
  key : e.key = .output t.outputIndex
  args : e.args = t.arguments
  name : e.name ≠ ""
  owner : own t.id t.chatIndex
  trimmed : trimSpace t.id = t.id
  id : t.id ≠ ""
  ids : ∀ x, x ∈ e.ids ∨ x ∈ e.calls → own x t.chatIndex
  done : t.done = true → t.id ∈ e.ids

/-- A tool call as a client of the chunks knows it, and its entry in the draft. -/
structure Retold (u : AssembledTool) (e : ToolEntry) : Prop where
  id : e.id = trimSpace u.id
  name : e.name = trimSpace u.name
  args : e.args = u.arguments
  idSome : u.id ≠ ""
  nameSome : u.name ≠ ""

/-- The first converter and a client after the moves heard, and the draft. -/
structure RoundTrip (own : String → Int → Prop) (heard : List ChatMove) (s : ChatToResponsesState)
    (a : Assembly)
    (b : Draft) : Prop where
  coherent : s.Coherent
  text : b.text = s.text
  reasoning : b.reasoning = s.reasoning
  heardText : a.text = s.text
  heardReasoning : a.reasoning = s.reasoning
  indices : a.tools.map AssembledTool.index = s.toolsByIndex.map ChatTool.chatIndex
  retold : List.Forall₂ Retold a.tools b.entries
  linked : List.Forall₂ (Linked own) s.toolsByIndex b.entries
  waiting : ∀ k, b.waiting k = ""
  partClosed : b.partClosed = true → Finished heard
  done : ∀ t ∈ s.toolsByIndex, t.done = true → Finished heard
  heard : ∀ c, act (.tool c) ∈ heard → (s.tool? (c.index.getD 0)).isSome

section Links

variable {own : String → Int → Prop} {s : ChatToResponsesState} {t : ChatTool} {b : Draft}
  {e : ToolEntry} {n : Nat}

theorem nodup_outputKeys (hc : s.Coherent) :
    (s.toolsByIndex.map fun t => ToolKey.output t.outputIndex).Nodup := by
  refine List.Nodup.map_on ?_ (List.Nodup.of_map _ hc.toolsNodup)
  intro x hx y hy hxy
  have hout : x.outputIndex = y.outputIndex := by simpa using hxy
  have hplace := hc.tools x hx
  rw [hout, hc.tools y hy] at hplace
  have hindex : y.chatIndex = x.chatIndex := OutputRef.tool.inj (Option.some.inj hplace)
  exact inj_on_of_nodup_map hc.toolsNodup hx hy hindex.symm

section Linked

variable (hl : List.Forall₂ (Linked own) s.toolsByIndex b.entries)

include hl

theorem keys_of_linked :
    b.keys = s.toolsByIndex.map fun t => ToolKey.output t.outputIndex := by
  unfold Draft.keys
  generalize s.toolsByIndex = tools at hl
  generalize b.entries = entries at hl
  induction hl with
  | nil => rfl
  | cons hte _ ih => rw [map_cons, map_cons, ih, hte.key]

theorem nodup_keys_of_linked (hc : s.Coherent) :
    (b.entries.map ToolEntry.key).Nodup := by
  rw [show b.entries.map ToolEntry.key = b.keys from rfl, keys_of_linked hl]
  exact nodup_outputKeys hc

theorem place_of_linked (hc : s.Coherent) (hn : s.toolsByIndex[n]? = some t) :
    place ToolEntry.key b.entries (.output t.outputIndex) = some n := by
  obtain ⟨e, he, hlink⟩ := getElem?_of_forall₂ hl hn
  exact place_of_getElem? (nodup_keys_of_linked hl hc) he hlink.key

theorem tool_of_own (hown : Relator.RightUnique own) {x : String} {j : Int} (hx : own x j) (he : e ∈ b.entries)
    (hxe : x ∈ e.ids ∨ x ∈ e.calls) : ∃ t ∈ s.toolsByIndex, t.chatIndex = j ∧
      e.key = .output t.outputIndex := by
  obtain ⟨n, hn⟩ := mem_iff_getElem?.mp he
  obtain ⟨t, ht, hlink⟩ := getElem?_of_forall₂ (List.Forall₂.flip hl) hn
  exact ⟨t, mem_of_getElem? ht, hown (hlink.ids x hxe) hx, hlink.key⟩

theorem key_of_own (hc : s.Coherent) (hown : Relator.RightUnique own) (ht : t ∈ s.toolsByIndex) {x : String}
    (hx : own x t.chatIndex) (he : e ∈ b.entries) (hxe : x ∈ e.ids ∨ x ∈ e.calls) :
    e.key = .output t.outputIndex := by
  obtain ⟨t', ht', hindex, hkey⟩ := tool_of_own hl hown hx he hxe
  rw [hkey, inj_on_of_nodup_map hc.toolsNodup ht' ht hindex]

end Linked

theorem toolsByIndex_setTool (hc : s.Coherent) (hn : s.toolsByIndex[n]? = some t) (change : ChatTool → ChatTool)
    (hchange : (change t).chatIndex = t.chatIndex) :
    (s.setTool (change t)).toolsByIndex = s.toolsByIndex.modify n change := by
  apply ext_getElem?
  intro m
  show (s.toolsByIndex.map fun x => if x.chatIndex = (change t).chatIndex then change t else x)[m]? = _
  rw [getElem?_map]
  rcases eq_or_ne m n with rfl | hne
  · rw [getElem?_modify_self hn, hn, Option.map_some, if_pos hchange.symm]
  rw [getElem?_modify_of_ne hne]
  rcases hm : s.toolsByIndex[m]? with - | x
  · rfl
  rw [Option.map_some, if_neg]
  -- no two tools have one index
  intro hsame
  have hx := place_of_getElem? hc.toolsNodup hm (hsame.trans hchange)
  rw [place_of_getElem? hc.toolsNodup hn rfl] at hx
  exact hne (Option.some.inj hx).symm

end Links

/-! ### Moves -/

/-- What a client makes of a move; finish reasons are left out. -/
def Assembly.addMove (a : Assembly) : ChatMove → Assembly
  | .chunk _ => a
  | .act (.reasoning d) => { a with reasoning := a.reasoning ++ d }
  | .act (.text d) => { a with text := a.text ++ d }
  | .act (.tool c) => { a with tools := addToolCall a.tools c }
  | .act (.finish _) => a

/-- A move after others, where ids belong to indices.  A tool brings an id and a
name when it is new; after a finish reason there is no more reasoning and no new id
for an index. -/
def Agreed (own : String → Int → Prop) (heard : List ChatMove) : ChatMove → Prop
  | .chunk _ => True
  | .act (.reasoning d) => d ≠ "" ∧ ¬ Finished heard
  | .act (.text d) => d ≠ ""
  | .act (.tool c) =>
    (trimSpace c.id ≠ "" → own (trimSpace c.id) (c.index.getD 0)) ∧
      ((∀ c', act (.tool c') ∈ heard → c'.index.getD 0 ≠ c.index.getD 0) →
        trimSpace c.id ≠ "" ∧ trimSpace c.name ≠ "") ∧
      (Finished heard → trimSpace c.id ≠ "" → ∀ x, own x (c.index.getD 0) → x = trimSpace c.id)
  | .act (.finish _) => True

variable {m : ChatMove} {t : ChatTool} {e : ToolEntry} {c : ToolCallResponse} {u : AssembledTool} {d : String}

section Moves

variable {own : String → Int → Prop} {heard : List ChatMove} {s : ChatToResponsesState}
  {a : Assembly} {b : Draft} {closed : List ChatTool}

theorem Finished.concat (h : Finished heard) (m : ChatMove) : Finished (heard ++ [m]) := by
  obtain ⟨reason, hreason⟩ := h
  exact ⟨reason, mem_append_left _ hreason⟩

theorem RoundTrip.hear (h : RoundTrip own heard s a b) (hm : ∀ c, m ≠ .act (.tool c)) :
    RoundTrip own (heard ++ [m]) s a b := by
  refine { h with
    partClosed := fun hp => (h.partClosed hp).concat _
    done := fun t ht hd => (h.done t ht hd).concat _
    heard := fun c hc => ?_ }
  rcases mem_append.mp hc with hc | hc
  · exact h.heard c hc
  · exact absurd (mem_singleton.mp hc).symm (hm c)

theorem carries_argumentsDelta (t : ChatTool) (d : String)
    (hfits : trimSpace t.id ≠ "" → ∀ x ∈ b.entries, trimSpace t.id ∈ x.ids → x.key = .output t.outputIndex) :
    Carries (t.argumentsDelta d) b (b.argue (.output t.outputIndex) d) := by
  unfold ChatTool.argumentsDelta
  split_ifs with hd
  · exact carries_arguments (.inl rfl) rfl rfl hfits
  · rw [not_not.mp hd, argue_empty]
    exact carries_nil b

theorem Linked.update (h : Linked own t e) (hindex : t.chatIndex = c.index.getD 0)
    (hown : trimSpace c.id ≠ "" → own (trimSpace c.id) (c.index.getD 0))
    (hdone : t.done = true → trimSpace c.id ≠ "" → ∀ x, own x (c.index.getD 0) → x = trimSpace c.id) :
    Linked own (t.update c) { e with args := e.args ++ c.arguments } := by
  have hid : own (t.update c).id t.chatIndex ∧ trimSpace (t.update c).id = (t.update c).id ∧
      (t.update c).id ≠ "" ∧ (t.done = true → (t.update c).id ∈ e.ids) := by
    dsimp only [ChatTool.update]
    split_ifs with hc
    · refine ⟨hindex ▸ hown hc, trimSpace_trimSpace c.id, hc, fun hd => ?_⟩
      rw [← hdone hd hc t.id (hindex ▸ h.owner)]
      exact h.done hd
    · exact ⟨h.owner, h.trimmed, h.id, h.done⟩
  obtain ⟨howner, htrimmed, hne, hclosed⟩ := hid
  rw [← chatIndex_update t c] at howner
  refine ⟨?_, ?_, h.name, howner, htrimmed, hne, ?_, hclosed⟩
  · rw [outputIndex_update]
    exact h.key
  · rw [arguments_update, h.args]
  · rw [chatIndex_update]
    exact h.ids

theorem Retold.merge (h : Retold u e) (c : ToolCallResponse) :
    Retold (u.merge c) { e with args := e.args ++ c.arguments } := by
  have hid : (u.merge c).id = u.id := if_neg h.idSome
  have hname : (u.merge c).name = u.name := if_neg h.nameSome
  exact ⟨h.id.trans (congrArg trimSpace hid.symm), h.name.trans (congrArg trimSpace hname.symm),
    congrArg (· ++ c.arguments) h.args, hid ▸ h.idSome, hname ▸ h.nameSome⟩

theorem getElem?_of_tool? {j : Int} (h : s.tool? j = some t) :
    ∃ n : Nat, s.toolsByIndex[n]? = some t :=
  mem_iff_getElem?.mp (mem_of_tool? h)

/-- What an item event for a tool says. -/
def ChatTool.said (t : ChatTool) (args : String) : ItemSaid where
  chatId := t.id
  itemId := t.id
  callId := t.id
  name := trimSpace t.name
  args := args

section Said

variable {t : ChatTool}

theorem said_added (htrim : trimSpace t.id = t.id) (hid : t.id ≠ "") (key : ToolKey) :
    t.added.said { type := .functionCall, id := t.id, status := "in_progress", callId := t.id, name := t.name,
                   arguments := .string "" } key = t.said "" := by
  simp only [ResponsesEvent.said, ChatTool.said, ResponsesEvent.eventItemId, ChatTool.added,
    ResponsesOutput.argumentsString, RawMessage.toText, htrim, hid, ne_eq, not_false_eq_true, if_true]

/-- The event that closes a tool. -/
def ChatTool.itemDone (t : ChatTool) (status : String) : ResponsesEvent where
  type := .outputItemDone
  outputIndex := some t.outputIndex
  item := some (t.output status)

theorem said_itemDone (htrim : trimSpace t.id = t.id) (hid : t.id ≠ "") (status : String) (key : ToolKey) :
    (t.itemDone status).said (t.output status) key = t.said t.arguments := by
  simp only [ResponsesEvent.said, ChatTool.said, ResponsesEvent.eventItemId, ChatTool.itemDone, ChatTool.output,
    ResponsesOutput.argumentsString, RawMessage.toText, htrim, hid, ne_eq, not_false_eq_true, if_true]

end Said

theorem argue_announce_new {key : ToolKey} (hkey : key ∉ b.keys) (hwaiting : ∀ k, b.waiting k = "")
    (said : ItemSaid)
    (hargs : said.args = "") (d : String) : (b.announce key said).argue key d = { b with
        entries := b.entries ++ [{ said.entry key "" with args := d }]
        waiting := fun _ => "" } := by
  have hplace : place ToolEntry.key b.entries key = none := place_eq_none_iff.mpr hkey
  have hentries : (b.announce key said).entries = b.entries ++ [said.entry key ""] := by
    show upsert ToolEntry.key b.entries key (said.entry key (b.waiting key)) _ = _
    rw [upsert_of_none hplace, hwaiting]
  have hwait : (b.announce key said).waiting = fun _ => "" := by
    funext k
    show Function.update b.waiting key "" k = ""
    rcases eq_or_ne k key with rfl | hne
    · rw [Function.update_self]
    · rw [Function.update_of_ne hne, hwaiting]
  have hplace' : place ToolEntry.key (b.announce key said).entries key = some b.entries.length := by
    have hfresh : (said.entry key "").key ∉ b.entries.map ToolEntry.key := hkey
    rw [hentries, place_concat hfresh]
    exact if_pos rfl
  have hnew : (said.entry key "").args = "" := by
    show (if said.args ≠ "" then said.args else "") = ""
    rw [hargs, ite_self]
  rw [argue_of_some hplace', hentries, modify_concat, hnew, hwait]
  rfl

theorem newTool_of_id (hid : trimSpace c.id ≠ "") (j : Int) :
    (s.newTool j c).id = trimSpace c.id ∧ (s.newTool j c).name = trimSpace c.name := by
  simp only [newTool, hid, if_false, and_self]

/-! ### Closing -/

/-- What closing one tool leaves as it was, given the tools that have been closed already. -/
structure ToolsClosed (own : String → Int → Prop) (s : ChatToResponsesState) (a : Assembly)
    (closed : List ChatTool)
    (b : Draft) : Prop where
  linked : List.Forall₂ (fun t e => Linked own t e ∧ (t ∈ closed → t.id ∈ e.ids)) s.toolsByIndex b.entries
  retold : List.Forall₂ Retold a.tools b.entries
  waiting : ∀ k, b.waiting k = ""

theorem ToolsClosed.links (h : ToolsClosed own s a closed b) :
    List.Forall₂ (Linked own) s.toolsByIndex b.entries :=
  h.linked.imp fun _ _ hlink => hlink.1

theorem Linked.hear (h : Linked own t e) : Linked own t (e.hear (t.said t.arguments)) := by
  refine ⟨h.key, ?_, ?_, h.owner, h.trimmed, h.id, ?_, fun _ => mem_cons_self⟩
  · show (if t.arguments ≠ "" then t.arguments else e.args) = t.arguments
    rw [h.args, ite_self]
  · show (if e.name = "" then trimSpace t.name else e.name) ≠ ""
    rw [if_neg h.name]
    exact h.name
  · intro x hx
    by_cases hxt : x = t.id
    · rw [hxt]
      exact h.owner
    · exact h.ids x (hx.imp (fun hx => (mem_cons.mp hx).resolve_left hxt)
        fun hx => (mem_cons.mp hx).resolve_left hxt)

theorem Retold.hear (h : Retold u e) (hlink : Linked own t e) :
    Retold u (e.hear (t.said t.arguments)) := by
  have hname : (e.hear (t.said t.arguments)).name = e.name := if_neg hlink.name
  have hargs : (e.hear (t.said t.arguments)).args = e.args := by
    show (if t.arguments ≠ "" then t.arguments else e.args) = e.args
    rw [hlink.args, ite_self]
  exact ⟨h.id, hname.trans h.name, hargs.trans h.args, h.idSome, h.nameSome⟩

theorem carries_doneEvents (hc : s.Coherent) (hown : Relator.RightUnique own)
    (h : ToolsClosed own s a closed b) (ht : t ∈ s.toolsByIndex) (status : String) :
    ∃ entries, Carries (t.doneEvents status) b { b with entries := entries } ∧
      ToolsClosed own s a (closed ++ [t]) { b with entries := entries } := by
  obtain ⟨n, hn⟩ := mem_iff_getElem?.mp ht
  obtain ⟨e, he, hlink, -⟩ := getElem?_of_forall₂ h.linked hn
  have hplace := place_of_linked h.links hc hn
  have hin : ToolKey.output t.outputIndex ∈ b.keys := mem_keys_of_place hplace
  have hkey : ∀ x ∈ b.entries, t.id ∈ x.ids ∨ t.id ∈ x.calls → x.key = .output t.outputIndex :=
    fun x hx hmem => key_of_own h.links hc hown ht hlink.owner hx hmem
  have hfits : ItemFits b (.output t.outputIndex) (t.said t.arguments) := by
    refine ⟨fun _ x hx hmem => hkey x hx (.inl hmem), fun _ x hx hmem => hkey x hx (.inr hmem),
      fun _ _ => h.waiting _, fun _ x hx hxk => ⟨"", ?_⟩⟩
    -- the arguments are those that are known
    obtain ⟨m, hm⟩ := mem_iff_getElem?.mp hx
    have hplace' := place_of_getElem? (nodup_keys_of_linked h.links hc) hm hxk
    rw [hplace] at hplace'
    obtain rfl := Option.some.inj hplace'
    obtain rfl := Option.mem_unique he hm
    rw [String.append_empty, hlink.args]
    rfl
  have hannounce : b.announce (.output t.outputIndex) (t.said t.arguments)
      = { b with entries := b.entries.modify n (·.hear (t.said t.arguments)) } := by
    have hwaiting : Function.update b.waiting (.output t.outputIndex) "" = b.waiting := by
      rw [← h.waiting (.output t.outputIndex), Function.update_eq_self]
    unfold Draft.announce
    rw [upsert_of_some hplace, hwaiting]
  refine ⟨b.entries.modify n (·.hear (t.said t.arguments)), ?_, ?_⟩
  · rw [← hannounce]
    have hargsDone : Carries
        [{ type := .functionArgsDone, outputIndex := some t.outputIndex, itemId := t.id }] b b := by
      refine carries_argumentsDone (.inl rfl) rfl rfl (fun _ x hx hmem => ?_) hin
      have hmem' : trimSpace t.id ∈ x.ids := hmem
      rw [hlink.trimmed] at hmem'
      exact hkey x hx (.inl hmem')
    have hitemDone : Carries [t.itemDone status] b
      (b.announce (.output t.outputIndex) (t.said t.arguments)) := by
      have hsaid := said_itemDone hlink.trimmed hlink.id status (.output t.outputIndex)
      rw [← hsaid] at hfits ⊢
      exact carries_item (.inr rfl) rfl rfl rfl hfits
    exact hargsDone.cons hitemDone
  · refine ⟨?_, ?_, h.waiting⟩
    · refine forall₂_modify_right h.linked hn (fun y hy hty => ⟨hty.1.hear, fun _ => mem_cons_self⟩) ?_
      intro m t' y hne ht' hty
      refine ⟨hty.1, fun hmem => hty.2 ?_⟩
      refine (mem_append.mp hmem).resolve_right fun hlast => ?_
      obtain rfl := mem_singleton.mp hlast
      have hm := place_of_getElem? hc.toolsNodup ht' rfl
      rw [place_of_getElem? hc.toolsNodup hn rfl] at hm
      exact hne (Option.some.inj hm).symm
    · obtain ⟨u, hu, -⟩ := getElem?_of_forall₂ (List.Forall₂.flip h.retold) he
      refine forall₂_modify_right h.retold hu (fun y hy huy => ?_) fun _ _ _ _ _ huy => huy
      obtain rfl := Option.mem_unique he hy
      exact huy.hear hlink

theorem carries_allDone (hc : s.Coherent) (hown : Relator.RightUnique own)
    (h : ToolsClosed own s a closed b) {ts : List ChatTool} (hts : ∀ t ∈ ts, t ∈ s.toolsByIndex)
    (status : String) :
    ∃ entries, Carries (ts.flatMap (·.doneEvents status)) b { b with entries := entries } ∧
      ToolsClosed own s a (closed ++ ts) { b with entries := entries } := by
  induction ts generalizing b closed with
  | nil =>
    rw [append_nil]
    exact ⟨b.entries, carries_nil b, h⟩
  | cons t ts ih =>
    obtain ⟨ht, hts⟩ := forall_mem_cons.mp hts
    obtain ⟨entries, hcarries, hclosed⟩ := carries_doneEvents hc hown h ht status
    obtain ⟨entries', hcarries', hclosed'⟩ := ih hclosed hts
    refine ⟨entries', hcarries.append hcarries', ?_⟩
    rw [append_assoc] at hclosed'
    exact hclosed'

theorem carries_textDoneEvents (s : ChatToResponsesState) (b : Draft) : Carries s.textDoneEvents b b := by
  unfold textDoneEvents
  split_ifs
  · exact (carries_ignored (.inl rfl) b).cons (carries_other_item (.inr rfl) rfl b)
  · exact carries_nil b

theorem carries_reasoningDoneEvents (s : ChatToResponsesState) (b : Draft) :
    ∃ partClosed, Carries s.reasoningDoneEvents b { b with partClosed := partClosed } := by
  unfold reasoningDoneEvents
  split_ifs
  · exact ⟨_, (carries_reasoningDone (.inl rfl) b).cons (carries_other_item (.inr rfl) rfl _)⟩
  · exact ⟨b.partClosed, carries_nil b⟩

/-- A move after which a draft is still in step with both converters and the client. -/
def Together (own : String → Int → Prop) (heard : List ChatMove) (s : ChatToResponsesState)
    (a : Assembly) (b : Draft)
    (m : ChatMove) : Prop :=
  ∃ b', Carries (s.move m).2 b b' ∧ RoundTrip own (heard ++ [m]) (s.move m).1 (a.addMove m) b'

section Trip

variable (h : RoundTrip own heard s a b)

include h

theorem together_chunk (chunk : ChatChunk) : Together own heard s a b (.chunk chunk) := by
  refine ⟨b, ?_, { h.hear (by simp) with coherent := { h.coherent with } }⟩
  show Carries (s.identify chunk).createdEvents b b
  unfold createdEvents
  split_ifs
  · exact carries_nil b
  · exact carries_created rfl b

theorem together_text (hd : d ≠ "") : Together own heard s a b (.act (.text d)) := by
  refine ⟨{ b with text := b.text ++ d }, ?_⟩
  show Carries (s.appendTextDelta d).2 b _ ∧ RoundTrip own _ (s.appendTextDelta d).1 _ _
  obtain ⟨n, hdelivered⟩ := delivered_text h.coherent hd
  have hc := hdelivered.coherent
  have htext := congrArg (· ++ d) h.text
  have hheard := congrArg (· ++ d) h.heardText
  rcases hs : s.textStarted with - | - <;> simp only [ChatToResponsesState.appendTextDelta, hs] at hc ⊢ <;>
    refine ⟨?_, { h.hear (by simp) with coherent := hc, text := htext, heardText := hheard }⟩
  · exact (carries_other_item (.inl rfl) rfl b).cons (carries_text rfl b)
  · exact carries_text rfl b

theorem together_reasoning (hd : d ≠ "") (hopen : ¬ Finished heard) :
    Together own heard s a b (.act (.reasoning d)) := by
  refine ⟨{ b with reasoning := b.reasoning ++ d }, ?_⟩
  show Carries (s.appendReasoningDelta d).2 b _ ∧ RoundTrip own _ (s.appendReasoningDelta d).1 _ _
  obtain ⟨n, hdelivered⟩ := delivered_reasoning h.coherent hd
  have hc := hdelivered.coherent
  have hclosed : b.partClosed = false := by
    rw [← Bool.not_eq_true]
    exact fun hp => hopen (h.partClosed hp)
  have hcarries : ∀ e : ResponsesEvent, e.type = .reasoningSummaryDelta →
      Carries [e] b { b with reasoning := b.reasoning ++ e.delta } := by
    intro e he
    rw [← reason_of_open hclosed]
    exact carries_reasoning (.inl he) b
  have hreasoning := congrArg (· ++ d) h.reasoning
  have hheard := congrArg (· ++ d) h.heardReasoning
  rcases hs : s.reasoningStarted with - | - <;>
    simp only [ChatToResponsesState.appendReasoningDelta, hs] at hc ⊢ <;>
    refine ⟨?_, { h.hear (by simp) with coherent := hc, reasoning := hreasoning, heardReasoning := hheard }⟩
  · exact (carries_other_item (.inl rfl) rfl b).cons (hcarries _ rfl)
  · exact hcarries _ rfl

/-! ### Tool calls -/

theorem place_index (j : Int) :
    place AssembledTool.index a.tools j = place ChatTool.chatIndex s.toolsByIndex j :=
  place_congr h.indices j

theorem not_mem_keys_new : ToolKey.output s.nextOutputIndex ∉ b.keys := by
  rw [keys_of_linked h.linked]
  intro hmem
  obtain ⟨t, ht, hkey⟩ := mem_map.mp hmem
  have hindex : t.outputIndex = s.nextOutputIndex := by simpa using hkey
  have hplace := h.coherent.tools t ht
  rw [hindex, h.coherent.next, getElem?_eq_none (le_refl _)] at hplace
  cases hplace

theorem heard_tool {s' : ChatToResponsesState} {n : Nat} {events : List ResponsesEvent}
    (hs' : Delivered s s' (.tool (c.index.getD 0)) d n events) (c' : ToolCallResponse)
    (hc' : .act (.tool c') ∈ heard ++ [.act (.tool c)]) : (s'.tool? (c'.index.getD 0)).isSome := by
  rw [← mem_iff_tool? hs'.coherent]
  rcases mem_append.mp hc' with hc' | hc'
  · have hmem := (mem_iff_tool? h.coherent _).mpr (h.heard c' hc')
    rw [hs'.order]
    split_ifs
    · exact hmem
    · exact mem_append_left _ hmem
  · obtain rfl : c' = c := by simpa using hc'
    exact mem_of_getElem? hs'.place

variable (hown : Relator.RightUnique own)

include hown

section Tool

variable {c : ToolCallResponse} (hagreed : Agreed own heard (.act (.tool c)))

include hagreed

theorem together_tool_known (ht : s.tool? (c.index.getD 0) = some t) :
    Together own heard s a b (.act (.tool c)) := by
  refine ⟨b.argue (.output t.outputIndex) c.arguments, ?_⟩
  show Carries (s.appendToolCallDelta c).2 b _ ∧ RoundTrip own _ (s.appendToolCallDelta c).1 _ _
  obtain ⟨hid, -, hclosed⟩ := hagreed
  obtain ⟨n, hn⟩ := getElem?_of_tool? ht
  have hindex := chatIndex_of_tool? ht
  obtain ⟨e, he, hlink⟩ := getElem?_of_forall₂ h.linked hn
  have hplace := place_of_linked h.linked h.coherent hn
  have htools := toolsByIndex_setTool h.coherent hn (·.update c) (chatIndex_update t c)
  obtain ⟨k, hdelivered⟩ := delivered_tool h.coherent c
  have hcoherent := hdelivered.coherent
  have hheard := heard_tool h hdelivered
  have hlink' : Linked own (t.update c) { e with args := e.args ++ c.arguments } :=
    hlink.update hindex hid fun hd => hclosed (h.done t (mem_of_getElem? hn) hd)
  have hassembled : addToolCall a.tools c = a.tools.modify n (·.merge c) := by
    refine upsert_of_some ?_
    rw [place_index h]
    exact place_of_getElem? h.coherent.toolsNodup hn hindex
  simp only [ChatToResponsesState.appendToolCallDelta, ht] at hcoherent hheard ⊢
  constructor
  · have hcarries := carries_argumentsDelta (b := b) (t.update c) c.arguments
    rw [outputIndex_update] at hcarries
    refine hcarries fun _ x hx hmem => ?_
    have howner := hlink'.owner
    rw [hlink'.trimmed] at hmem
    exact key_of_own h.linked h.coherent hown (mem_of_getElem? hn) howner hx (.inl hmem)
  · rw [argue_of_some hplace]
    refine { h with
      coherent := hcoherent
      indices := ?_
      retold := ?_
      linked := ?_
      partClosed := fun hp => (h.partClosed hp).concat _
      done := ?_
      heard := hheard }
    · show (addToolCall a.tools c).map AssembledTool.index = _
      have hkept : ∀ u, a.tools[n]? = some u → (u.merge c).index = u.index := fun _ _ => rfl
      have hkept' : ∀ x, s.toolsByIndex[n]? = some x → (x.update c).chatIndex = x.chatIndex :=
        fun x _ => chatIndex_update x c
      rw [hassembled, htools, map_modify hkept, map_modify hkept']
      exact h.indices
    · show List.Forall₂ Retold (addToolCall a.tools c) _
      rw [hassembled]
      exact forall₂_modify h.retold fun u x _ _ hux => hux.merge c
    · rw [htools]
      refine forall₂_modify h.linked fun x y hx hy _ => ?_
      obtain rfl := Option.mem_unique hn hx
      obtain rfl := Option.mem_unique he hy
      exact hlink'
    · rw [htools]
      intro x hx hd
      rcases mem_modify hx with hx | ⟨y, hy, rfl⟩
      · exact (h.done x hx hd).concat _
      · exact (h.done y (mem_of_getElem? hy) hd).concat _

theorem together_tool_new (ht : s.tool? (c.index.getD 0) = none) :
    Together own heard s a b (.act (.tool c)) := by
  show ∃ b', Carries (s.appendToolCallDelta c).2 b b' ∧ RoundTrip own _ (s.appendToolCallDelta c).1 _ b'
  obtain ⟨hid, hnew, -⟩ := hagreed
  -- the index is new, so this delta brings an id and a name
  obtain ⟨hcid, hcname⟩ := hnew fun c' hc' heq => by
    have hsome := h.heard c' hc'
    rw [heq, ht] at hsome
    cases hsome
  have hfresh : c.index.getD 0 ∉ s.toolsByIndex.map ChatTool.chatIndex := by
    intro hmem
    obtain ⟨t, htmem, htindex⟩ := mem_map.mp hmem
    have := h.coherent.tool?_eq htmem
    rw [htindex, ht] at this
    cases this
  obtain ⟨k, hdelivered⟩ := delivered_tool h.coherent c
  have hcoherent := hdelivered.coherent
  have hheard := heard_tool h hdelivered
  obtain ⟨hindex, hout, hargs, hdone⟩ := newTool_fields s (c.index.getD 0) c
  obtain ⟨htoolId, htoolName⟩ := newTool_of_id (s := s) hcid (c.index.getD 0)
  have hid' := id_update_newTool s (c.index.getD 0) c
  simp only [ChatToResponsesState.appendToolCallDelta, ht] at hcoherent hheard ⊢
  generalize s.newTool (c.index.getD 0) c = t
    at hindex hout hargs hdone htoolId htoolName hid' hcoherent hheard ⊢
  have htrim : trimSpace t.id = t.id := by rw [htoolId, trimSpace_trimSpace]
  have hne : t.id ≠ "" := htoolId ▸ hcid
  have hkeys := not_mem_keys_new h
  rw [← hout] at hkeys
  -- the id of a new index leads to no tool
  have hunused : ∀ x ∈ b.entries, t.id ∈ x.ids ∨ t.id ∈ x.calls → False := by
    intro x hx hmem
    rw [htoolId] at hmem
    obtain ⟨t', ht', hindex', -⟩ := tool_of_own h.linked hown (hid hcid) hx hmem
    exact hfresh (hindex' ▸ mem_map_of_mem ht')
  have hfits : ItemFits b (.output t.outputIndex) (t.said "") :=
    ⟨fun _ x hx hmem => (hunused x hx (.inl hmem)).elim, fun _ x hx hmem => (hunused x hx (.inr hmem)).elim,
      fun _ _ => h.waiting _, fun hempty => absurd rfl hempty⟩
  have hdraft := argue_announce_new hkeys h.waiting (t.said "") rfl c.arguments
  set b₁ := b.announce (.output t.outputIndex) (t.said "") with hb₁
  have hitem : Carries [t.added] b b₁ := by
    have hsaid := said_added htrim hne (.output t.outputIndex)
    rw [← hsaid] at hfits
    rw [hb₁, ← hsaid]
    exact carries_item (.inl rfl) rfl rfl rfl hfits
  have harguments : Carries ((t.update c).argumentsDelta c.arguments)
      b₁
      (b₁.argue (.output t.outputIndex) c.arguments) := by
    have hdelta := carries_argumentsDelta (b := b₁) (t.update c)
      c.arguments
    rw [hid', htrim] at hdelta
    refine hdelta fun _ x hx hmem => ?_
    rcases (uses_announce (fun _ => rfl) fun _ => rfl).mp ⟨x, hx, rfl, hmem⟩ with ⟨y, hy, -, hid⟩ | ⟨hkey, -⟩
    · exact (hunused y hy (.inl hid)).elim
    · exact hkey
  refine ⟨_, hitem.cons harguments, ?_⟩
  have hname : trimSpace t.name = trimSpace c.name := by rw [htoolName, trimSpace_trimSpace]
  have hassembled : addToolCall a.tools c = a.tools ++ [c.assembled] := by
    refine upsert_of_none ?_
    rw [place_index h]
    exact place_eq_none_iff.mpr hfresh
  have hdone' : (t.update c).done = true → False := by
    rw [done_update, hdone]
    exact Bool.false_ne_true
  rw [hdraft]
  refine ⟨hcoherent, h.text, h.reasoning, h.heardText, h.heardReasoning, ?_, ?_, ?_, fun _ => rfl,
    fun hp => (h.partClosed hp).concat _, ?_, hheard⟩
  · show (addToolCall a.tools c).map AssembledTool.index
      = (s.toolsByIndex ++ [t.update c]).map ChatTool.chatIndex
    rw [hassembled, map_append, map_append, h.indices, map_singleton, map_singleton,
      chatIndex_update, hindex]
    rfl
  · show List.Forall₂ Retold (addToolCall a.tools c) _
    rw [hassembled]
    refine forall₂_concat h.retold ⟨htoolId, hname, rfl, ?_, ?_⟩
    · exact fun hempty => hcid (hempty ▸ trimSpace_empty)
    · exact fun hempty => hcname (hempty ▸ trimSpace_empty)
  · refine forall₂_concat h.linked ⟨?_, ?_, ?_, ?_, ?_, ?_, ?_, fun hd => (hdone' hd).elim⟩
    · rfl
    · rw [arguments_update, hargs, String.empty_append]
    · show trimSpace t.name ≠ ""
      rw [hname]
      exact hcname
    · rw [hid', chatIndex_update, hindex, htoolId]
      exact hid hcid
    · rw [hid']
      exact htrim
    · rw [hid']
      exact hne
    · intro x hx
      obtain rfl : x = t.id := by
        rcases hx with hx | hx <;> exact mem_singleton.mp hx
      rw [chatIndex_update, hindex, htoolId]
      exact hid hcid
  · intro x hx hd
    rcases mem_append.mp hx with hx | hx
    · exact (h.done x hx hd).concat _
    · rw [mem_singleton.mp hx] at hd
      exact (hdone' hd).elim

/-- **Tool calls** keep both converters and the draft together. -/
theorem together_tool : Together own heard s a b (.act (.tool c)) := by
  rcases ht : s.tool? (c.index.getD 0) with - | t
  · exact together_tool_new h hown hagreed ht
  · exact together_tool_known h hown hagreed ht

end Tool

/-- **A finish reason**, and the end of the stream. -/
theorem roundTrip_close (reason : String) : ∃ b', Carries s.doneDeltaEvents.2 b b' ∧
      RoundTrip own (heard ++ [.act (.finish reason)]) s.doneDeltaEvents.1 a b' := by
  obtain ⟨partClosed, hreasoning⟩ := carries_reasoningDoneEvents s b
  have hstart : ToolsClosed own s a [] { b with partClosed := partClosed } :=
    ⟨h.linked.imp fun _ _ hlink => ⟨hlink, fun hmem => absurd hmem not_mem_nil⟩, h.retold, h.waiting⟩
  have hopen : ∀ t ∈ s.sortedTools.filter fun t => !t.done, t ∈ s.toolsByIndex :=
    fun t ht => mem_sortedTools.mp (mem_of_mem_filter ht)
  obtain ⟨entries, htools, hclosed⟩ := carries_allDone h.coherent hown hstart hopen s.outputStatus
  have hfinished : Finished (heard ++ [.act (.finish reason)]) := ⟨reason, by simp⟩
  refine ⟨_, ((carries_textDoneEvents s b).append hreasoning).append htools, { h with
    coherent := coherent_doneDeltaEvents h.coherent
    indices := ?_
    retold := hclosed.retold
    linked := ?_
    waiting := hclosed.waiting
    partClosed := fun _ => hfinished
    done := fun _ _ _ => hfinished
    heard := ?_ }⟩
  · show _ = (s.toolsByIndex.map _).map ChatTool.chatIndex
    rw [map_map]
    exact h.indices
  · show List.Forall₂ (Linked own) (s.toolsByIndex.map fun t => { t with done := true }) entries
    rw [forall₂_map_left_iff]
    refine forall₂_of_getElem? hclosed.linked.length_eq fun n t e ht he => ?_
    obtain ⟨e', he', hlink, hids⟩ := getElem?_of_forall₂ hclosed.linked ht
    obtain rfl := Option.mem_unique he he'
    refine { hlink with done := fun _ => ?_ }
    rcases hd : t.done with - | -
    · refine hids (mem_filter.mpr ⟨mem_sortedTools.mpr (mem_of_getElem? ht), ?_⟩)
      rw [hd]
      rfl
    · exact hlink.done hd
  · intro c hmem
    rw [tool?_doneDeltaEvents, Option.isSome_map]
    exact (h.hear (by simp)).heard c hmem

/-! ### Runs -/

/-- **One move** keeps both converters, the client and the draft together. -/
theorem roundTrip_move (hm : Agreed own heard m) : Together own heard s a b m := by
  rcases m with chunk | (d | d | c | reason)
  · exact together_chunk h chunk
  · exact together_reasoning h hm.1 hm.2
  · exact together_text h hm
  · exact together_tool h hown hm
  obtain ⟨status, details, heq⟩ := applyFinishReason_eq s reason
  have h' : RoundTrip own heard { s with status := status, incompleteDetails := details } a b :=
    { h with coherent := { h.coherent with } }
  show ∃ b', Carries (s.applyFinishReason reason).doneDeltaEvents.2 b b' ∧
    RoundTrip own _ (s.applyFinishReason reason).doneDeltaEvents.1 a b'
  rw [heq]
  exact roundTrip_close h' hown reason

theorem roundTrip_run {ms : List ChatMove} (hms : ∀ before m after, ms = before ++ m :: after →
    Agreed own (heard ++ before) m) :
    ∃ b', Carries (run move s ms).2 b b' ∧
      RoundTrip own (heard ++ ms) (run move s ms).1 (ms.foldl Assembly.addMove a) b' := by
  induction ms generalizing heard s a b with
  | nil =>
    rw [append_nil]
    exact ⟨b, carries_nil b, h⟩
  | cons m ms ih =>
    have hm := hms [] m ms rfl
    rw [append_nil] at hm
    obtain ⟨b₁, hcarries₁, h₁⟩ := roundTrip_move h hown hm
    obtain ⟨b₂, hcarries₂, h₂⟩ := ih h₁ fun before m' after heq => by
      have := hms (m :: before) m' after (by rw [heq]; rfl)
      rwa [append_assoc]
    refine ⟨b₂, hcarries₁.append hcarries₂, ?_⟩
    rw [append_assoc] at h₂
    exact h₂

end Trip

theorem roundTrip_new (own : String → Int → Prop) (id model : String) (now : Int) :
    RoundTrip own [] (newChatToResponsesState id model now) {} {} := by
  refine ⟨coherent_new id model now, rfl, rfl, rfl, rfl, rfl, .nil, .nil, fun _ => rfl, ?_, ?_, ?_⟩
  · exact fun hp => absurd hp Bool.false_ne_true
  · exact fun t ht => absurd ht not_mem_nil
  · exact fun c hc => absurd hc not_mem_nil

/-! ### The last event -/

variable {a' : Assembly} {q : ResponsesToChatState}

/-- The draft knows every item of the last event. -/
theorem knows_finalResponse (h : RoundTrip own heard s a b) (hdone : ∀ t ∈ s.toolsByIndex, t.done = true) :
    ∀ out ∈ s.finalResponse.output, b.Knows out := by
  intro out hout
  rw [output_finalResponse h.coherent] at hout
  obtain ⟨ref, href, rfl⟩ := mem_map.mp hout
  rcases ref with - | - | j
  · refine ⟨fun _ hempty => ?_, (by rintro ⟨⟩), (by rintro ⟨⟩)⟩
    rw [← hempty, h.text]
    simp [itemOf, messageOutput, ResponsesOutput.outputText]
  · refine ⟨(by rintro ⟨⟩), fun _ hempty => ?_, (by rintro ⟨⟩)⟩
    rw [← hempty, h.reasoning]
    simp [itemOf, reasoningOutput, ResponsesOutput.allText]
  obtain ⟨t, ht⟩ := Option.isSome_iff_exists.mp (h.coherent.toolsOf j href)
  obtain ⟨n, hn⟩ := getElem?_of_tool? ht
  obtain ⟨e, he, hlink⟩ := getElem?_of_forall₂ h.linked hn
  have hitem : s.itemOf (.tool j) = t.output s.outputStatus := by
    rw [itemOf, ht]
    rfl
  rw [hitem]
  refine ⟨(by rintro ⟨⟩), (by rintro ⟨⟩), fun _ => ⟨?_, e, mem_of_getElem? he, ?_,
    hlink.name, .inr hlink.args.symm⟩⟩
  · show trimSpace t.id ≠ ""
    rw [hlink.trimmed]
    exact hlink.id
  · show trimSpace t.id ∈ e.ids
    rw [hlink.trimmed]
    exact hlink.done (hdone t (mem_of_getElem? hn))

/-- The event that ends the stream of a state. -/
def ChatToResponsesState.lastEvent (s : ChatToResponsesState) : ResponsesEvent where
  type := if s.status = "incomplete" then .incomplete else .completed
  response := some s.finalResponse

theorem convert_lastEvent (q : ResponsesToChatState) (s : ChatToResponsesState) :
    q.convert s.lastEvent = q.terminate (some s.finalResponse) := by
  unfold ChatToResponsesState.lastEvent
  by_cases h : s.status = "incomplete"
  · rw [if_pos h]
    rfl
  · rw [if_neg h]
    rfl

theorem add_lastEvent (h : RoundTrip own heard s a b) (hdone : ∀ t ∈ s.toolsByIndex, t.done = true)
    (hq : InStep q a' b) : a'.add (q.convert s.lastEvent).2 = { a' with
        finishReasons := [(responsesFinishReasonFromStatus (some s.finalResponse)).getD
          (if a.tools ≠ [] then "tool_calls" else "stop")] } := by
  have hempty : b.entries ≠ [] ↔ a.tools ≠ [] := by
    rw [← length_pos_iff, ← length_pos_iff, h.retold.length_eq]
  rw [convert_lastEvent, add_terminate hq h.waiting (knows_finalResponse h hdone)]
  simp only [hempty]

theorem toolView_eq_of_retold {us : List AssembledTool} {entries : List ToolEntry}
    (h : List.Forall₂ Retold us entries) :
    Draft.toolView entries = us.mapIdx fun n u => ⟨n, trimSpace u.id, trimSpace u.name, u.arguments⟩ := by
  apply ext_getElem?
  intro n
  rw [Draft.toolView, getElem?_mapIdx, getElem?_mapIdx]
  rcases hn : us[n]? with - | u
  · have hlen := List.getElem?_eq_none_iff.mp hn
    rw [getElem?_eq_none (h.length_eq ▸ hlen)]
    rfl
  · obtain ⟨e, he, hue⟩ := getElem?_of_forall₂ h hn
    rw [he, Option.map_some, Option.map_some, hue.id, hue.name, hue.args]

end Moves

variable (s : ChatToResponsesState)

/-! ### Streams with their ids in order -/

/-- All deltas of tool calls. -/
def toolDeltas (choices : List StreamChoice) : List ToolCallResponse := choices.flatMap (·.delta.toolCalls)

/-- A choice with a finish reason. -/
def StreamChoice.Finishes (choice : StreamChoice) : Prop := trimSpace (choice.finishReason.getD "") ≠ ""

/-- The first delta of an index brings an id and a name, no id is used for two
indices, and after a finish reason there is no more reasoning and no new id for an
index. -/
structure Identified (choices : List StreamChoice) : Prop where
  named : ∀ before c after, toolDeltas choices = before ++ c :: after →
    (∀ c' ∈ before, c'.index.getD 0 ≠ c.index.getD 0) → trimSpace c.id ≠ "" ∧ trimSpace c.name ≠ ""
  ids : ∀ c ∈ toolDeltas choices, ∀ c' ∈ toolDeltas choices, trimSpace c.id ≠ "" →
    trimSpace c.id = trimSpace c'.id → c.index.getD 0 = c'.index.getD 0
  finished : choices.Pairwise fun x y => x.Finishes → y.delta.getReasoningContent = "" ∧
    ∀ c ∈ y.delta.toolCalls, trimSpace c.id ≠ "" → ∀ c' ∈ toolDeltas choices,
      c'.index.getD 0 = c.index.getD 0 → trimSpace c'.id ≠ "" → trimSpace c'.id = trimSpace c.id

/-- The index that an id is used for. -/
def OwnedIn (choices : List StreamChoice) (x : String) (j : Int) : Prop :=
  ∃ c ∈ toolDeltas choices, trimSpace c.id = x ∧ x ≠ "" ∧ c.index.getD 0 = j

section Inputs

variable {choices : List StreamChoice} {chunks : List ChatChunk} {a a' : Assembly}

theorem Identified.owned (h : Identified choices) : Relator.RightUnique (OwnedIn choices) := by
  rintro x _ _ ⟨c, hc, hcx, hx, rfl⟩ ⟨c', hc', hcx', -, rfl⟩
  exact h.ids c hc c' hc' (hcx ▸ hx) (hcx.trans hcx'.symm)

/-- The tool call of an action. -/
def ChatAction.tool? : ChatAction → Option ToolCallResponse
  | .tool c => some c
  | _ => none

theorem filterMap_tool?_actions (choice : StreamChoice) :
    choice.actions.filterMap ChatAction.tool? = choice.delta.toolCalls := by
  have hrest : ((choice.finishReason.filter (trimSpace · ≠ "")).map ChatAction.finish).toList.filterMap
      ChatAction.tool? = [] := by
    rcases choice.finishReason.filter (trimSpace · ≠ "") with - | r <;> rfl
  have htools : (choice.delta.toolCalls.map ChatAction.tool).filterMap ChatAction.tool?
    = choice.delta.toolCalls := by
    rw [filterMap_map]
    exact filterMap_some
  unfold StreamChoice.actions
  rw [filterMap_append, filterMap_append, hrest, htools]
  split_ifs <;> simp [filterMap_cons, ChatAction.tool?]

theorem filterMap_tool? (choices : List StreamChoice) :
    (choices.flatMap StreamChoice.actions).filterMap ChatAction.tool? = toolDeltas choices := by
  induction choices with
  | nil => rfl
  | cons choice choices ih =>
    rw [flatMap_cons, filterMap_append, ih, filterMap_tool?_actions]
    rfl

/-- An action after a finish reason. -/
def AfterFinish (choices : List StreamChoice) (x y : ChatAction) : Prop :=
  (∃ reason, x = .finish reason) → (∀ d, y ≠ .reasoning d) ∧
    ∀ c, y = .tool c → trimSpace c.id ≠ "" → ∀ c' ∈ toolDeltas choices, c'.index.getD 0 = c.index.getD 0 →
      trimSpace c'.id ≠ "" → trimSpace c'.id = trimSpace c.id

theorem pairwise_choice (choices : List StreamChoice) (choice : StreamChoice) :
    choice.actions.Pairwise (AfterFinish choices) := by
  unfold StreamChoice.actions
  rw [pairwise_append]
  have hnone : ∀ x ∈ (if choice.delta.getReasoningContent ≠ "" then
      [ChatAction.reasoning choice.delta.getReasoningContent] else []) ++
      (if choice.delta.getContentString ≠ "" then [.text choice.delta.getContentString] else []) ++
      choice.delta.toolCalls.map .tool, ∀ y, AfterFinish choices x y := by
    rintro x hx y ⟨reason, rfl⟩
    split_ifs at hx <;> simp at hx
  refine ⟨pairwise_of_forall_mem_list fun x hx y _ => hnone x hx y, ?_, fun x hx y _ => hnone x hx y⟩
  rcases choice.finishReason.filter (trimSpace · ≠ "") with - | r
  · exact .nil
  · exact pairwise_singleton _ _

theorem pairwise_actions (h : Identified choices) :
    (choices.flatMap StreamChoice.actions).Pairwise (AfterFinish choices) := by
  rw [pairwise_flatMap]
  refine ⟨fun choice _ => pairwise_choice choices choice, h.finished.imp ?_⟩
  rintro x y hxy _ hx z hz ⟨reason, rfl⟩
  obtain ⟨hreason, hne⟩ := says_of_mem hx
  obtain ⟨hreasoning, hids⟩ := hxy (by rw [StreamChoice.Finishes, hreason]; exact hne)
  refine ⟨?_, ?_⟩
  · rintro d rfl
    obtain ⟨hd, rfl⟩ := says_of_mem hz
    exact hd hreasoning
  · rintro c rfl
    exact hids c (says_of_mem hz)

theorem filterMap_action? (chunks : List ChatChunk) : (chunks.flatMap moves).filterMap ChatMove.action?
      = (chunks.flatMap (·.choices)).flatMap StreamChoice.actions := by
  induction chunks with
  | nil => rfl
  | cons chunk chunks ih =>
    have hchunk : chunk.moves.filterMap ChatMove.action? = chunk.choices.flatMap StreamChoice.actions := by
      show ((chunk.choices.flatMap StreamChoice.actions).map act).filterMap ChatMove.action? = _
      rw [filterMap_map]
      exact filterMap_some
    rw [flatMap_cons, flatMap_cons, filterMap_append, flatMap_append, ih, hchunk]

/-- What is asked of a stream is asked of each of its moves, after those before it. -/
theorem agreed_of_identified (h : Identified (chunks.flatMap (·.choices))) {before after : List ChatMove}
    (heq : chunks.flatMap moves = before ++ m :: after) :
    Agreed (OwnedIn (chunks.flatMap (·.choices))) before m := by
  set choices := chunks.flatMap (·.choices) with hchoices
  rcases m with chunk | action
  · trivial
  have hacts : choices.flatMap StreamChoice.actions
      = before.filterMap ChatMove.action? ++ action :: after.filterMap ChatMove.action? := by
    rw [← filterMap_action?, heq, filterMap_append]
    rfl
  have hbefore : ∀ x, act x ∈ before → x ∈ before.filterMap ChatMove.action? :=
    fun x hx => mem_filterMap.mpr ⟨_, hx, rfl⟩
  have hproper : (act action).Proper := by
    have hmem : act action ∈ chunks.flatMap moves := by
      rw [heq]
      simp
    obtain ⟨chunk, -, hmem⟩ := mem_flatMap.mp hmem
    exact proper_of_mem_moves hmem
  have hafter : Finished before → ∃ reason, AfterFinish choices (.finish reason) action := by
    rintro ⟨reason, hreason⟩
    have hpairwise := pairwise_actions h
    rw [hacts, pairwise_append] at hpairwise
    exact ⟨reason, hpairwise.2.2 _ (hbefore _ hreason) _ mem_cons_self⟩
  rcases action with d | d | c | reason
  · refine ⟨hproper, fun hfinished => ?_⟩
    obtain ⟨reason, hreason⟩ := hafter hfinished
    exact (hreason ⟨reason, rfl⟩).1 d rfl
  · exact hproper
  · have htools : toolDeltas choices = (before.filterMap ChatMove.action?).filterMap ChatAction.tool? ++
        c :: (after.filterMap ChatMove.action?).filterMap ChatAction.tool? := by
      rw [← filterMap_tool?, hacts, filterMap_append]
      rfl
    have hc : c ∈ toolDeltas choices := by
      rw [htools]
      simp
    refine ⟨fun hid => ⟨c, hc, rfl, hid, rfl⟩, fun hnew => h.named _ c _ htools fun c' hc' => ?_, ?_⟩
    · obtain ⟨x, hx, hxc⟩ := mem_filterMap.mp hc'
      obtain ⟨m, hm, hmx⟩ := mem_filterMap.mp hx
      rcases m with chunk | action
      · cases hmx
      obtain rfl := Option.some.inj hmx
      rcases action with d | d | c'' | reason
      · cases hxc
      · cases hxc
      · obtain rfl := Option.some.inj hxc
        exact hnew c'' hm
      · cases hxc
    · rintro hfinished hid x ⟨c', hc', rfl, hne, hindex⟩
      obtain ⟨reason, hreason⟩ := hafter hfinished
      exact (hreason ⟨reason, rfl⟩).2 c rfl hid c' hc' hindex hne
  · trivial

/-! ### What a client makes of the moves -/

theorem foldl_addMove_tools (a : Assembly) (calls : List ToolCallResponse) :
    ((calls.map ChatAction.tool).map act).foldl Assembly.addMove a
      = { a with tools := calls.foldl addToolCall a.tools } := by
  induction calls generalizing a with
  | nil => rfl
  | cons c calls ih => exact ih _

theorem foldl_addMove_choice (a : Assembly) (choice : StreamChoice) :
    (choice.actions.map act).foldl Assembly.addMove a
      = { a.addChoice choice with finishReasons := a.finishReasons } := by
  have hfinish : ∀ a : Assembly,
    ((((choice.finishReason.filter (trimSpace · ≠ "")).map ChatAction.finish).toList).map
      act).foldl Assembly.addMove a = a := by
    intro a
    rcases choice.finishReason.filter (trimSpace · ≠ "") with - | r <;> rfl
  unfold StreamChoice.actions
  rw [map_append, map_append, foldl_append, foldl_append, hfinish, foldl_addMove_tools]
  by_cases hr : choice.delta.getReasoningContent = "" <;> by_cases hc : choice.delta.getContentString = "" <;>
    simp [hr, hc, Assembly.addMove, Assembly.addChoice]

/-- All but the finish reasons. -/
def Assembly.content (a : Assembly) : String × String × List AssembledTool := (a.text, a.reasoning, a.tools)

theorem content_addChoice (h : a.content = a'.content) (choice : StreamChoice) :
    (a.addChoice choice).content = (a'.addChoice choice).content := by
  obtain ⟨htext, hreasoning, htools⟩ : a.text = a'.text ∧ a.reasoning = a'.reasoning ∧ a.tools = a'.tools := by
    simpa [Assembly.content] using h
  simp [Assembly.content, Assembly.addChoice, htext, hreasoning, htools]

theorem content_choices (h : a.content = a'.content) (choices : List StreamChoice) :
    (((choices.flatMap StreamChoice.actions).map act).foldl Assembly.addMove a).content
      = (a'.addChoices choices).content := by
  induction choices generalizing a a' with
  | nil => exact h
  | cons choice choices ih =>
    rw [flatMap_cons, map_append, foldl_append, foldl_addMove_choice]
    exact ih (content_addChoice h choice)

theorem content_moves (h : a.content = a'.content) (chunks : List ChatChunk) :
    ((chunks.flatMap moves).foldl Assembly.addMove a).content = (a'.add chunks).content := by
  induction chunks generalizing a a' with
  | nil => exact h
  | cons chunk chunks ih =>
    rw [flatMap_cons, foldl_append, Assembly.add_cons]
    refine ih ?_
    have hadd : a'.add [chunk] = a'.addChoices chunk.choices := by
      rw [Assembly.add, flatMap_singleton]
    rw [hadd]
    exact content_choices h chunk.choices

end Inputs

/-! ### The stream as a whole -/

theorem responsesStream_eq {s : ChatToResponsesState} (h : s.finalized = false) (chunks : List ChatChunk) :
    responsesStream s chunks = (run move s (chunks.flatMap moves)).2 ++
        (run move s (chunks.flatMap moves)).1.doneDeltaEvents.2 ++
        [(run move s (chunks.flatMap moves)).1.doneDeltaEvents.1.lastEvent] := by
  have hfinalized := (tells_run s (chunks.flatMap moves)).finalized.trans h
  unfold responsesStream
  rw [chunks_eq_moves]
  dsimp only
  rw [finalize_eq hfinalized, append_assoc]
  rfl

/-! ### The finish reason -/

variable {reason : String}

theorem actions_of_last {choices : List StreamChoice} {last : StreamChoice}
    (hlast : choices.getLast? = some last) (hreason : last.finishReason = some reason)
    (hne : trimSpace reason ≠ "") : ∃ actions,
      choices.flatMap StreamChoice.actions = actions ++ [.finish reason] := by
  obtain ⟨init, rfl⟩ := getLast?_eq_some_iff.mp hlast
  have hfilter : last.finishReason.filter (trimSpace · ≠ "") = some reason := by
    rw [hreason]
    exact Option.filter_some_pos (by simpa using hne)
  rw [flatMap_append, flatMap_singleton, StreamChoice.actions, hfilter]
  exact ⟨_, (append_assoc _ _ _).symm⟩

/-- The finish reasons that come back as they were. -/
def ReasonKept (tools : List AssembledTool) (reason : String) : Prop :=
  reason = "length" ∨ reason = "content_filter" ∨ reason = "tool_calls" ∧ tools ≠ [] ∨ reason = "stop" ∧
    tools = []

theorem finishReason_kept {tools : List AssembledTool} (h : ReasonKept tools reason)
    {s : ChatToResponsesState} (status : String × Option String)
    (hs : (s.status, s.incompleteDetails) = ChatAction.statusAfter status (.finish reason)) :
    (responsesFinishReasonFromStatus (some s.finalResponse)).getD (if tools ≠ [] then "tool_calls" else "stop")
      = reason := by
  have hwords : trimSpace "length" = "length" ∧ trimSpace "content_filter" = "content_filter" ∧
      trimSpace "tool_calls" = "tool_calls" ∧ trimSpace "stop" = "stop" ∧
        trimSpace "incomplete" = "incomplete" ∧
      trimSpace "completed" = "completed" ∧ trimSpace "max_output_tokens" = "max_output_tokens" := by
    decide +kernel
  obtain ⟨hlength, hfilter, hcalls, hstop, hincomplete, hcompleted, hmax⟩ := hwords
  have hfinal : responsesFinishReasonFromStatus (some s.finalResponse) =
      if trimSpace s.status ≠ "incomplete" then none
      else if trimSpace (s.incompleteDetails.getD "") = "content_filter" then some "content_filter"
      else some "length" := rfl
  have hstatus : s.status = (ChatAction.statusAfter status (.finish reason)).1 := congrArg Prod.fst hs
  have hdetails : s.incompleteDetails = (ChatAction.statusAfter status (.finish reason)).2 :=
    congrArg Prod.snd hs
  rw [hfinal, hstatus, hdetails]
  unfold ChatAction.statusAfter
  rcases h with rfl | rfl | ⟨rfl, htools⟩ | ⟨rfl, htools⟩
  · simp [hlength, hincomplete, hmax]
  · simp [hfilter, hincomplete]
  · simp [hcalls, hcompleted, htools]
  · simp [hstop, hcompleted, htools]

/-- **Round trip.**  Chunks that are turned into a Responses stream and back say
the same, with the tool calls numbered from zero, and finish once. -/
theorem chat_roundTrip (chunks : List ChatChunk) (id model model' : String) (now now' : Int)
    (h : Identified (chunks.flatMap (·.choices))) :
    ∃ out, responsesStreamToChat (newResponsesToChatState model' now')
        (responsesStream (newChatToResponsesState id model now) chunks) = .ok out ∧
      (assemble out).text = (assemble chunks).text ∧ (assemble out).reasoning = (assemble chunks).reasoning ∧
      (assemble out).tools = (assemble chunks).tools.mapIdx
        (fun n u => ⟨n, trimSpace u.id, trimSpace u.name, u.arguments⟩) ∧
      ∃ reason, (assemble out).finishReasons = [reason] ∧
        ∀ last r, (chunks.flatMap (·.choices)).getLast? = some last → last.finishReason = some r →
          ReasonKept (assemble chunks).tools r → reason = r := by
  set s₀ := newChatToResponsesState id model now with hs₀
  set q₀ := newResponsesToChatState model' now' with hq₀
  obtain ⟨b, hcarries, hround⟩ := roundTrip_run (roundTrip_new _ id model now) h.owned
    fun before m after heq => agreed_of_identified h heq
  obtain ⟨hstatus, -, hfine⟩ := tells_run s₀ (chunks.flatMap moves)
  have hstream := responsesStream_eq (s := s₀) rfl chunks
  have hcontent : _ = (assemble chunks).content := content_moves (a := {}) rfl chunks
  generalize run move s₀ (chunks.flatMap moves) = r at hcarries hround hstatus hstream hfine
  generalize (chunks.flatMap moves).foldl Assembly.addMove {} = a at hround hcontent
  obtain ⟨b', hcarries', hround'⟩ := roundTrip_close hround h.owned ""
  have hdone : ∀ t ∈ r.1.doneDeltaEvents.1.toolsByIndex, t.done = true := by
    intro t ht
    obtain ⟨x, -, rfl⟩ := mem_map.mp ht
    rfl
  have hstep := (hcarries.append hcarries') q₀ {} (inStep_new model' now')
  refine ⟨_, responsesStreamToChat_eq q₀ ?_, ?_⟩
  · rw [hstream]
    refine (hfine.append (fine_doneDeltaEvents r.1)).append ?_
    intro e he
    rw [mem_singleton.mp he]
    unfold ChatToResponsesState.lastEvent
    split_ifs <;> simp
  · rw [hstream, run_append, run_cons, run_nil, append_nil, assemble, Assembly.add_append,
      add_lastEvent hround' hdone hstep]
    obtain ⟨htext, hreasoning, htools⟩ : a.text = (assemble chunks).text ∧
      a.reasoning = (assemble chunks).reasoning ∧
        a.tools = (assemble chunks).tools := by
      simpa [Assembly.content] using hcontent
    refine ⟨?_, ?_, ?_, _, rfl, fun last reason hlast hreason hkept => ?_⟩
    · rw [hstep.text, hround'.text, ← hround'.heardText, htext]
    · rw [hstep.reasoning, hround'.reasoning, ← hround'.heardReasoning, hreasoning]
    · rw [hstep.view, toolView_eq_of_retold hround'.retold, htools]
    · have hne : trimSpace reason ≠ "" := by
        rcases hkept with rfl | rfl | ⟨rfl, -⟩ | ⟨rfl, -⟩ <;> decide +kernel
      obtain ⟨actions, hactions⟩ := actions_of_last hlast hreason hne
      rw [filterMap_action?, hactions, foldl_append] at hstatus
      rw [htools]
      exact finishReason_kept hkept (actions.foldl ChatAction.statusAfter
        (s₀.status, s₀.incompleteDetails)) hstatus

/-- Reasoning, text and a tool call in two parts. -/
def oneTool : List ChatChunk :=
  [{ choices := [{ delta := { reasoning := some "r", content := some "a",
                              toolCalls :=
                                [{ index := some 3, id := "x", name := "f", arguments := "1" }] } }] },
    { choices := [{ delta := { toolCalls := [{ index := some 3, arguments := "2" }] },
                    finishReason := some "tool_calls" }] }]

theorem identified_oneTool : Identified (oneTool.flatMap (·.choices)) := by
  have hwords : trimSpace "x" ≠ "" ∧ trimSpace "f" ≠ "" := by decide +kernel
  refine ⟨?_, ?_, ?_⟩
  · intro before c after heq hnew
    have htools : toolDeltas (oneTool.flatMap (·.choices)) =
      [{ index := some 3, id := "x", name := "f", arguments := "1" },
        { index := some 3, arguments := "2" }] := rfl
    rw [htools] at heq
    rcases before with - | ⟨c₁, before⟩
    · rw [nil_append, List.cons.injEq] at heq
      rw [← heq.1]
      exact hwords
    -- the second delta has the index of the first
    rw [cons_append, List.cons.injEq] at heq
    have hfirst := hnew c₁ mem_cons_self
    rw [← heq.1] at hfirst
    rcases before with - | ⟨c₂, before⟩
    · rw [nil_append, List.cons.injEq] at heq
      rw [← heq.2.1] at hfirst
      exact absurd rfl hfirst
    · simp at heq
  · simp [toolDeltas, oneTool]
  · simp [oneTool, StreamChoice.Finishes, trimSpace_empty]

theorem chat_roundTrip_oneTool : Identified (oneTool.flatMap (·.choices)) ∧
      ∃ out, responsesStreamToChat (newResponsesToChatState "m" 0)
          (responsesStream (newChatToResponsesState "r" "m" 0) oneTool) = .ok out ∧
        (assemble out).finishReasons = ["tool_calls"] := by
  refine ⟨identified_oneTool, ?_⟩
  obtain ⟨out, hout, -, -, -, reason, hreasons, hkept⟩ :=
    chat_roundTrip oneTool "r" "m" "m" 0 0 identified_oneTool
  refine ⟨out, hout, ?_⟩
  rw [hreasons, hkept _ "tool_calls" rfl rfl (.inr (.inr (.inl ⟨rfl, by decide⟩)))]

/-- Two tool calls with one id. -/
def sharedId : List ChatChunk :=
  [{ choices := [{ delta :=
      { toolCalls := [{ index := some 0, id := "x", name := "f", arguments := "1" }] } }] },
    { choices := [{ delta := { toolCalls := [{ index := some 1, id := "x", name := "g", arguments := "2" }] },
                    finishReason := some "tool_calls" }] }]

/-- They come back as one. -/
theorem roundTrip_sharedId : (assemble sharedId).tools = [⟨0, "x", "f", "1"⟩, ⟨1, "x", "g", "2"⟩] ∧
      ∃ out, responsesStreamToChat (newResponsesToChatState "m" 0)
          (responsesStream (newChatToResponsesState "r" "m" 0) sharedId) = .ok out ∧
        (assemble out).tools = [⟨0, "x", "f", "12"⟩] := by
  refine ⟨by decide, _, responsesStreamToChat_eq _ ?_, ?_⟩ <;> decide +kernel

end MicrossApi
