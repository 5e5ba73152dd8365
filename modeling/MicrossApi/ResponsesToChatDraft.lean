/-
MicrossApi/ResponsesToChatDraft.lean

What the events of a Responses stream say, and that the stream converter passes it on.

A `Draft` is the message as far as the events have told it: the text, the
reasoning, a roster of the tools by their key, and the arguments that wait for a
tool that has not been announced.  `InStep` relates a state of the converter and
what a client has put together so far to a draft.  Every event keeps them in step
(`inStep_item`, `inStep_arguments`, …), provided that an id is used for one tool
only and that an item's arguments begin with what has been said of them before.
-/
import MicrossApi.ChatAssembly
import MicrossApi.ResponsesToChat

namespace MicrossApi

open List Roster Transducer
open ResponsesToChatState (ensureStart makeChunk toolDelta modifyTool noteOutputIndex noteItemId)
open ResponsesToChatState (noteCallId noteName aliasedTool? ensureToolForEvent toolItem toolForKey)
open ResponsesToChatState (findToolForEvent toolArgumentsDelta flushPendingTool textDelta)
open ResponsesToChatState (withSummaryBreak reasoningDelta takePending flushKey finalize convert)
open Assembly (add addChoices addChoice add_append)

-- comparisons of trimmed texts are never to be evaluated here
attribute [local irreducible] trimSpace

/-! ### Drafts -/

/-- A tool as far as it has been told: the first id and name, the arguments, and
the item ids and call ids that were used for it. -/
structure ToolEntry where
  key : ToolKey
  id : String
  name : String
  args : String
  ids : List String
  calls : List String

/-- What an item event says about a tool. -/
structure ItemSaid where
  chatId : String
  itemId : String
  callId : String
  name : String
  args : String

/-- The message as far as it has been told; a part of the reasoning may have been closed. -/
structure Draft where
  text : String := ""
  reasoning : String := ""
  partClosed : Bool := false
  entries : List ToolEntry := []
  waiting : ToolKey → String := fun _ => ""

/-- A new tool; without arguments of its own it has those that waited for it. -/
def ItemSaid.entry (said : ItemSaid) (key : ToolKey) (waiting : String) : ToolEntry where
  key := key
  id := said.chatId
  name := said.name
  args := if said.args ≠ "" then said.args else waiting
  ids := [said.itemId]
  calls := [said.callId]

/-- A tool that is known already. -/
def ToolEntry.hear (entry : ToolEntry) (said : ItemSaid) : ToolEntry where
  key := entry.key
  id := entry.id
  name := if entry.name = "" then said.name else entry.name
  args := if said.args ≠ "" then said.args else entry.args
  ids := said.itemId :: entry.ids
  calls := said.callId :: entry.calls

namespace Draft

/-- The keys of the tools. -/
def keys (b : Draft) : List ToolKey := b.entries.map ToolEntry.key

/-- An item event. -/
def announce (b : Draft) (key : ToolKey) (said : ItemSaid) : Draft :=
  { b with
    entries := upsert ToolEntry.key b.entries key (said.entry key (b.waiting key)) (·.hear said)
    waiting := Function.update b.waiting key "" }

/-- More arguments; they wait if the tool is not known. -/
def argue (b : Draft) (key : ToolKey) (delta : String) : Draft :=
  match place ToolEntry.key b.entries key with
  | some n => { b with entries := b.entries.modify n fun e => { e with args := e.args ++ delta } }
  | none => { b with waiting := Function.update b.waiting key (b.waiting key ++ delta) }

/-- More reasoning; a new part of it is set off by a blank line. -/
def reason (b : Draft) (delta : String) : Draft :=
  if delta = "" then b
  else
    { b with
      reasoning := b.reasoning ++ if b.partClosed then withSummaryBreak delta else delta
      partClosed := false }

/-- The tool calls as a client numbers them. -/
def toolView (entries : List ToolEntry) : List AssembledTool :=
  entries.mapIdx fun n e => ⟨n, e.id, e.name, e.args⟩

end Draft

/-- What an item event with a key says. -/
def ResponsesEvent.said (e : ResponsesEvent) (item : ResponsesOutput) (key : ToolKey) : ItemSaid where
  chatId := if trimSpace item.callId ≠ "" then trimSpace item.callId
    else if trimSpace item.id ≠ "" then trimSpace item.id else key.text
  itemId := e.eventItemId
  callId := trimSpace item.callId
  name := trimSpace item.name
  args := item.argumentsString

/-- An item event fits the draft: its ids are used for no other tool, no
arguments wait for its id alone, and its arguments begin with those that are known. -/
structure ItemFits (b : Draft) (key : ToolKey) (said : ItemSaid) : Prop where
  itemId : said.itemId ≠ "" → ∀ e ∈ b.entries, said.itemId ∈ e.ids → e.key = key
  callId : said.callId ≠ "" → ∀ e ∈ b.entries, said.callId ∈ e.calls → e.key = key
  waiting : said.itemId ≠ "" → key ≠ .item said.itemId → b.waiting (.item said.itemId) = ""
  args : said.args ≠ "" → ∀ e ∈ b.entries, e.key = key → ∃ rest, said.args = e.args ++ rest

/-! ### Converter, client and draft in step -/

/-- All that has been told of a tool has been sent. -/
structure ToolSent (t : StreamTool) (e : ToolEntry) : Prop where
  arguments : t.arguments = e.args
  argsSentAt : t.argsSentAt = e.args.utf8ByteSize
  sent : t.sent = true
  nameSent : t.nameSent = decide (e.name ≠ "")
  name : e.name = "" → t.name = ""
  id : e.id ≠ ""

/-- A text that stands for something; the empty one does not. -/
def filled (s : String) : Option String := if s = "" then none else some s

/-- The arguments that wait under a key. -/
def ResponsesToChatState.pending (q : ResponsesToChatState) : ToolKey → Option String
  | .output i => q.pendingArgsByOutputIndex.lookup i
  | .item x => q.pendingArgsByItemId.lookup x
  | .call _ => none

/-- An id, of the kind `ids`, was used for the tool with a key. -/
def Draft.Uses (b : Draft) (ids : ToolEntry → List String) (k : ToolKey) (x : String) : Prop :=
  ∃ e ∈ b.entries, e.key = k ∧ x ∈ ids e

/-- The tools of the converter and of the draft. -/
structure ToolsTrack (q : ResponsesToChatState) (b : Draft) : Prop where
  nodup : b.keys.Nodup
  byKey : ∀ k, q.toolByKey.lookup k = place ToolEntry.key b.entries k
  byIndex : ∀ i, q.outputIndexToKey.lookup i = if .output i ∈ b.keys then some (.output i) else none
  byItem : ∀ x k, q.itemIdToKey.lookup x = some k ↔ x ≠ "" ∧ b.Uses ToolEntry.ids k x
  ownItem : ∀ x, .item x ∈ b.keys → b.Uses ToolEntry.ids (.item x) x
  byCall : ∀ c k, q.callIdToKey.lookup c = some k → b.Uses ToolEntry.calls k c
  waits : ∀ k, q.pending k = filled (b.waiting k)
  waitKnown : ∀ k ∈ b.keys, b.waiting k = ""
  tools : List.Forall₂ ToolSent q.tools b.entries
  sawToolCall : q.sawToolCall = decide (b.entries ≠ [])

/-- The converter, what a client has put together, and the draft. -/
structure InStep (q : ResponsesToChatState) (a : Assembly) (b : Draft) : Prop where
  tools : ToolsTrack q b
  view : a.tools = Draft.toolView b.entries
  text : a.text = b.text
  reasoning : a.reasoning = b.reasoning
  hasSentText : q.hasSentText = decide (b.text ≠ "")
  hasSentReasoning : q.hasSentReasoning = decide (b.reasoning ≠ "")
  partClosed : q.needsReasoningSummaryBreak = b.partClosed
  finished : a.finishReasons = []
  finalized : q.finalized = false

/-! ### Bytes -/

theorem utf8ByteSize_ofList_cons (c : Char) (cs : List Char) :
    (String.ofList (c :: cs)).utf8ByteSize = c.utf8Size + (String.ofList cs).utf8ByteSize := by
  have hsplit : String.ofList (c :: cs) = String.singleton c ++ String.ofList cs := by
    rw [String.singleton_eq_ofList, ← String.ofList_append]
    rfl
  rw [hsplit, String.utf8ByteSize_append, String.utf8ByteSize_singleton]

theorem dropBytes_append (cs ds : List Char) : dropBytes (String.ofList cs).utf8ByteSize (cs ++ ds) = ds := by
  induction cs with
  | nil =>
    show dropBytes (String.ofList []).utf8ByteSize ds = ds
    exact dropBytes.eq_1 ds
  | cons c cs ih =>
    have hpos := c.utf8Size_pos
    obtain ⟨m, hm⟩ : ∃ m, (String.ofList (c :: cs)).utf8ByteSize = m + 1 :=
      ⟨(String.ofList (c :: cs)).utf8ByteSize - 1, by rw [utf8ByteSize_ofList_cons]; omega⟩
    have hrest : m + 1 - c.utf8Size = (String.ofList cs).utf8ByteSize := by
      rw [← hm, utf8ByteSize_ofList_cons]
      omega
    rw [hm, cons_append, dropBytes, hrest, ih]

theorem append_ne_empty {delta : String} (h : delta ≠ "") (text : String) : text ++ delta ≠ "" :=
  fun hempty => h (String.append_eq_empty_iff.mp hempty).2

/-- What has not been sent is what was added since. -/
theorem unsent_eq {t : StreamTool} {sent rest : String} (harguments : t.arguments = sent ++ rest)
    (hsent : t.argsSentAt = sent.utf8ByteSize) : t.unsent = rest := by
  rw [StreamTool.unsent, harguments, hsent, String.utf8ByteSize_append, String.toList_append]
  split_ifs with h
  · have hdrop := dropBytes_append sent.toList rest.toList
    rw [String.ofList_toList] at hdrop
    rw [hdrop, String.ofList_toList]
  · symm
    rw [← String.utf8ByteSize_eq_zero_iff]
    omega

/-! ### The client -/

variable {c : ToolCallResponse} {entries : List ToolEntry} {e : ToolEntry}

section Client

variable {entries : List ToolEntry} {e : ToolEntry} {n : Nat}

theorem map_index_toolView (entries : List ToolEntry) :
    (Draft.toolView entries).map AssembledTool.index = (List.range entries.length).map Nat.cast := by
  rw [Draft.toolView, mapIdx_eq_zipIdx_map, map_map, range_eq_range', ← zipIdx_map_snd 0 entries, map_map]
  rfl

theorem getElem?_toolView (he : entries[n]? = some e) :
    (Draft.toolView entries)[n]? = some ⟨n, e.id, e.name, e.args⟩ := by
  rw [Draft.toolView, getElem?_mapIdx, he]
  rfl

/-- What a client does not see of the entries. -/
theorem toolView_eq_mapIdx (entries : List ToolEntry) : Draft.toolView entries = (entries.map fun x =>
      ({ id := x.id, name := x.name, arguments := x.args } : ToolCallResponse)).mapIdx
        fun n c => ⟨n, c.id, c.name, c.arguments⟩ := by
  apply ext_getElem?
  intro n
  rw [Draft.toolView, getElem?_mapIdx, getElem?_mapIdx, getElem?_map, Option.map_map]
  rfl

/-- The first delta of a tool. -/
theorem addToolCall_new (entries : List ToolEntry) (hindex : c.index = some (entries.length : Int))
    (hid : c.id = e.id) (hname : c.name = e.name) (harguments : c.arguments = e.args) :
    addToolCall (Draft.toolView entries) c = Draft.toolView (entries ++ [e]) := by
  have hplace : place AssembledTool.index (Draft.toolView entries) (c.index.getD 0) = none := by
    rw [place_eq_none_iff, map_index_toolView, hindex]
    simp
  rw [addToolCall, upsert_of_none hplace, Draft.toolView, Draft.toolView, mapIdx_concat]
  simp only [ToolCallResponse.assembled, hindex, Option.getD_some, hid, hname, harguments]

/-- A later delta of a tool. -/
theorem addToolCall_known (he : entries[n]? = some e) (hindex : c.index = some (n : Int))
    {change : ToolEntry → ToolEntry} (hchange : (change e).id = (if e.id = "" then c.id else e.id) ∧
      (change e).name = (if e.name = "" then c.name else e.name) ∧ (change e).args = e.args ++ c.arguments) :
    addToolCall (Draft.toolView entries) c = Draft.toolView (entries.modify n change) := by
  have hplace : place AssembledTool.index (Draft.toolView entries) (c.index.getD 0) = some n := by
    refine place_of_getElem? ?_ (getElem?_toolView he) ?_
    · rw [map_index_toolView]
      exact nodup_range.map Nat.cast_injective
    · rw [hindex]
      rfl
  rw [addToolCall, upsert_of_some hplace]
  apply ext_getElem?
  intro m
  rcases eq_or_ne m n with rfl | hne
  · rw [getElem?_modify_self (getElem?_toolView he), getElem?_toolView (getElem?_modify_self he change),
      hchange.1, hchange.2.1, hchange.2.2]
    rfl
  · rw [getElem?_modify_of_ne hne, Draft.toolView, Draft.toolView, getElem?_mapIdx, getElem?_mapIdx,
      getElem?_modify_of_ne hne]

end Client

/-- The chunk that opens the stream says nothing. -/
theorem add_ensureStart (a : Assembly) (q : ResponsesToChatState) : a.add q.ensureStart.2 = a := by
  unfold ensureStart
  split_ifs
  · rfl
  · simp [makeChunk, add, addChoices, addChoice,
      ChoiceDelta.getContentString, ChoiceDelta.getReasoningContent]

/-- Opening the stream touches nothing else. -/
theorem ensureStart_eq (q : ResponsesToChatState) : ∃ b, q.ensureStart.1 = { q with sentStart := b } := by
  unfold ensureStart
  split_ifs
  · exact ⟨q.sentStart, rfl⟩
  · exact ⟨true, rfl⟩

/-! ### Sending -/

section Sending

variable {q : ResponsesToChatState} {a : Assembly} {n : Nat} {t : StreamTool} {x rest : String}

/-- A tool that has something to send. -/
theorem toolDelta_loud (ht : q.tools[n]? = some t) (hrest : (if x = "" then t.unsent else x) = rest)
    (hloud : ¬ (t.sent = true ∧ rest = "" ∧ (t.name = "" ∨ t.nameSent = true))) (a : Assembly) :
    ∃ start, (q.toolDelta n x).1 = { q with
          sentStart := start
          sawToolCall := true
          tools := q.tools.modify n fun t =>
            { t with
              nameSent := t.nameSent || t.name ≠ ""
              sent := true
              argsSentAt := t.argsSentAt + rest.utf8ByteSize } } ∧
      a.add (q.toolDelta n x).2 =
        { a with
          tools := addToolCall a.tools
            { index := some n, id := t.chatId, name := if t.nameSent then "" else t.name,
              arguments := rest } } := by
  obtain ⟨start, hstart⟩ := ensureStart_eq q
  have heq : q.toolDelta n x =
      ({ q.ensureStart.1.modifyTool n fun t =>
            { t with
              nameSent := t.nameSent || t.name ≠ ""
              sent := true
              argsSentAt := t.argsSentAt + rest.utf8ByteSize } with
          sawToolCall := true },
        q.ensureStart.2 ++ [q.ensureStart.1.makeChunk
          { toolCalls :=
              [{ index := some n
                 id := t.chatId
                 name := if t.nameSent then "" else t.name
                 arguments := rest }] } none]) := by
    unfold toolDelta
    rw [ht]
    simp only [hrest]
    rw [if_neg hloud]
  refine ⟨start, ?_, ?_⟩
  · rw [heq, hstart]
    rfl
  · rw [heq, add_append, add_ensureStart]
    simp [makeChunk, add, addChoices, addChoice,
      ChoiceDelta.getContentString, ChoiceDelta.getReasoningContent]

/-- A tool that has nothing to send. -/
theorem toolDelta_silent (ht : q.tools[n]? = some t) (hsent : t.sent = true)
    (hrest : (if x = "" then t.unsent else x) = "") (hname : t.name = "" ∨ t.nameSent = true) :
    q.toolDelta n x = (q, []) := by
  unfold toolDelta
  rw [ht]
  simp only [hrest]
  rw [if_pos ⟨hsent, trivial, hname⟩]

/-- The first delta of a tool, which is the last one. -/
theorem toolDelta_new {tools : List StreamTool} (htools : q.tools = tools ++ [t])
    (hall : List.Forall₂ ToolSent tools entries)
    (hfresh : t.sent = false ∧ t.argsSentAt = 0 ∧ t.nameSent = false)
    (hid : e.id = t.chatId) (hne : e.id ≠ "") (hname : e.name = t.name) (hargs : e.args = t.arguments)
    (hview : a.tools = Draft.toolView entries) :
    ∃ start tools', (q.toolDelta tools.length "").1 =
        { q with sentStart := start, sawToolCall := true, tools := tools' } ∧
      List.Forall₂ ToolSent tools' (entries ++ [e]) ∧
      a.add (q.toolDelta tools.length "").2 = { a with tools := Draft.toolView (entries ++ [e]) } := by
  obtain ⟨hsent, hat, hnameSent⟩ := hfresh
  have hunsent : (if "" = "" then t.unsent else "") = t.arguments := by
    refine unsent_eq (String.empty_append).symm ?_
    rw [hat, String.utf8ByteSize_empty]
  have ht : q.tools[tools.length]? = some t := by rw [htools, getElem?_concat_length]
  obtain ⟨start, hstate, hclient⟩ := toolDelta_loud ht hunsent (by simp [hsent]) a
  rw [htools, modify_concat] at hstate
  refine ⟨start, _, hstate, forall₂_concat hall ⟨hargs.symm, ?_, rfl, ?_, ?_, hne⟩, ?_⟩
  · simp [hat, hargs]
  · simp [hnameSent, hname]
  · intro h
    rw [← hname, h]
  · rw [hclient, hview, addToolCall_new entries (by rw [hall.length_eq]) hid.symm (by simp [hnameSent, hname])
      hargs.symm]

/-- A later delta, when a tool has `heard` something and its entry in the draft has changed. -/
theorem toolDelta_known (hall : List.Forall₂ ToolSent q.tools entries)
    (hsaw : q.sawToolCall = decide (entries ≠ [])) (hview : a.tools = Draft.toolView entries)
    (he : entries[n]? = some e) (heard : StreamTool → StreamTool) (change : ToolEntry → ToolEntry)
    (hkeep : ∀ t, (heard t).sent = t.sent ∧ (heard t).argsSentAt = t.argsSentAt ∧
      (heard t).nameSent = t.nameSent)
    (hid : (change e).id = e.id) (htold : ∀ t, ToolSent t e → (heard t).arguments = (change e).args ∧
      (change e).name = if e.name = "" then (heard t).name else e.name)
    (hrest : (change e).args = e.args ++ rest) (hx : x = "" ∨ x = rest) :
    ∃ start tools', ((q.modifyTool n heard).toolDelta n x).1 =
        { q with sentStart := start, sawToolCall := true, tools := tools' } ∧
      List.Forall₂ ToolSent tools' (entries.modify n change) ∧
      a.add ((q.modifyTool n heard).toolDelta n x).2 =
        { a with tools := Draft.toolView (entries.modify n change) } := by
  obtain ⟨t, ht, hsent⟩ := getElem?_of_forall₂ (List.Forall₂.flip hall) he
  obtain ⟨hargs, hname⟩ := htold t hsent
  have ht' : (q.modifyTool n heard).tools[n]? = some (heard t) := getElem?_modify_self ht heard
  have hloud : (heard t).sent = true := (hkeep t).1.trans hsent.sent
  have hat : (heard t).argsSentAt = e.args.utf8ByteSize := (hkeep t).2.1.trans hsent.argsSentAt
  have hnameSent : (heard t).nameSent = decide (e.name ≠ "") := (hkeep t).2.2.trans hsent.nameSent
  -- it is enough that the tool which was told has been sent
  have htools : ∀ f : StreamTool → StreamTool, ToolSent (f t) (change e) →
      List.Forall₂ ToolSent (q.tools.modify n f) (entries.modify n change) := by
    refine fun f hf => forall₂_modify hall fun t' x' ht' hx' _ => ?_
    rwa [← Option.mem_unique ht ht', ← Option.mem_unique he hx']
  have hunsent : (if x = "" then (heard t).unsent else x) = rest := by
    have hall : (heard t).unsent = rest := unsent_eq (hargs.trans hrest) hat
    rcases hx with rfl | rfl
    · exact hall
    split_ifs
    · exact hall
    · rfl
  by_cases hsilent : rest = "" ∧ ((heard t).name = "" ∨ (heard t).nameSent = true)
  · -- nothing is new, so a client need not be told
    obtain ⟨rfl, hknown⟩ := hsilent
    rw [String.append_empty] at hrest
    have hunnamed : e.name = "" → (heard t).name = "" := by
      refine fun h => hknown.resolve_right fun hs => ?_
      rw [hnameSent, decide_eq_true_eq] at hs
      exact hs h
    have hsame : (change e).name = e.name := by
      rw [hname]
      split_ifs with h
      · rw [hunnamed h, h]
      · rfl
    rw [toolDelta_silent ht' hloud hunsent hknown]
    refine ⟨q.sentStart, _, ?_, htools heard ⟨hargs, ?_, hloud, ?_, ?_, hid ▸ hsent.id⟩, ?_⟩
    · rw [← hsaw.trans (decide_eq_true (ne_nil_of_mem (mem_of_getElem? he)))]
      rfl
    · rw [hrest]
      exact hat
    · rw [hsame]
      exact hnameSent
    · rw [hsame]
      exact hunnamed
    · rw [toolView_eq_mapIdx, map_modify fun y hy => ?_, ← toolView_eq_mapIdx, ← hview]
      · rfl
      · rw [← Option.mem_unique he hy, hid, hsame, hrest]
  · obtain ⟨start, hstate, hclient⟩ := toolDelta_loud ht' hunsent (fun h => hsilent h.2) a
    rw [modifyTool, modify_modify_eq] at hstate
    refine ⟨start, _, hstate, htools _ ⟨hargs, ?_, rfl, ?_, ?_, hid ▸ hsent.id⟩, ?_⟩
    · rw [hrest, String.utf8ByteSize_append, ← hat]
      rfl
    · show ((heard t).nameSent || decide ((heard t).name ≠ "")) = _
      rw [hname]
      by_cases h : e.name = "" <;> simp [hnameSent, h]
    · intro h
      rw [hname] at h
      split_ifs at h with h'
      · exact h
      · exact absurd h h'
    · rw [hclient, hview, addToolCall_known he rfl]
      refine ⟨hid.trans (if_neg hsent.id).symm, ?_, hrest⟩
      rw [hname]
      by_cases h : e.name = "" <;> simp [hnameSent, h]

end Sending

/-! ### What an item event notes -/

section Notes

variable (q : ResponsesToChatState) (n : Nat) (key : ToolKey) (e : ResponsesEvent) (item : ResponsesOutput)

@[simp] theorem modify_self {α : Type} (l : List α) : (l.modify n fun t => t) = l := modify_id n l

theorem getD_filled (s : String) : (filled s).getD "" = s := by
  unfold filled
  split_ifs with h
  · exact h.symm
  · rfl

section Maps

variable {α β : Type} [DecidableEq α]

/-- Where an id has been noted, if there is one. -/
def noteEntry (m : AList fun _ : α => β) (a : Option α) (b : β) : AList fun _ : α => β :=
  a.elim m (m.insert · b)

variable (m : AList fun _ : α => String) (a : Option α)

/-- The text that waits for an id. -/
def waitingFor : String := (a.bind (m.lookup ·)).getD ""

/-- What is left when it has been picked up. -/
def takeEntry : AList fun _ : α => String := if waitingFor m a = "" then m else a.elim m (m.erase ·)

theorem lookup_insert_eq (m : AList fun _ : α => β) (a a' : α) (b : β) :
    (m.insert a' b).lookup a = if a = a' then some b else m.lookup a := by
  split_ifs with h
  · rw [h, AList.lookup_insert]
  · rw [AList.lookup_insert_ne h]

theorem lookup_noteEntry (m : AList fun _ : α => β) (a : Option α) (b : β) (y : α) :
    (noteEntry m a b).lookup y = if a = some y then some b else m.lookup y := by
  cases a <;> simp [noteEntry, lookup_insert_eq, eq_comm]

variable {m} {w : α → String} (hm : ∀ y, m.lookup y = filled (w y))
include hm

theorem waitingFor_eq : waitingFor m a = (a.map w).getD "" := by
  cases a with
  | none => rfl
  | some y =>
    show (m.lookup y).getD "" = w y
    rw [hm, getD_filled]

theorem lookup_takeEntry (y : α) : (takeEntry m a).lookup y = if a = some y then none else m.lookup y := by
  unfold takeEntry
  rw [waitingFor_eq a hm]
  cases a with
  | none => simp
  | some z =>
    rcases eq_or_ne z y with rfl | hne
    · rw [if_pos (rfl : some z = some z)]
      split_ifs with h
      · rw [hm, show w z = "" from h]
        rfl
      · exact AList.lookup_erase ..
    · rw [if_neg (show ¬ some z = some y from fun h => hne (Option.some.inj h))]
      split_ifs
      · rfl
      · exact AList.lookup_erase_ne hne.symm

end Maps

/-- The arguments that waited for an item event. -/
def ResponsesToChatState.waited (q : ResponsesToChatState) (e : ResponsesEvent) : String :=
  waitingFor q.pendingArgsByOutputIndex e.outputIndex ++ waitingFor q.pendingArgsByItemId (filled e.eventItemId)

/-- A tool after an item event. -/
def StreamTool.hear (t : StreamTool) (e : ResponsesEvent) (item : ResponsesOutput) (waited : String) :
    StreamTool :=
  { t with
    arguments := if item.argumentsString ≠ "" then item.argumentsString else t.arguments ++ waited
    itemId := if e.eventItemId = "" then t.itemId else e.eventItemId
    callId := if trimSpace item.callId ≠ "" then trimSpace item.callId
      else if t.callId = "" then trimSpace item.id else t.callId
    name := if trimSpace item.name ≠ "" then trimSpace item.name else t.name }

/-- All that is noted of an item event besides its tool. -/
def ResponsesToChatState.noted (q : ResponsesToChatState) (key : ToolKey) (e : ResponsesEvent)
    (item : ResponsesOutput) : ResponsesToChatState :=
  { q with
    outputIndexToKey := noteEntry q.outputIndexToKey e.outputIndex key
    itemIdToKey := noteEntry q.itemIdToKey (filled e.eventItemId) key
    callIdToKey := noteEntry q.callIdToKey (filled (trimSpace item.callId)) key
    pendingArgsByOutputIndex := takeEntry q.pendingArgsByOutputIndex e.outputIndex
    pendingArgsByItemId := takeEntry q.pendingArgsByItemId (filled e.eventItemId) }

theorem noteOutputIndex_eq : q.noteOutputIndex n key e.outputIndex =
    { q with
      outputIndexToKey := noteEntry q.outputIndexToKey e.outputIndex key
      pendingArgsByOutputIndex := takeEntry q.pendingArgsByOutputIndex e.outputIndex
      tools := q.tools.modify n fun t =>
        { t with arguments := t.arguments ++ waitingFor q.pendingArgsByOutputIndex e.outputIndex } } := by
  unfold noteOutputIndex modifyTool takeEntry waitingFor noteEntry
  rcases e.outputIndex with - | i
  · simp
  by_cases hw : (q.pendingArgsByOutputIndex.lookup i).getD "" = "" <;> simp [hw]

theorem noteItemId_eq : q.noteItemId n key e.eventItemId =
    { q with
      itemIdToKey := noteEntry q.itemIdToKey (filled e.eventItemId) key
      pendingArgsByItemId := takeEntry q.pendingArgsByItemId (filled e.eventItemId)
      tools := q.tools.modify n fun t =>
        { t with
          itemId := if e.eventItemId = "" then t.itemId else e.eventItemId
          arguments := t.arguments ++ waitingFor q.pendingArgsByItemId (filled e.eventItemId) } } := by
  unfold noteItemId modifyTool takeEntry waitingFor noteEntry filled
  by_cases hx : e.eventItemId = ""
  · simp [hx]
  by_cases hw : (q.pendingArgsByItemId.lookup e.eventItemId).getD "" = ""
  · simp [hx, hw]
  · simp [hx, hw, modify_modify_eq, Function.comp_def]

theorem noteCallId_eq : q.noteCallId n key item =
    { q with
      callIdToKey := noteEntry q.callIdToKey (filled (trimSpace item.callId)) key
      tools := q.tools.modify n fun t =>
        { t with
          callId := if trimSpace item.callId ≠ "" then trimSpace item.callId
            else if t.callId = "" then trimSpace item.id else t.callId } } := by
  unfold noteCallId modifyTool noteEntry filled
  by_cases h : trimSpace item.callId = "" <;> simp [h]

theorem noteName_eq : q.noteName n item = q.modifyTool n fun t =>
    { t with name := if trimSpace item.name ≠ "" then trimSpace item.name else t.name } := by
  unfold noteName modifyTool
  split_ifs with h
  · rfl
  · rw [modify_self]

end Notes

variable {q q' : ResponsesToChatState} {a : Assembly} {b b' b'' : Draft} {key : ToolKey} {e : ResponsesEvent}
  {item : ResponsesOutput}

/-! ### Item events -/

variable {n : Nat} {x : String} {i : Int}

section Items

theorem keyForEvent_eq_output_iff : keyForEvent e = some (.output i) ↔ e.outputIndex = some i := by
  unfold keyForEvent
  rcases e.outputIndex with - | j
  · rcases e.item with - | item <;> dsimp only <;> split_ifs <;> simp
  · simp

theorem outputIndex_eq_iff (hkey : keyForEvent e = some key) : e.outputIndex = some i ↔ key = .output i := by
  rw [← keyForEvent_eq_output_iff, hkey, Option.some_inj]

theorem outputIndex_of_key (hkey : keyForEvent e = some key) (hne : ∀ i, key ≠ .output i) :
    e.outputIndex = none := by
  rcases hi : e.outputIndex with - | i
  · rfl
  · exact absurd ((outputIndex_eq_iff hkey).mp hi) (hne i)

/-- Without an item the key is the output index or the id of the item. -/
theorem key_cases (hitem : e.item = none) (hkey : keyForEvent e = some key) :
    (∃ i, key = .output i ∧ e.outputIndex = some i) ∨
      ∃ x, key = .item x ∧ e.outputIndex = none ∧ trimSpace e.itemId = x ∧ x ≠ "" := by
  unfold keyForEvent at hkey
  rw [hitem] at hkey
  rcases hi : e.outputIndex with - | i
  · rw [hi] at hkey
    split_ifs at hkey with h
    exact .inr ⟨_, (Option.some.inj hkey).symm, rfl, rfl, h⟩
  · rw [hi] at hkey
    exact .inl ⟨i, (Option.some.inj hkey).symm, rfl⟩

theorem eventItemId_of_key (hkey : keyForEvent e = some (.item x)) : e.eventItemId = x ∧ x ≠ "" := by
  have hnone := outputIndex_of_key hkey (by simp)
  unfold keyForEvent at hkey
  unfold ResponsesEvent.eventItemId
  rw [hnone] at hkey
  rcases hitem : e.item with - | item
  · rw [hitem] at hkey
    split_ifs at hkey with h
    obtain rfl := ToolKey.item.inj (Option.some.inj hkey)
    exact ⟨rfl, h⟩
  rw [hitem] at hkey
  dsimp only at hkey ⊢
  split_ifs at hkey with h₁ h₂ h₃
  · obtain rfl := ToolKey.item.inj (Option.some.inj hkey)
    exact ⟨if_pos h₁, h₁⟩
  · cases hkey
  · obtain rfl := ToolKey.item.inj (Option.some.inj hkey)
    exact ⟨if_neg h₁, h₃⟩

theorem filled_eq_some_iff {s : String} : filled s = some x ↔ x = s ∧ x ≠ "" := by
  unfold filled
  split_ifs with h
  · simp [h]
  · rw [Option.some_inj, eq_comm, iff_self_and]
    rintro rfl
    exact h

theorem waiting_call (ht : ToolsTrack q b) (c : String) : b.waiting (.call c) = "" := by
  by_contra h
  have hwaits := ht.waits (.call c)
  rw [filled, if_neg h] at hwaits
  cases hwaits

/-- An item event picks up what waited for its key. -/
theorem waited_eq (ht : ToolsTrack q b) (hkey : keyForEvent e = some key)
    (hfits : ItemFits b key (e.said item key)) : q.waited e = b.waiting key := by
  have hitem : waitingFor q.pendingArgsByItemId (filled e.eventItemId) =
      if e.eventItemId = "" then "" else b.waiting (.item e.eventItemId) := by
    rw [waitingFor_eq _ fun y => ht.waits (.item y), filled]
    split_ifs <;> rfl
  have hother : key ≠ .item e.eventItemId → waitingFor q.pendingArgsByItemId (filled e.eventItemId) = "" := by
    intro hne
    rw [hitem]
    split_ifs with h
    · rfl
    · exact hfits.waiting h hne
  unfold ResponsesToChatState.waited
  rw [waitingFor_eq _ fun i => ht.waits (.output i)]
  cases key with
  | output =>
    rw [hother (by simp), String.append_empty, keyForEvent_eq_output_iff.mp hkey]
    rfl
  | item =>
    obtain ⟨hx, hne⟩ := eventItemId_of_key hkey
    rw [outputIndex_of_key hkey (by simp), hitem, hx, if_neg hne]
    exact String.empty_append
  | call =>
    rw [hother (by simp), outputIndex_of_key hkey (by simp), waiting_call ht]
    rfl

/-- An id that leads somewhere leads to the event's own tool. -/
theorem aliasedTool?_eq_none (ht : ToolsTrack q b) (hfits : ItemFits b key (e.said item key))
    (hkey : key ∉ b.keys) : q.aliasedTool? e item = none := by
  have hbyItem : e.eventItemId ≠ "" → q.itemIdToKey.lookup e.eventItemId = none := by
    refine fun hne => Option.eq_none_iff_forall_ne_some.mpr fun k hk => ?_
    obtain ⟨-, x, hx, -, hid⟩ := (ht.byItem _ _).mp hk
    exact hkey (hfits.itemId hne x hx hid ▸ mem_map_of_mem hx)
  have hbyCall : trimSpace item.callId ≠ "" → q.callIdToKey.lookup (trimSpace item.callId) = none := by
    refine fun hne => Option.eq_none_iff_forall_ne_some.mpr fun k hk => ?_
    obtain ⟨x, hx, -, hid⟩ := ht.byCall _ _ hk
    exact hkey (hfits.callId hne x hx hid ▸ mem_map_of_mem hx)
  unfold aliasedTool?
  by_cases h₁ : e.eventItemId = "" <;> by_cases h₂ : trimSpace item.callId = "" <;>
    simp [h₁, h₂, hbyItem, hbyCall]

theorem toolItem_eq (hitem : e.item = some item) (hkey : keyForEvent e = some key)
    (hplace : q.toolForKey key (q.aliasedTool? e item) { key := key } = (q', n)) :
    q.toolItem e = ((q'.noted key e item).modifyTool n
      (·.hear e item (q'.waited e))).toolDelta n "" := by
  unfold toolItem ensureToolForEvent
  rw [hitem, hkey, Option.bind_some, Option.some_or, Option.map_some, hplace]
  dsimp only
  rw [noteOutputIndex_eq, noteItemId_eq, noteCallId_eq, noteName_eq]
  congr 1
  unfold StreamTool.hear modifyTool
  by_cases h : item.argumentsString = "" <;>
    simp only [h, ne_eq, not_true_eq_false, not_false_eq_true, if_true, if_false, modify_modify_eq,
      Function.comp_def, String.append_assoc] <;> rfl

/-- What has been picked up waits no longer. -/
theorem pending_noted (ht : ToolsTrack q b) (hkey : keyForEvent e = some key)
    (hfits : ItemFits b key (e.said item key)) (k : ToolKey) :
    (q.noted key e item).pending k = filled (Function.update b.waiting key "" k) := by
  cases k with
  | output i =>
    refine (lookup_takeEntry _ (fun j => ht.waits (.output j)) i).trans ?_
    rcases eq_or_ne key (.output i) with rfl | hne
    · rw [if_pos ((outputIndex_eq_iff hkey).mpr rfl), Function.update_self]
      rfl
    · rw [if_neg fun h => hne ((outputIndex_eq_iff hkey).mp h), Function.update_of_ne hne.symm]
      exact ht.waits (.output i)
  | item y =>
    refine (lookup_takeEntry _ (fun z => ht.waits (.item z)) y).trans ?_
    rcases eq_or_ne key (.item y) with rfl | hne
    · obtain ⟨hy, hne⟩ := eventItemId_of_key hkey
      rw [if_pos (filled_eq_some_iff.mpr ⟨hy.symm, hne⟩), Function.update_self]
      rfl
    · rw [Function.update_of_ne hne.symm]
      split_ifs with h
      · obtain ⟨rfl, hy⟩ := filled_eq_some_iff.mp h
        exact (congrArg filled (hfits.waiting hy hne)).symm
      · exact ht.waits (.item y)
  | call c =>
    rcases eq_or_ne (.call c) key with rfl | hne
    · rw [Function.update_self]
      rfl
    · rw [Function.update_of_ne hne, waiting_call ht]
      rfl

end Items

/-! ### Drafts after an item event -/

section Announce

variable {said : ItemSaid}

theorem keys_announce (b : Draft) (key : ToolKey) (said : ItemSaid) :
    (b.announce key said).keys = if key ∈ b.keys then b.keys else b.keys ++ [key] := by
  show (upsert ToolEntry.key b.entries key _ _).map ToolEntry.key = _
  rcases hp : place ToolEntry.key b.entries key with - | n
  · have hnot : key ∉ b.keys := place_eq_none_iff.mp hp
    rw [upsert_of_none hp, map_append, if_neg hnot]
    rfl
  obtain ⟨x, hx, hkx⟩ := getElem?_of_place hp
  have hmem : key ∈ b.keys := hkx ▸ mem_map_of_mem (mem_of_getElem? hx)
  have hsame : ∀ x, b.entries[n]? = some x → (x.hear said).key = x.key := fun _ _ => rfl
  rw [upsert_of_some hp, map_modify hsame, if_pos hmem]
  rfl

theorem mem_keys_announce {k : ToolKey} : k ∈ (b.announce key said).keys ↔ k ∈ b.keys ∨ k = key := by
  rw [keys_announce]
  split_ifs with h
  · constructor
    · exact .inl
    · rintro (hk | rfl)
      · exact hk
      · exact h
  · simp

theorem uses_announce {ids : ToolEntry → List String} {y : String}
    (hentry : ∀ waiting, ids (said.entry key waiting) = [y])
    (hhear : ∀ e : ToolEntry, ids (e.hear said) = y :: ids e)
    {k : ToolKey} : (b.announce key said).Uses ids k x ↔ b.Uses ids k x ∨ k = key ∧ x = y := by
  show (∃ e ∈ upsert ToolEntry.key b.entries key _ _, _) ↔ _
  rcases hp : place ToolEntry.key b.entries key with - | n
  · rw [upsert_of_none hp]
    simp only [mem_append, mem_singleton, or_and_right, exists_or, exists_eq_left, hentry]
    exact or_congr Iff.rfl (and_congr eq_comm Iff.rfl)
  · obtain ⟨z, hz, rfl⟩ := getElem?_of_place hp
    rw [upsert_of_some hp, exists_mem_modify hz fun e => ?_, eq_comm (a := k)]
    · rfl
    · rw [hhear, mem_cons, and_or_left, or_comm]
      rfl

end Announce

section ItemSteps

theorem itemId_said_of_key (item : ResponsesOutput) (hkey : keyForEvent e = some key)
    (hx : key = .item x) : (e.said item key).itemId = x ∧ x ≠ "" :=
  eventItemId_of_key (hkey.trans (congrArg some hx))

theorem toolsTrack_announce (ht : ToolsTrack q b) (hkey : keyForEvent e = some key)
    (hfits : ItemFits b key (e.said item key)) {tools : List StreamTool}
    {byKey : AList fun _ : ToolKey => Nat} {start : Bool}
    (hbyKey : ∀ k, byKey.lookup k = place ToolEntry.key (b.announce key (e.said item key)).entries k)
    (htools : List.Forall₂ ToolSent tools (b.announce key (e.said item key)).entries) :
    ToolsTrack { q.noted key e item with
      sentStart := start, sawToolCall := true, tools := tools, toolByKey := byKey }
      (b.announce key (e.said item key)) := by
  refine ⟨?_, hbyKey, fun i => ?_, fun x k => ?_, fun x hx => ?_, fun c k hk => ?_,
    pending_noted ht hkey hfits, fun k hk => ?_, htools, ?_⟩
  · -- keys are not repeated
    rw [keys_announce]
    split_ifs with h
    · exact ht.nodup
    rw [← concat_eq_append]
    exact ht.nodup.concat h
  · refine (lookup_noteEntry _ _ _ i).trans ?_
    rw [ht.byIndex]
    simp only [outputIndex_eq_iff hkey, mem_keys_announce]
    rcases eq_or_ne key (.output i) with rfl | hne
    · simp
    · simp [hne, hne.symm]
  · -- an id is used for one tool only
    show (noteEntry q.itemIdToKey _ key).lookup x = some k ↔ _
    rw [uses_announce (fun _ => rfl) fun _ => rfl, lookup_noteEntry]
    split_ifs with h
    · obtain ⟨rfl, hne⟩ := filled_eq_some_iff.mp h
      rw [Option.some_inj]
      refine ⟨fun hk => ⟨hne, .inr ⟨hk.symm, rfl⟩⟩, ?_⟩
      rintro ⟨-, ⟨y, hy, rfl, hid⟩ | ⟨rfl, -⟩⟩
      · exact (hfits.itemId hne y hy hid).symm
      · rfl
    · rw [ht.byItem]
      exact and_congr_right fun hne => (or_iff_left fun hk => h (filled_eq_some_iff.mpr ⟨hk.2, hne⟩)).symm
  · rw [uses_announce (fun _ => rfl) fun _ => rfl]
    refine (mem_keys_announce.mp hx).imp (ht.ownItem x) fun hx => ⟨hx, ?_⟩
    exact (itemId_said_of_key item hkey hx.symm).1.symm
  · rw [uses_announce (fun _ => rfl) fun _ => rfl]
    replace hk := (lookup_noteEntry q.callIdToKey _ key c).symm.trans hk
    split_ifs at hk with h
    · exact .inr ⟨(Option.some.inj hk).symm, (filled_eq_some_iff.mp h).1⟩
    · exact .inl (ht.byCall c k hk)
  · show Function.update b.waiting key "" k = ""
    rcases eq_or_ne k key with rfl | hne
    · rw [Function.update_self]
    · rw [Function.update_of_ne hne]
      exact ht.waitKnown k ((mem_keys_announce.mp hk).resolve_right hne)
  · symm
    rw [decide_eq_true_eq]
    intro hempty
    have hin : key ∈ (b.announce key (e.said item key)).keys := mem_keys_announce.mpr (.inr rfl)
    rw [Draft.keys, hempty] at hin
    cases hin

theorem mem_keys_of_place (h : place ToolEntry.key b.entries key = some n) : key ∈ b.keys := by
  obtain ⟨x, hx, hkx⟩ := getElem?_of_place h
  exact hkx ▸ mem_map_of_mem (mem_of_getElem? hx)

variable (key e item) (waited : String)

theorem chatId_said_ne :
    (e.said item key).chatId ≠ "" := by
  show (if trimSpace item.callId ≠ "" then trimSpace item.callId
    else if trimSpace item.id ≠ "" then trimSpace item.id else key.text) ≠ ""
  split_ifs with h₁ h₂
  · exact h₁
  · exact h₂
  · cases key <;> simp [ToolKey.text]

theorem chatId_hear_new :
    (({ key := key } : StreamTool).hear e item waited).chatId = (e.said item key).chatId := by
  simp only [StreamTool.chatId, StreamTool.hear, ResponsesEvent.said]
  by_cases h₁ : trimSpace item.callId = ""
  · by_cases h₂ : trimSpace item.id = "" <;> simp [h₁, h₂, trimSpace_empty, trimSpace_trimSpace]
  · simp [h₁, trimSpace_trimSpace]

variable {key e item} (h : InStep q a b) (hitem : e.item = some item) (hkey : keyForEvent e = some key)
  (hfits : ItemFits b key (e.said item key))

include h hitem hkey hfits

theorem inStep_item_known (hn : place ToolEntry.key b.entries key = some n) :
    InStep (q.toolItem e).1 (a.add (q.toolItem e).2) (b.announce key (e.said item key)) := by
  have ht := h.tools
  have hplace : q.toolForKey key (q.aliasedTool? e item) { key := key } = (q, n) := by
    simp only [toolForKey, ht.byKey, hn]
  obtain ⟨x, hx, hkx⟩ := getElem?_of_place hn
  have hwaited : q.waited e = "" :=
    (waited_eq ht hkey hfits).trans (ht.waitKnown key (mem_keys_of_place hn))
  set said := e.said item key
  have hentries : (b.announce key said).entries = b.entries.modify n (·.hear said) := upsert_of_some hn
  have hrest : ∃ rest, (x.hear said).args = x.args ++ rest := by
    show ∃ rest, (if said.args ≠ "" then said.args else x.args) = x.args ++ rest
    split_ifs with hne
    · exact hfits.args hne x (mem_of_getElem? hx) hkx
    · exact ⟨"", String.append_empty.symm⟩
  obtain ⟨rest, hrest⟩ := hrest
  have htold : ∀ t, ToolSent t x → (t.hear e item "").arguments = (x.hear said).args ∧
      (x.hear said).name = if x.name = "" then (t.hear e item "").name else x.name := by
    refine fun t hsent => ⟨?_, ?_⟩
    · show (if item.argumentsString ≠ "" then item.argumentsString else t.arguments ++ "") = _
      rw [hsent.arguments, String.append_empty]
      rfl
    · show (if x.name = "" then trimSpace item.name else x.name) = if x.name = "" then
        (if trimSpace item.name ≠ "" then trimSpace item.name else t.name) else x.name
      by_cases hxn : x.name = ""
      · rw [if_pos hxn, if_pos hxn, hsent.name hxn]
        by_cases hne : trimSpace item.name = "" <;> simp [hne]
      · rw [if_neg hxn, if_neg hxn]
  obtain ⟨start, tools, hstate, hall, hclient⟩ := toolDelta_known (q := q.noted key e item) ht.tools
    ht.sawToolCall h.view hx (·.hear e item "") (·.hear said) (fun _ => ⟨rfl, rfl, rfl⟩) rfl htold hrest
    (.inl rfl)
  rw [toolItem_eq hitem hkey hplace, hwaited, hstate, hclient]
  rw [← hentries] at hall ⊢
  refine { h with tools := (toolsTrack_announce ht hkey hfits (fun k => ?_) hall :), view := rfl }
  have hsame : ∀ x, b.entries[n]? = some x → (x.hear said).key = x.key := fun _ _ => rfl
  rw [hentries]
  exact (ht.byKey k).trans (place_congr (map_modify hsame).symm k)

theorem inStep_item_new (hn : place ToolEntry.key b.entries key = none) :
    InStep (q.toolItem e).1 (a.add (q.toolItem e).2) (b.announce key (e.said item key)) := by
  have ht := h.tools
  have hnot : key ∉ b.keys := place_eq_none_iff.mp hn
  set q₀ : ResponsesToChatState := { q with
    tools := q.tools ++ [{ key := key }]
    toolByKey := q.toolByKey.insert key q.tools.length } with hq₀
  have hplace : q.toolForKey key (q.aliasedTool? e item) { key := key } = (q₀, q.tools.length) := by
    simp only [toolForKey, ht.byKey, hn, aliasedTool?_eq_none ht hfits hnot, hq₀]
  have hwaited : q₀.waited e = b.waiting key := (waited_eq ht hkey hfits :)
  set said := e.said item key with hsaid
  have hentries : (b.announce key said).entries = b.entries ++ [said.entry key (b.waiting key)] :=
    upsert_of_none hn
  have hname : (said.entry key (b.waiting key)).name
      = (({ key := key } : StreamTool).hear e item (b.waiting key)).name := by
    show trimSpace item.name = if trimSpace item.name ≠ "" then trimSpace item.name else ""
    by_cases hne : trimSpace item.name = "" <;> simp [hne]
  obtain ⟨start, tools, hstate, hall, hclient⟩ := toolDelta_new
    (q := (q₀.noted key e item).modifyTool q.tools.length (·.hear e item (b.waiting key)))
    (modify_concat q.tools _ _) ht.tools ⟨rfl, rfl, rfl⟩ (e := said.entry key (b.waiting key))
    (chatId_hear_new key e item (b.waiting key)).symm (chatId_said_ne key e item) hname rfl h.view
  rw [toolItem_eq hitem hkey hplace, hwaited, hstate, hclient]
  rw [← hentries] at hall ⊢
  refine { h with tools := (toolsTrack_announce ht hkey hfits (fun k => ?_) hall :), view := rfl }
  have hfresh : (said.entry key (b.waiting key)).key ∉ b.entries.map ToolEntry.key := hnot
  rw [hentries, place_concat hfresh, ← ht.byKey, ← ht.tools.length_eq]
  exact lookup_insert_eq ..

/-- **Item events** keep converter, client and draft in step. -/
theorem inStep_item :
    InStep (q.toolItem e).1 (a.add (q.toolItem e).2) (b.announce key (e.said item key)) := by
  rcases hn : place ToolEntry.key b.entries key with - | n
  · exact inStep_item_new h hitem hkey hfits hn
  · exact inStep_item_known h hitem hkey hfits hn

end ItemSteps

/-! ### Arguments -/

section ArgumentSteps

/-- An argument event fits the draft: its id is used for no other tool. -/
def ArgumentsFit (b : Draft) (key : ToolKey) (e : ResponsesEvent) : Prop :=
  trimSpace e.itemId ≠ "" → ∀ x ∈ b.entries, trimSpace e.itemId ∈ x.ids → x.key = key

theorem findToolForEvent_eq (ht : ToolsTrack q b) (hitem : e.item = none) (hkey : keyForEvent e = some key)
    (hfits : ArgumentsFit b key e) : q.findToolForEvent e = place ToolEntry.key b.entries key := by
  have hbyItem : key ∉ b.keys →
      (if trimSpace e.itemId ≠ "" then q.itemIdToKey.lookup (trimSpace e.itemId) else none) = none := by
    refine fun hnot => ite_eq_right_iff.mpr fun h => Option.eq_none_iff_forall_ne_some.mpr fun k hk => ?_
    obtain ⟨-, x, hx, -, hid⟩ := (ht.byItem _ _).mp hk
    exact hnot (hfits h x hx hid ▸ mem_map_of_mem hx)
  unfold findToolForEvent
  by_cases hin : key ∈ b.keys
  · obtain ⟨i, rfl, hi⟩ | ⟨x, rfl, hi, hx, hne⟩ := key_cases hitem hkey
    · rw [hi, Option.bind_some, ht.byIndex, if_pos hin]
      exact ht.byKey _
    · rw [hi, hx, if_pos hne, (ht.byItem x _).mpr ⟨hne, ht.ownItem x hin⟩]
      exact ht.byKey _
  · have hplace : place ToolEntry.key b.entries key = none := place_eq_none_iff.mpr hin
    have hindex : e.outputIndex.bind (q.outputIndexToKey.lookup ·) = none := by
      rcases hi : e.outputIndex with - | i
      · rfl
      obtain rfl := (outputIndex_eq_iff hkey).mp hi
      rw [Option.bind_some, ht.byIndex, if_neg hin]
    rw [hindex, hbyItem hin, hitem, hplace]
    rfl

theorem argue_of_some (h : place ToolEntry.key b.entries key = some n) (delta : String) :
    b.argue key delta = { b with entries := b.entries.modify n fun x =>
      { x with args := x.args ++ delta } } := by
  simp only [Draft.argue, h]

theorem argue_of_none (h : place ToolEntry.key b.entries key = none) (delta : String) :
    b.argue key delta = { b with waiting := Function.update b.waiting key (b.waiting key ++ delta) } := by
  simp only [Draft.argue, h]

theorem argue_empty (b : Draft) (key : ToolKey) : b.argue key "" = b := by
  rcases hn : place ToolEntry.key b.entries key with - | n
  · rw [argue_of_none hn, String.append_empty, Function.update_eq_self]
  rw [argue_of_some hn]
  simp

theorem inStep_arguments_known (h : InStep q a b) (hn : place ToolEntry.key b.entries key = some n)
    (delta : String) :
    InStep ((q.modifyTool n fun t => { t with arguments := t.arguments ++ delta }).toolDelta n delta).1
      (a.add ((q.modifyTool n fun t => { t with arguments := t.arguments ++ delta }).toolDelta n delta).2)
      (b.argue key delta) := by
  have ht := h.tools
  obtain ⟨x, hx, -⟩ := getElem?_of_place hn
  have htold : ∀ t, ToolSent t x → t.arguments ++ delta = x.args ++ delta ∧
      x.name = if x.name = "" then t.name else x.name := by
    refine fun t hsent => ⟨congrArg (· ++ delta) hsent.arguments, ?_⟩
    split_ifs with hxn
    · rw [hsent.name hxn, hxn]
    · rfl
  obtain ⟨start, tools, hstate, hall, hclient⟩ := toolDelta_known ht.tools ht.sawToolCall h.view hx
    (fun t => { t with arguments := t.arguments ++ delta }) (fun x => { x with args := x.args ++ delta })
    (fun _ => ⟨rfl, rfl, rfl⟩) rfl htold rfl (.inr rfl)
  rw [hstate, hclient, argue_of_some hn]
  set b' : Draft := { b with entries := b.entries.modify n fun x =>
    { x with args := x.args ++ delta } } with hb'
  -- only the arguments of one entry differ
  have hkeys : b'.keys = b.keys := map_modify fun _ _ => rfl
  have huses : ∀ (ids : ToolEntry → List String), (∀ x, ids { x with args := x.args ++ delta } = ids x) →
      ∀ k y, b'.Uses ids k y ↔ b.Uses ids k y := by
    refine fun ids hids k y => (exists_mem_modify hx (Q := fun _ => False) fun x => ?_).trans
      (or_iff_left nofun)
    rw [hids, or_false]
  refine { h with
    tools := ⟨?_, ?_, ?_, ?_, ?_, ?_, ht.waits, ?_, hall, ?_⟩
    view := rfl }
  · rw [hkeys]
    exact ht.nodup
  · exact fun k => (ht.byKey k).trans (place_congr hkeys.symm k)
  · rw [hkeys]
    exact ht.byIndex
  · intro y k
    rw [huses _ fun _ => rfl]
    exact ht.byItem y k
  · intro y hy
    rw [huses _ fun _ => rfl]
    exact ht.ownItem y (hkeys ▸ hy)
  · intro c k hk
    rw [huses _ fun _ => rfl]
    exact ht.byCall c k hk
  · rw [hkeys]
    exact ht.waitKnown
  · symm
    rw [decide_eq_true_eq]
    exact ne_nil_of_mem (mem_of_getElem? (getElem?_modify_self hx _))

theorem inStep_arguments_unknown (h : InStep q a b) (hkey : keyForEvent e = some key) (hitem : e.item = none)
    (hn : place ToolEntry.key b.entries key = none) (hdelta : e.delta ≠ "")
    (hfind : q.findToolForEvent e = none) :
    InStep (q.toolArgumentsDelta e).1 (a.add (q.toolArgumentsDelta e).2) (b.argue key e.delta) := by
  have ht := h.tools
  have hnot : key ∉ b.keys := place_eq_none_iff.mp hn
  have hknown : ∀ k ∈ b.keys, Function.update b.waiting key (b.waiting key ++ e.delta) k = "" := by
    intro k hk
    have hk' : k ≠ key := by
      rintro rfl
      exact hnot hk
    rw [Function.update_of_ne hk']
    exact ht.waitKnown k hk
  have hwaits : ∀ q' : ResponsesToChatState,
      (∀ k, q'.pending k = if k = key then some (b.waiting key ++ e.delta) else q.pending k) →
      ∀ k, q'.pending k = filled (Function.update b.waiting key (b.waiting key ++ e.delta) k) := by
    intro q' hq' k
    rw [hq']
    split_ifs with hk
    · rw [hk, Function.update_self, filled, if_neg (append_ne_empty hdelta _)]
    · rw [Function.update_of_ne hk, ht.waits]
  unfold toolArgumentsDelta
  rw [if_neg hdelta, hfind, argue_of_none hn]
  obtain ⟨i, rfl, hi⟩ | ⟨x, rfl, hi, hx, hxne⟩ := key_cases hitem hkey
  · rw [hi]
    refine { h with tools := { ht with waits := hwaits _ fun k => ?_, waitKnown := hknown } }
    cases k with
    | output j =>
      refine (lookup_insert_eq _ _ _ _).trans ?_
      simp only [ToolKey.output.injEq, show (q.pendingArgsByOutputIndex.lookup i) = _ from ht.waits
        (.output i), getD_filled]
      rfl
    | _ => rfl
  · rw [hi, hx, if_pos hxne]
    refine { h with tools := { ht with waits := hwaits _ fun k => ?_, waitKnown := hknown } }
    cases k with
    | item y =>
      refine (lookup_insert_eq _ _ _ _).trans ?_
      simp only [ToolKey.item.injEq, show (q.pendingArgsByItemId.lookup x) = _ from ht.waits (.item x),
        getD_filled]
      rfl
    | _ => rfl

/-- **Argument deltas** keep converter, client and draft in step. -/
theorem inStep_arguments (h : InStep q a b) (hitem : e.item = none) (hkey : keyForEvent e = some key)
    (hfits : ArgumentsFit b key e) :
    InStep (q.toolArgumentsDelta e).1 (a.add (q.toolArgumentsDelta e).2) (b.argue key e.delta) := by
  by_cases hdelta : e.delta = ""
  · rw [hdelta, argue_empty]
    unfold toolArgumentsDelta
    rw [if_pos hdelta]
    exact h
  have hfind := findToolForEvent_eq h.tools hitem hkey hfits
  rcases hn : place ToolEntry.key b.entries key with - | n
  · exact inStep_arguments_unknown h hkey hitem hn hdelta (hfind.trans hn)
  unfold toolArgumentsDelta
  rw [if_neg hdelta, hfind, hn]
  exact inStep_arguments_known h hn e.delta

/-- A tool of which nothing is left to send. -/
structure StreamTool.Quiet (t : StreamTool) : Prop where
  sent : t.sent = true
  argsSentAt : t.argsSentAt = t.arguments.utf8ByteSize
  name : t.name = "" ∨ t.nameSent = true

theorem ToolSent.quiet {t : StreamTool} {x : ToolEntry} (h : ToolSent t x) : t.Quiet := by
  refine ⟨h.sent, h.arguments ▸ h.argsSentAt, ?_⟩
  rw [h.nameSent, decide_eq_true_eq]
  exact or_iff_not_imp_right.mpr fun hx => h.name (not_not.mp hx)

theorem toolDelta_quiet {t : StreamTool} (htn : q.tools[n]? = some t) (h : t.Quiet) :
    q.toolDelta n "" = (q, []) :=
  toolDelta_silent htn h.sent (unsent_eq String.append_empty.symm h.argsSentAt) h.name

end ArgumentSteps

/-! ### Text and reasoning -/

section TextSteps

/-- What the chunks are labelled with does not matter. -/
theorem InStep.relabel (h : InStep q a b) (id model : String) (created : Int) (start : Bool) :
    InStep { q with id := id, model := model, created := created, sentStart := start } a b :=
  { h with tools := { h.tools with } }

theorem inStep_ensureStart (h : InStep q a b) : InStep q.ensureStart.1 (a.add q.ensureStart.2) b := by
  obtain ⟨start, hstart⟩ := ensureStart_eq q
  rw [hstart, add_ensureStart]
  exact h.relabel ..

theorem inStep_metadata (h : InStep q a b) (response : Option ResponsesResponse) :
    InStep (q.applyResponseMetadata response) a b := by
  rcases response with - | response
  · exact h
  · exact h.relabel ..

/-- **Text** keeps converter, client and draft in step. -/
theorem inStep_text (h : InStep q a b) (delta : String) :
    InStep (q.textDelta delta).1 (a.add (q.textDelta delta).2) { b with text := b.text ++ delta } := by
  unfold ResponsesToChatState.textDelta
  split_ifs with hd
  · rw [hd, String.append_empty]
    exact h
  obtain ⟨start, hstart⟩ := ensureStart_eq { q with hasSentText := true }
  rw [add_append, add_ensureStart, hstart]
  refine { h with
    tools := { h.tools with }
    text := congrArg (· ++ delta) h.text
    reasoning := (String.append_empty).trans h.reasoning
    hasSentText := (decide_eq_true (append_ne_empty hd b.text)).symm
    finished := (append_nil _).trans h.finished }

theorem withSummaryBreak_ne_empty {delta : String} (h : delta ≠ "") : withSummaryBreak delta ≠ "" := by
  unfold withSummaryBreak
  split_ifs
  · exact h
  · exact append_ne_empty h _
  · exact append_ne_empty h _

theorem reason_of_open (h : b.partClosed = false) (delta : String) :
    b.reason delta = { b with reasoning := b.reasoning ++ delta } := by
  unfold Draft.reason
  split_ifs with hd hclosed
  · rw [hd, String.append_empty]
  · exact absurd (h.symm.trans hclosed) Bool.false_ne_true
  · rw [← h]

/-- **Reasoning** keeps converter, client and draft in step. -/
theorem inStep_reasoning (h : InStep q a b) (delta : String) :
    InStep (q.reasoningDelta delta).1 (a.add (q.reasoningDelta delta).2) (b.reason delta) := by
  unfold reasoningDelta Draft.reason
  by_cases hd : delta = ""
  · rw [if_pos hd, if_pos hd]
    exact h
  rw [if_neg hd, if_neg hd, h.partClosed]
  have hne : (if b.partClosed then withSummaryBreak delta else delta) ≠ "" := by
    split
    · exact withSummaryBreak_ne_empty hd
    · exact hd
  generalize (if b.partClosed then withSummaryBreak delta else delta) = sent at hne
  obtain ⟨start, hstart⟩ := ensureStart_eq { q with needsReasoningSummaryBreak := false }
  dsimp only
  rw [add_append, add_ensureStart, hstart]
  refine { h with
    tools := { h.tools with }
    text := (String.append_empty).trans h.text
    reasoning := congrArg (· ++ sent) h.reasoning
    hasSentReasoning := (decide_eq_true (append_ne_empty hne b.reasoning)).symm
    partClosed := rfl
    finished := (append_nil _).trans h.finished }

end TextSteps

/-! ### The end -/

/-- Nothing waits, and every tool has been sent. -/
structure AllSent (q : ResponsesToChatState) : Prop where
  waits : ∀ k, q.pending k = none
  tools : ∀ k n, q.toolByKey.lookup k = some n → ∃ t, q.tools[n]? = some t ∧ t.Quiet

section Ending

theorem eq_empty_of_lookup {α β : Type} [DecidableEq α] {m : AList fun _ : α => β}
    (h : ∀ k, m.lookup k = none) :
    m = ∅ := by
  apply AList.ext
  show m.entries = []
  rcases he : m.entries with - | ⟨x, xs⟩
  · rfl
  have hx : x.1 ∈ m := by
    show x.1 ∈ m.entries.keys
    rw [he]
    exact mem_cons_self
  exact absurd hx (AList.lookup_eq_none.mp (h x.1))

theorem lookup_erase_of_empty {α β : Type} [DecidableEq α] {m : AList fun _ : α => β} (h : m = ∅) (k : α) :
    m.lookup k = none ∧ m.erase k = m := by
  subst h
  exact ⟨rfl, rfl⟩

theorem AllSent.empty (h : AllSent q) : q.pendingArgsByOutputIndex = ∅ ∧ q.pendingArgsByItemId = ∅ :=
  ⟨eq_empty_of_lookup fun i => h.waits (.output i), eq_empty_of_lookup fun x => h.waits (.item x)⟩

theorem InStep.allSent (h : InStep q a b) (hwaiting : ∀ k, b.waiting k = "") : AllSent q := by
  refine ⟨fun k => ?_, fun k n hk => ?_⟩
  · rw [h.tools.waits, hwaiting]
    rfl
  · rw [h.tools.byKey] at hk
    obtain ⟨x, hx, -⟩ := getElem?_of_place hk
    obtain ⟨t, ht, hsent⟩ := getElem?_of_forall₂ (List.Forall₂.flip h.tools.tools) hx
    exact ⟨t, ht, hsent.quiet⟩

theorem flushKey_allSent (h : AllSent q) {k : ToolKey} (hk : q.toolByKey.lookup k = some n) :
    q.flushKey k = (q, []) := by
  obtain ⟨t, ht, hquiet⟩ := h.tools k n hk
  have hstate : q.takePending n k = q := by
    unfold takePending modifyTool
    cases k with
    | output i => simp [lookup_erase_of_empty h.empty.1 i]
    | item x => simp [lookup_erase_of_empty h.empty.2 x]
    | call => rfl
  unfold flushKey toolForKey
  rw [hk]
  dsimp only
  rw [hstate]
  exact toolDelta_quiet ht hquiet

theorem flushAllPendingTools_allSent (h : AllSent q) : q.flushAllPendingTools = (q, []) := by
  have hrun : ∀ keys : List ToolKey, (∀ k ∈ keys, k ∈ q.toolByKey) →
      run flushKey q keys = (q, []) := by
    intro keys hkeys
    induction keys with
    | nil => rfl
    | cons k keys ih =>
      obtain ⟨hk, hkeys⟩ := forall_mem_cons.mp hkeys
      obtain ⟨n, hn⟩ := Option.isSome_iff_exists.mp (AList.lookup_isSome.mpr hk)
      rw [run_cons, flushKey_allSent h hn, ih hkeys]
      rfl
  refine hrun _ fun k hk => ?_
  have hk' := (perm_insertionSort _ _).mem_iff.mp hk
  rw [h.empty.1, h.empty.2] at hk'
  rcases mem_append.mp hk' with hk' | hk'
  · rcases mem_append.mp hk' with hk' | hk'
    · exact AList.mem_keys.mpr hk'
    · cases hk'
  · cases hk'

/-- The end of a stream of which all has been sent is one finishing chunk. -/
theorem add_finalize (h : AllSent q) (hfinalized : q.finalized = false) (response : Option ResponsesResponse)
    (a : Assembly) : a.add (q.finalize response).2 = { a with
        finishReasons := a.finishReasons ++
          [(responsesFinishReasonFromStatus response).getD
            (if q.sawToolCall then "tool_calls" else "stop")] } := by
  have hflush := flushAllPendingTools_allSent (q := { q with finalized := true })
    ⟨h.waits, h.tools⟩
  obtain ⟨start, hstart⟩ := ensureStart_eq { q with finalized := true }
  unfold finalize
  rw [if_neg (by simp [hfinalized]), hflush]
  dsimp only
  rw [nil_append, add_append, add_ensureStart, hstart]
  simp [makeChunk, add, addChoices, addChoice,
    ChoiceDelta.getContentString, ChoiceDelta.getReasoningContent]

end Ending

theorem responsesStreamToChat_eq (q : ResponsesToChatState) {events : List ResponsesEvent}
    (h : ∀ e ∈ events, e.type ≠ .failed ∧ e.type ≠ .error) :
    responsesStreamToChat q events = .ok (run convert q events).2 := by
  induction events generalizing q with
  | nil => rfl
  | cons e events ih =>
    obtain ⟨⟨hfailed, herror⟩, hrest⟩ := forall_mem_cons.mp h
    have hstep : responsesStreamEventToChatChunks q e = .ok (q.convert e) := by
      unfold responsesStreamEventToChatChunks
      split
      · exact absurd ‹_› hfailed
      · exact absurd ‹_› herror
      · rfl
    rw [responsesStreamToChat, hstep]
    show (do
      let chunks ← responsesStreamToChat (q.convert e).1 events
      return (q.convert e).2 ++ chunks) = _
    rw [ih _ hrest]
    rfl

/-- A fresh converter, a client that has heard nothing, and the empty draft. -/
theorem inStep_new (model : String) (now : Int) : InStep (newResponsesToChatState model now) {} {} := by
  refine ⟨⟨nodup_nil, fun k => rfl, fun i => rfl, fun x k => ⟨nofun, ?_⟩, nofun, nofun, ?_, nofun, .nil, rfl⟩,
    rfl, rfl, rfl, rfl, rfl, rfl, rfl, rfl⟩
  · rintro ⟨-, e, he, -⟩
    cases he
  · intro k
    cases k <;> rfl

/-! ### Events -/

/-- Events that take a converter and a client from one draft to another. -/
def Carries (events : List ResponsesEvent) (b b' : Draft) : Prop :=
  ∀ q a, InStep q a b →
    InStep (run convert q events).1 (a.add (run convert q events).2) b'

section Events

variable {events events' : List ResponsesEvent}

theorem carries_nil (b : Draft) : Carries [] b b := fun _ _ h => h

theorem Carries.append (h : Carries events b b') (h' : Carries events' b' b'') :
    Carries (events ++ events') b b'' := by
  intro q a hq
  rw [run_append, add_append]
  exact h' _ _ (h q a hq)

theorem Carries.cons (h : Carries [e] b b') (h' : Carries events b' b'') : Carries (e :: events) b b'' :=
  h.append h'

theorem carries_singleton {f : ResponsesToChatState → ResponsesToChatState × List ChatChunk}
    (hconvert : ∀ q, q.convert e = f q) (h : ∀ q a, InStep q a b → InStep (f q).1 (a.add (f q).2) b') :
    Carries [e] b b' := by
  intro q a hq
  rw [run_cons, run_nil, append_nil, hconvert]
  exact h q a hq

theorem carries_created (htype : e.type = .created) (b : Draft) : Carries [e] b b := by
  refine carries_singleton (fun q => ?_) fun q a hq => inStep_ensureStart (inStep_metadata hq e.response)
  rw [convert, htype]

theorem carries_of_ignored (h : ∀ q : ResponsesToChatState, q.convert e = (q, [])) (b : Draft) :
    Carries [e] b b :=
  carries_singleton h fun _ _ hq => hq

/-- Events about items that are no tools say nothing by themselves. -/
theorem carries_other_item (htype : e.type = .outputItemAdded ∨ e.type = .outputItemDone)
    (htool : e.item.any (·.type.isTool) = false) (b : Draft) : Carries [e] b b := by
  refine carries_of_ignored (fun q => ?_) b
  unfold convert
  rcases htype with htype | htype <;> rw [htype] <;> exact if_neg (by simp [htool])

/-- Nor do those that close a text, or that the converter does not know. -/
theorem carries_ignored (htype : e.type = .outputTextDone ∨ ∃ name, e.type = .other name) (b : Draft) :
    Carries [e] b b := by
  refine carries_of_ignored (fun q => ?_) b
  unfold convert
  obtain htype | ⟨name, htype⟩ := htype <;> rw [htype]

theorem carries_text (htype : e.type = .outputTextDelta) (b : Draft) :
    Carries [e] b { b with text := b.text ++ e.delta } := by
  refine carries_singleton (fun q => ?_) fun q a hq => inStep_text hq e.delta
  rw [convert, htype]

theorem carries_reasoning (htype : e.type = .reasoningSummaryDelta ∨ e.type = .reasoningTextDelta) (b : Draft) :
    Carries [e] b (b.reason e.delta) := by
  refine carries_singleton (fun q => ?_) fun q a hq => inStep_reasoning hq e.delta
  unfold convert
  rcases htype with htype | htype <;> rw [htype]

theorem carries_reasoningDone (htype : e.type = .reasoningSummaryDone ∨ e.type = .reasoningTextDone)
    (b : Draft) :
    Carries [e] b { b with partClosed := b.partClosed || decide (b.reasoning ≠ "") } := by
  intro q a hq
  rw [run_cons, convert]
  rcases htype with htype | htype <;> rw [htype] <;> exact
    { hq with
      tools := { hq.tools with }
      partClosed := congrArg₂ (· || ·) hq.partClosed hq.hasSentReasoning }

theorem carries_item (htype : e.type = .outputItemAdded ∨ e.type = .outputItemDone) (hitem : e.item = some item)
    (htool : item.type.isTool = true) (hkey : keyForEvent e = some key)
    (hfits : ItemFits b key (e.said item key)) : Carries [e] b (b.announce key (e.said item key)) := by
  refine carries_singleton (fun q => ?_) fun q a hq => inStep_item hq hitem hkey hfits
  unfold convert
  rcases htype with htype | htype <;> rw [htype] <;> exact if_pos (by rw [hitem]; exact htool)

theorem carries_arguments (htype : e.type = .functionArgsDelta ∨ e.type = .customToolInputDelta)
    (hitem : e.item = none) (hkey : keyForEvent e = some key) (hfits : ArgumentsFit b key e) :
    Carries [e] b (b.argue key e.delta) := by
  refine carries_singleton (fun q => ?_) fun q a hq => inStep_arguments hq hitem hkey hfits
  unfold convert
  rcases htype with htype | htype <;> rw [htype]

theorem carries_argumentsDone (htype : e.type = .functionArgsDone ∨ e.type = .customToolInputDone)
    (hitem : e.item = none) (hkey : keyForEvent e = some key) (hfits : ArgumentsFit b key e)
    (hin : key ∈ b.keys) : Carries [e] b b := by
  have hconvert : ∀ q : ResponsesToChatState, q.convert e = q.flushPendingTool e := by
    intro q
    unfold convert
    rcases htype with htype | htype <;> rw [htype]
  refine carries_singleton hconvert fun q a hq => ?_
  -- the tool is known, so there is nothing to flush
  obtain ⟨n, hn⟩ := Option.ne_none_iff_exists'.mp fun hnone => place_eq_none_iff.mp hnone hin
  obtain ⟨x, hx, -⟩ := getElem?_of_place hn
  obtain ⟨t, htn, hsent⟩ := getElem?_of_forall₂ (List.Forall₂.flip hq.tools.tools) hx
  have hflush : q.flushPendingTool e = (q, []) := by
    unfold flushPendingTool
    rw [findToolForEvent_eq hq.tools hitem hkey hfits, hn]
    exact toolDelta_quiet htn hsent.quiet
  rw [hflush]
  exact hq

end Events

end MicrossApi
