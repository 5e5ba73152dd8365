/-
MicrossApi/CustomerCodes.lean

Customer codes bring in customers (`BindCustomerCode`, model/agent_customer.go;
`RevokeCustomerCode`, model/agent_code.go).  A call writes in one place, its
commit: the parent of the user, a binding, and the code's count.  Everything it
has checked before is of rows it has locked, so that it still holds there.

A call reads a summary after its commit, and returns an error if that fails.  What
is counted on the code are therefore the calls that have committed, not those that
have returned success.
-/
import MicrossApi.BindingCalls

namespace MicrossApi

open List StepSystem Interleaving

/-! ### What a code's use writes -/

/-- What the user is and whose customer, if there is the user. -/
def BindingDB.standing (s : BindingDB) (userId : Int) : Option (SubjectType × Int) :=
  (s.db.users.find? userId).map fun u => (u.subjectType, u.parentAgentId)

/-- The user has an enabled binding of the plan. -/
def BindingDB.HasPlan (s : BindingDB) (userId planId : Int) : Prop :=
  ∃ b ∈ s.enabledBindings userId, b.planId = planId

/-- The code with one use more. -/
def CustomerCode.usedBy (record : CustomerCode) (customerId : Int) (c : CustomerCode) : CustomerCode :=
  { c with usedCount := record.usedCount + 1, boundUserId := customerId }

/-- What a call that commits has written. -/
structure Used (customerId : Int) (record : CustomerCode) (insert : Bool) (s s' : BindingDB) : Prop where
  codes : ∀ id, s'.customerCodes.find? id =
    if id = record.id then (s.customerCodes.find? id).map (record.usedBy customerId)
    else s.customerCodes.find? id
  users : ∀ id, s'.standing id =
    if id = customerId then (s.standing id).map fun x => (x.1, record.agentId) else s.standing id
  plans : ∀ u p, s.HasPlan u p → s'.HasPlan u p
  plan : insert = true → s'.HasPlan customerId record.planId

variable {s s' : BindingDB} {customerId : Int} {record : CustomerCode} {insert : Bool} {now : Int}
  {u : Unit} {st st' : BindingStore} {c c' : CodeCall} {a : BindingAnswer} {j k : Nat}
  {l : Option Nat}

theorem standing_synced (s : BindingDB) (userId now u : Int) :
    (s.synced userId now).standing u = s.standing u := by
  unfold BindingDB.synced
  split
  · rfl
  show (((s.db.updateUser userId _ _).users.find? u).map _) = _
  rw [DB.find?_updateUser]
  split
  · rw [Option.map_map]
    rfl
  · rfl

theorem customerCodes_synced (s : BindingDB) (userId now : Int) :
    (s.synced userId now).customerCodes = s.customerCodes := by
  unfold BindingDB.synced
  split <;> rfl

theorem hasPlan_synced (s : BindingDB) (userId now u p : Int) :
    (s.synced userId now).HasPlan u p ↔ s.HasPlan u p := by
  rw [BindingDB.HasPlan, BindingDB.HasPlan, BindingDB.enabledBindings, BindingDB.enabledBindings,
    discountBindings_synced]

theorem hasPlan_insert {b : DiscountBinding} {u p : Int} (hfree : s.discountBindings.find? b.id = none) :
    ({ s with discountBindings := s.discountBindings.insert b } : BindingDB).HasPlan u p ↔
      s.HasPlan u p ∨ (b.subjectId = u ∧ b.enabled = true) ∧ b.planId = p := by
  have hrows : (s.discountBindings.insert b).rows = s.discountBindings.rows ++ [b] :=
    Table.rows_insert hfree
  simp only [BindingDB.HasPlan, BindingDB.enabledBindings, hrows, filter_append, mem_append,
    or_and_right, exists_or]
  simp

theorem ok_insertCodeBinding {env : BindEnv} {planId : Int}
    (h : insertCodeBinding env now customerId planId insert s = .ok (u, s')) :
    s'.customerCodes = s.customerCodes ∧ (∀ id, s'.standing id = s.standing id) ∧
      (∀ u p, s.HasPlan u p → s'.HasPlan u p) ∧ (insert = true → s'.HasPlan customerId planId) := by
  unfold insertCodeBinding at h
  split at h
  · obtain ⟨_, s₁, hcreate, hsync⟩ := Tx.ok_bind_iff.mp h
    obtain ⟨-, hfree, rfl⟩ := ok_createBinding_iff.mp hcreate
    obtain ⟨-, rfl⟩ := ok_sync_iff.mp hsync
    refine ⟨customerCodes_synced _ _ _, fun id => standing_synced _ _ _ _, fun u p hp => ?_, fun _ => ?_⟩
    · exact (hasPlan_synced _ _ _ _ _).mpr ((hasPlan_insert hfree).mpr (.inl hp))
    · exact (hasPlan_synced _ _ _ _ _).mpr ((hasPlan_insert hfree).mpr (.inr ⟨⟨rfl, rfl⟩, rfl⟩))
  next hinsert =>
    obtain ⟨-, rfl⟩ := Tx.ok_pure_iff.mp h
    exact ⟨rfl, fun _ => rfl, fun _ _ hp => hp, fun hins => absurd hins hinsert⟩

theorem ok_finishCustomerCode {env : CodeEnv}
    (h : finishCustomerCode env now customerId record insert s = .ok (u, s')) :
    Used customerId record insert s s' := by
  simp only [finishCustomerCode, onDB, Tx.ok_zoom_bind_iff, Tx.ok_update_iff] at h
  obtain ⟨_, _, rfl, h⟩ := h
  obtain ⟨_, s₁, hinsert, h⟩ := Tx.ok_bind_iff.mp h
  simp only [Tx.ok_require_bind_iff, Tx.ok_update_iff] at h
  obtain ⟨-, rfl⟩ := h
  obtain ⟨hcodes, hstanding, hplans, hplan⟩ := ok_insertCodeBinding hinsert
  refine ⟨fun id => ?_, fun id => ?_, hplans, hplan⟩
  · refine (Table.find?_modify s₁.customerCodes record.id id (record.usedBy customerId)
      fun _ => rfl).trans ?_
    rw [hcodes]
  · show s₁.standing id = _
    rw [hstanding id]
    show ((s.db.updateUser customerId _ _).users.find? id).map _ = _
    rw [DB.find?_updateUser]
    split
    · rw [Option.map_map, BindingDB.standing, Option.map_map]
      rfl
    · rfl

/-! ### Growth

What no step undoes. -/

/-- A code keeps its terms, a user with a parent and an agent keep their standing,
and a user keeps the plans. -/
structure Grows (s s' : BindingDB) : Prop where
  codes : ∀ id c, s.customerCodes.find? id = some c → ∃ c', s'.customerCodes.find? id = some c' ∧
    c'.agentId = c.agentId ∧ c'.planId = c.planId ∧ c'.maxUses = c.maxUses
  users : ∀ id x, s.standing id = some x → ∃ x', s'.standing id = some x' ∧ x'.1 = x.1 ∧
    (x.2 ≠ 0 ∨ x.1 = .agent → x'.2 = x.2)
  plans : ∀ u p, s.HasPlan u p → s'.HasPlan u p

theorem Grows.refl (s : BindingDB) : Grows s s :=
  ⟨fun _ c hc => ⟨c, hc, rfl, rfl, rfl⟩, fun _ x hx => ⟨x, hx, rfl, fun _ => rfl⟩, fun _ _ h => h⟩

theorem Grows.trans {s'' : BindingDB} (h : Grows s s') (h' : Grows s' s'') : Grows s s'' := by
  refine ⟨fun id c hc => ?_, fun id x hx => ?_, fun u p hp => h'.plans u p (h.plans u p hp)⟩
  · obtain ⟨c', hc', hagent, hplan, hmax⟩ := h.codes id c hc
    obtain ⟨c'', hc'', hagent', hplan', hmax'⟩ := h'.codes id c' hc'
    exact ⟨c'', hc'', hagent'.trans hagent, hplan'.trans hplan, hmax'.trans hmax⟩
  · obtain ⟨x', hx', hsubject, hparent⟩ := h.users id x hx
    obtain ⟨x'', hx'', hsubject', hparent'⟩ := h'.users id x' hx'
    refine ⟨x'', hx'', hsubject'.trans hsubject, fun hfixed => ?_⟩
    have hsame := hparent hfixed
    rw [hparent' (by rw [hsame, hsubject]; exact hfixed), hsame]

/-- The user is the code's customer: of its agent and with its plan. -/
def Brought (s : BindingDB) (customerId codeId : Int) : Prop :=
  ∃ c, s.customerCodes.find? codeId = some c ∧
    (∃ x, s.standing customerId = some x ∧ x.2 = c.agentId) ∧
    (0 < c.planId → s.HasPlan customerId c.planId)

/-- Every code has an agent, and is not used more often than allowed. -/
structure Issued (s : BindingDB) : Prop where
  agent : ∀ id c, s.customerCodes.find? id = some c → c.agentId ≠ 0
  uses : ∀ id c, s.customerCodes.find? id = some c → 0 < c.maxUses → c.usedCount ≤ c.maxUses

theorem Brought.grows {codeId : Int} (h : Brought s customerId codeId) (hs : Issued s)
    (hgrows : Grows s s') : Brought s' customerId codeId := by
  obtain ⟨c, hc, ⟨x, hx, hparent⟩, hplan⟩ := h
  obtain ⟨c', hc', hagent, hplanId, -⟩ := hgrows.codes codeId c hc
  obtain ⟨x', hx', -, hkept⟩ := hgrows.users customerId x hx
  refine ⟨c', hc', ⟨x', hx', ?_⟩, ?_⟩
  · rw [hkept (.inl (hparent ▸ hs.agent codeId c hc)), hparent, hagent]
  · rw [hplanId]
    exact fun hpos => hgrows.plans _ _ (hplan hpos)

/-! ### What a call has checked -/

/-- The call has locked the code, which is as it was read. -/
def CustomerCode.LockedBy (record : CustomerCode) (st : BindingStore) (j : Nat) : Prop :=
  st.locks (.code record.id) = some j ∧ st.tables.customerCodes.find? record.id = some record

/-- The call has locked the user, who may become the agent's customer. -/
def CustomerLocked (st : BindingStore) (j : Nat) (customerId agentId : Int) : Prop :=
  st.locks (.user customerId) = some j ∧ ∃ x, st.tables.standing customerId = some x ∧
    x.1 ≠ .agent ∧ (x.2 = 0 ∨ x.2 = agentId)

/-- The code may be used once more. -/
def CustomerCode.Unspent (record : CustomerCode) : Prop :=
  0 < record.maxUses → record.usedCount < record.maxUses

/-- What call `j` knows. -/
def CodeCall.Ok (st : BindingStore) (j : Nat) : CodeCall → Prop
  | .lockCode _ _ => True
  | .lockUser _ record _ => record.LockedBy st j
  | .planBound customerId record _ _ =>
    record.LockedBy st j ∧ CustomerLocked st j customerId record.agentId
  | .planUsable customerId record isBound =>
    record.LockedBy st j ∧ CustomerLocked st j customerId record.agentId ∧ record.Unspent ∧
      (isBound = true → st.tables.HasPlan customerId record.planId)
  | .quota customerId record =>
    record.LockedBy st j ∧ CustomerLocked st j customerId record.agentId ∧ record.Unspent
  | .commit customerId record insert =>
    record.LockedBy st j ∧ CustomerLocked st j customerId record.agentId ∧ record.Unspent ∧
      (insert = false → 0 < record.planId → st.tables.HasPlan customerId record.planId)
  | .summary customerId record => Brought st.tables customerId record.id
  | .ended result committed =>
    (result = .ok () → committed ≠ none) ∧ ∀ x ∈ committed, Brought st.tables x.1 x.2.id

theorem CodeCall.Ok.brought (h : c.Ok st j) {x : Int × CustomerCode} (hx : x ∈ c.committed) :
    Brought st.tables x.1 x.2.id := by
  cases c with
  | summary =>
    obtain rfl := Option.some.inj hx
    exact h
  | ended => exact h.2 x hx
  | _ => cases hx

theorem CodeCall.ok_failed (st : BindingStore) (j : Nat) (e : Err) :
    (CodeCall.ended (.error e) none).Ok st j :=
  ⟨fun h => (nomatch h), fun _ hx => (nomatch hx)⟩

/-- What a step leaves to the calls other than `k`: their locks and the rows they
have locked. -/
structure CodeYields (k : Option Nat) (st st' : BindingStore) : Prop where
  locks : ∀ j y, some j ≠ k → st.locks y = some j → st'.locks y = some j
  codes : ∀ j id, some j ≠ k → st.locks (.code id) = some j →
    st'.tables.customerCodes.find? id = st.tables.customerCodes.find? id
  users : ∀ j id, some j ≠ k → st.locks (.user id) = some j →
    st'.tables.standing id = st.tables.standing id
  grows : Grows st.tables st'.tables

theorem CustomerCode.LockedBy.yields (h : record.LockedBy st j)
    (hy : CodeYields l st st') (hj : some j ≠ l) : record.LockedBy st' j :=
  ⟨hy.locks j _ hj h.1, (hy.codes j _ hj h.1).trans h.2⟩

theorem CustomerLocked.yields {agentId : Int}
    (h : CustomerLocked st j customerId agentId) (hy : CodeYields l st st') (hj : some j ≠ l) :
    CustomerLocked st' j customerId agentId := by
  refine ⟨hy.locks j _ hj h.1, ?_⟩
  rw [hy.users j _ hj h.1]
  exact h.2

theorem CodeCall.Ok.yields (h : c.Ok st j) (hs : Issued st.tables)
    (hy : CodeYields l st st') (hj : some j ≠ l) : c.Ok st' j := by
  cases c with
  | lockCode => trivial
  | lockUser => exact CustomerCode.LockedBy.yields h hy hj
  | planBound => exact ⟨h.1.yields hy hj, h.2.yields hy hj⟩
  | planUsable =>
    obtain ⟨hcode, huser, hunspent, hplan⟩ := h
    exact ⟨hcode.yields hy hj, huser.yields hy hj, hunspent,
      fun hb => hy.grows.plans _ _ (hplan hb)⟩
  | quota => exact ⟨h.1.yields hy hj, h.2.1.yields hy hj, h.2.2⟩
  | commit =>
    obtain ⟨hcode, huser, hunspent, hplan⟩ := h
    exact ⟨hcode.yields hy hj, huser.yields hy hj, hunspent,
      fun hins hpos => hy.grows.plans _ _ (hplan hins hpos)⟩
  | summary => exact Brought.grows h hs hy.grows
  | ended => exact ⟨h.1, fun x hx => (h.2 x hx).grows hs hy.grows⟩

/-! ### One step of a call -/

/-- A step of call `k` only reads and takes or releases locks, or it commits. -/
inductive CodeMove (k : Nat) (st : BindingStore) (c : CodeCall) : BindingStore → CodeCall → Prop
  | reads {locks : Locks BindingKey} {c' : CodeCall}
      (hlocks : ∀ j y, j ≠ k → st.locks y = some j → locks y = some j)
      (hcommitted : c'.committed = c.committed) (hok : c'.Ok { st with locks := locks } k) :
      CodeMove k st c { st with locks := locks } c'
  | commits {customerId : Int} {record : CustomerCode} {insert : Bool} {tables : BindingDB}
      (hc : c = .commit customerId record insert)
      (hused : Used customerId record insert st.tables tables) :
      CodeMove k st c { tables := tables, locks := st.locks.release k } (.summary customerId record)

theorem codeMove_stay (hcommitted : c'.committed = c.committed) (hok : c'.Ok st k) : CodeMove k st c st c' :=
  .reads (fun _ _ _ h => h) hcommitted hok

theorem CustomerCode.LockedBy.take (h : record.LockedBy st k) (x : BindingKey) :
    record.LockedBy { st with locks := st.locks.take x k } k :=
  ⟨Locks.take_mono h.1, h.2⟩

theorem unspent_of_customerCodeRejectReason
    (h : customerCodeRejectReason record now = .ok u) : record.Unspent := by
  intro hmax
  unfold customerCodeRejectReason at h
  split_ifs at h with henabled hexpired hspent
  exact Int.not_le.mp fun hle => hspent ⟨hmax, hle⟩

theorem standing_of_customerRejectReason {customer : User}
    (h : customerRejectReason customer record = .ok u) : customer.subjectType ≠ .agent ∧
      (customer.parentAgentId = 0 ∨ customer.parentAgentId = record.agentId) := by
  unfold customerRejectReason at h
  split_ifs at h with hagent hother
  refine ⟨hagent, ?_⟩
  by_contra hne
  exact hother (not_or.mp hne)

theorem CodeCall.next_move (hok : c.Ok st k) : CodeMove k st c (c.next k a st).1 (c.next k a st).2 := by
  have hnext := c.next_cases st k a
  generalize c.next k a st = p at hnext ⊢
  cases hnext with
  | fails hc e => exact .reads (fun _ _ hj h => Locks.release_other hj h) hc.symm (CodeCall.ok_failed _ k e)
  | waitsForCode => exact codeMove_stay rfl trivial
  | locksCode customerId now hfind hcan =>
    refine .reads (fun j y hj h => Locks.take_other hcan hj h) rfl ?_
    -- the row that has the code is the row with its id
    refine ⟨Locks.take_self _ _ _, Table.find?_eq_some_iff.mpr ⟨?_, rfl⟩⟩
    exact mem_of_find?_eq_some hfind
  | waitsForUser | ended => exact codeMove_stay rfl hok
  | @locksUser customerId record customer now hfind hcan hreason =>
    refine .reads (fun j y hj h => Locks.take_other hcan hj h) rfl ?_
    refine ⟨CustomerCode.LockedBy.take hok _, Locks.take_self _ _ _,
      (customer.subjectType, customer.parentAgentId), ?_, standing_of_customerRejectReason hreason⟩
    exact congrArg (Option.map _) hfind
  | findsPlan parentAgentId hreason hbound =>
    obtain ⟨hcode, huser⟩ := hok
    refine codeMove_stay rfl ⟨hcode, huser, unspent_of_customerCodeRejectReason hreason, fun hb => ?_⟩
    rw [hbound] at hb
    obtain ⟨b, hb, hplan⟩ := any_eq_true.mp ((Bool.and_eq_true _ _).mp hb).2
    exact ⟨b, hb, of_decide_eq_true hplan⟩
  | needsPlace => exact codeMove_stay rfl ⟨hok.1, hok.2.1, hok.2.2.1⟩
  | needsNoPlace customerId h =>
    exact codeMove_stay rfl ⟨hok.1, hok.2.1, hok.2.2.1, fun _ hpos => hok.2.2.2 (h hpos)⟩
  | findsPlace => exact codeMove_stay rfl ⟨hok.1, hok.2.1, hok.2.2, nofun⟩
  | commits htables => exact .commits rfl (ok_finishCustomerCode htables)
  | returns =>
    refine codeMove_stay rfl ⟨nofun, fun x hx => ?_⟩
    obtain rfl := Option.some.inj hx
    exact hok

/-! ### What a commit keeps -/

section Commits

variable (h : Used customerId record insert s s')

include h

theorem Used.grows
    (huser : ∃ x, s.standing customerId = some x ∧ x.1 ≠ .agent ∧ (x.2 = 0 ∨ x.2 = record.agentId)) :
    Grows s s' := by
  refine ⟨fun id c hc => ?_, fun id x hx => ?_, h.plans⟩
  · rw [h.codes, hc]
    split
    · exact ⟨_, rfl, rfl, rfl, rfl⟩
    · exact ⟨c, rfl, rfl, rfl, rfl⟩
  · rw [h.users, hx]
    split
    next heq =>
      subst heq
      obtain ⟨y, hy, hagent, hparent⟩ := huser
      obtain rfl := Option.mem_unique hx hy
      refine ⟨_, rfl, rfl, fun hfixed => ?_⟩
      rcases hfixed with hne | hag
      · exact (hparent.resolve_left hne).symm
      · exact absurd hag hagent
    · exact ⟨x, rfl, rfl, fun _ => rfl⟩

variable (hcode : s.customerCodes.find? record.id = some record)

include hcode

theorem Used.issued (hunspent : record.Unspent)
    (hs : Issued s) : Issued s' := by
  -- a code of the new table is the old one, or the one just used
  have hcases : ∀ id c, s'.customerCodes.find? id = some c →
      s.customerCodes.find? id = some c ∨ c = record.usedBy customerId record := by
    intro id c hc
    rw [h.codes] at hc
    split at hc
    next heq =>
      rw [heq, hcode] at hc
      exact .inr (Option.some.inj hc).symm
    · exact .inl hc
  refine ⟨fun id c hc => ?_, fun id c hc hmax => ?_⟩
  · rcases hcases id c hc with hc | rfl
    · exact hs.agent id c hc
    · exact hs.agent _ record hcode
  · rcases hcases id c hc with hc | rfl
    · exact hs.uses id c hc hmax
    · exact hunspent hmax

theorem Used.brought
    (huser : ∃ x, s.standing customerId = some x ∧ x.1 ≠ .agent ∧ (x.2 = 0 ∨ x.2 = record.agentId))
    (hplan : insert = false → 0 < record.planId → s.HasPlan customerId record.planId) :
    Brought s' customerId record.id := by
  obtain ⟨x, hx, -⟩ := huser
  refine ⟨record.usedBy customerId record, ?_, ⟨(x.1, record.agentId), ?_, rfl⟩, fun hpos => ?_⟩
  · rw [h.codes, if_pos rfl, hcode]
    rfl
  · rw [h.users, if_pos rfl, hx]
    rfl
  · cases hins : insert with
    | false => exact h.plans _ _ (hplan hins hpos)
    | true => exact h.plan hins

/-- A call uses the code once when it commits. -/
def CodeCall.uses (id : Int) (c : CodeCall) : Nat :=
  if c.committed.any (fun x => x.2.id = id) then 1 else 0

/-- How often the code has been used, if there is the code. -/
def BindingDB.usedCount (s : BindingDB) (id : Int) : Option Int :=
  (s.customerCodes.find? id).map (·.usedCount)

theorem Used.usedCount (id : Int) : s'.usedCount id =
      (s.usedCount id).map (· + ((CodeCall.summary customerId record).uses id : Int)) := by
  rw [BindingDB.usedCount, BindingDB.usedCount, h.codes]
  by_cases hid : id = record.id
  · subst hid
    rw [hcode]
    simp [CodeCall.uses, CodeCall.committed, CustomerCode.usedBy]
  rw [if_neg hid]
  have huses : (CodeCall.summary customerId record).uses id = 0 :=
    if_neg (by simpa [CodeCall.committed] using fun h : record.id = id => hid h.symm)
  rw [huses, Option.map_map]
  exact congrArg (Option.map · _) (funext fun c => (Int.add_zero c.usedCount).symm)

end Commits

/-- What a step of call `k` establishes. -/
structure CodeStep (k : Nat) (st st' : BindingStore) (c c' : CodeCall) : Prop where
  issued : Issued st'.tables
  ok : c'.Ok st' k
  yields : CodeYields (some k) st st'
  used : ∀ id, ∃ n, c'.uses id = c.uses id + n ∧
    st'.tables.usedCount id = (st.tables.usedCount id).map (· + (n : Int))

theorem CodeMove.step (h : CodeMove k st c st' c') (hs : Issued st.tables) (hok : c.Ok st k) :
    CodeStep k st st' c c' := by
  cases h with
  | reads hlocks hcommitted hok' =>
    refine ⟨hs, hok', ⟨fun j y hj => ?_, fun _ _ _ _ => rfl, fun _ _ _ _ => rfl, .refl _⟩, fun id =>
      ⟨0, ?_, ?_⟩⟩
    · exact hlocks j y fun heq => hj (congrArg some heq)
    · rw [CodeCall.uses, hcommitted]
      rfl
    · simp
  | commits hc hused =>
    subst hc
    obtain ⟨⟨hlock, hcode⟩, ⟨hlockUser, huser⟩, hunspent, hplan⟩ := hok
    refine ⟨hused.issued hcode hunspent hs, hused.brought hcode huser hplan,
      ⟨fun j y hj h => ?_, fun j id hj h => ?_, fun j id hj h => ?_, hused.grows huser⟩,
      fun id => ⟨_, (Nat.zero_add _).symm, hused.usedCount hcode id⟩⟩
    · exact Locks.release_other (fun heq => hj (congrArg some heq)) h
    · refine (hused.codes id).trans (if_neg ?_)
      rintro rfl
      exact hj (h.symm.trans hlock)
    · refine (hused.users id).trans (if_neg ?_)
      rintro rfl
      exact hj (h.symm.trans hlockUser)

/-! ### Runs -/

variable {p : Pool BindingStore CodeCall}

/-- A code after a call of `RevokeCustomerCode`. -/
def CustomerCode.revoked (st : BindingStore) (agentId codeId : Int) (c : CustomerCode) : CustomerCode :=
  if st.locks (.code codeId) = none ∧ c.id = codeId ∧ c.agentId = agentId ∧ 0 < agentId ∧ 0 < codeId then
    { c with enabled := false }
  else c

variable (st) (agentId codeId : Int)

theorem find?_revokeCustomerCode (id : Int) :
    (revokeCustomerCode st agentId codeId).tables.customerCodes.find? id =
      (st.tables.customerCodes.find? id).map (CustomerCode.revoked st agentId codeId) := by
  unfold revokeCustomerCode
  split
  next hlocked =>
    have hsame : ∀ c, CustomerCode.revoked st agentId codeId c = c :=
      fun c => if_neg fun h => hlocked h.1
    rw [funext hsame]
    exact Option.map_id'.symm
  next hfree =>
    refine (Table.find?_updateWhere st.tables.customerCodes _ (fun c => { c with enabled := false })
      (fun _ => rfl) id).trans (congrArg (Option.map · _) (funext fun c => ?_))
    simp only [CustomerCode.revoked, not_not.mp hfree, true_and, decide_eq_true_eq]

/-- Only the status changes. -/
theorem CustomerCode.revoked_terms (c : CustomerCode) :
    ∃ enabled, c.revoked st agentId codeId = { c with enabled := enabled } := by
  unfold CustomerCode.revoked
  split
  · exact ⟨false, rfl⟩
  · exact ⟨c.enabled, rfl⟩

theorem grows_revoke :
    Grows st.tables (revokeCustomerCode st agentId codeId).tables := by
  have hrest : (revokeCustomerCode st agentId codeId).tables.db = st.tables.db ∧
      (revokeCustomerCode st agentId codeId).tables.discountBindings = st.tables.discountBindings := by
    unfold revokeCustomerCode
    split <;> exact ⟨rfl, rfl⟩
  refine ⟨fun id c hc => ?_, fun id x hx => ⟨x, ?_, rfl, fun _ => rfl⟩, fun u p hp => ?_⟩
  · obtain ⟨enabled, hrev⟩ := c.revoked_terms st agentId codeId
    rw [find?_revokeCustomerCode, hc, Option.map_some, hrev]
    exact ⟨_, rfl, rfl, rfl, rfl⟩
  · rw [BindingDB.standing, hrest.1]
    exact hx
  · rw [BindingDB.HasPlan, BindingDB.enabledBindings, hrest.2]
    exact hp

theorem yields_revoke :
    CodeYields none st (revokeCustomerCode st agentId codeId) := by
  have hlocks : (revokeCustomerCode st agentId codeId).locks = st.locks := by
    unfold revokeCustomerCode
    split <;> rfl
  refine ⟨fun j y _ h => ?_, fun j id _ h => ?_, fun j id _ _ => ?_, grows_revoke st agentId codeId⟩
  · rw [hlocks]
    exact h
  · -- the update waits for a locked row
    rw [find?_revokeCustomerCode]
    rcases hfind : st.tables.customerCodes.find? id with - | c
    · rfl
    refine congrArg some (if_neg fun hrev => ?_)
    rw [← hrev.2.1, Table.key_of_find? hfind, h] at hrev
    exact nomatch hrev.1
  · unfold revokeCustomerCode
    split <;> rfl

theorem issued_revoke (hs : Issued st.tables) :
    Issued (revokeCustomerCode st agentId codeId).tables := by
  have hcases : ∀ id c', (revokeCustomerCode st agentId codeId).tables.customerCodes.find? id = some c' →
      ∃ c enabled, st.tables.customerCodes.find? id = some c ∧ c' = { c with enabled := enabled } := by
    intro id c' hc'
    rw [find?_revokeCustomerCode] at hc'
    obtain ⟨c, hc, rfl⟩ := Option.map_eq_some_iff.mp hc'
    obtain ⟨enabled, hrev⟩ := c.revoked_terms st agentId codeId
    exact ⟨c, enabled, hc, hrev⟩
  refine ⟨fun id c' hc' => ?_, fun id c' hc' => ?_⟩
  · obtain ⟨c, enabled, hc, rfl⟩ := hcases id c' hc'
    exact hs.agent id c hc
  · obtain ⟨c, enabled, hc, rfl⟩ := hcases id c' hc'
    exact hs.uses id c hc

theorem usedCount_revoke (id : Int) :
    (revokeCustomerCode st agentId codeId).tables.usedCount id = st.tables.usedCount id := by
  rw [BindingDB.usedCount, find?_revokeCustomerCode, Option.map_map]
  refine congrArg (Option.map · _) (funext fun c => ?_)
  obtain ⟨enabled, hrev⟩ := c.revoked_terms st agentId codeId
  rw [Function.comp_apply, hrev]

variable {st} (toUpper : String → String)

theorem CodeCall.begin_ok (customerId : Int) (rawCode : String)
    (st : BindingStore) (j : Nat) : (CodeCall.begin toUpper customerId rawCode).Ok st j ∧
      (CodeCall.begin toUpper customerId rawCode).committed = none := by
  unfold CodeCall.begin
  split
  · exact ⟨CodeCall.ok_failed st j _, rfl⟩
  split
  · exact ⟨CodeCall.ok_failed st j _, rfl⟩
  · exact ⟨trivial, rfl⟩

/-- The call is the customer's, with the code they gave. -/
def CodeCall.IsFor (call : Int × String) : CodeCall → Prop
  | .lockCode customerId code => customerId = call.1 ∧ code = toUpper (trimSpace call.2)
  | .lockUser customerId record _ | .planBound customerId record _ _ | .planUsable customerId record _
  | .quota customerId record | .commit customerId record _ | .summary customerId record =>
    customerId = call.1 ∧ record.code = toUpper (trimSpace call.2)
  | .ended _ committed => ∀ x ∈ committed, x.1 = call.1 ∧ x.2.code = toUpper (trimSpace call.2)

theorem CodeCall.isFor_begin (call : Int × String) :
    (CodeCall.begin toUpper call.1 call.2).IsFor toUpper call := by
  unfold CodeCall.begin
  split
  · exact fun _ hx => (nomatch hx)
  split
  · exact fun _ hx => (nomatch hx)
  · exact ⟨rfl, rfl⟩

theorem CodeCall.IsFor.next {toUpper : String → String} {call : Int × String}
    (h : c.IsFor toUpper call) : (c.next k a st).2.IsFor toUpper call := by
  have hnext := c.next_cases st k a
  generalize c.next k a st = p at hnext ⊢
  cases hnext with
  | fails => exact fun _ hx => (nomatch hx)
  | locksCode customerId now hfind =>
    -- the row that is locked has the code
    have hcode := find?_some hfind
    exact ⟨h.1, (of_decide_eq_true hcode).trans h.2⟩
  | returns =>
    intro x hx
    obtain rfl := Option.some.inj hx
    exact h
  | _ => exact h

theorem CodeCall.IsFor.committed {toUpper : String → String} {call : Int × String}
    (h : c.IsFor toUpper call) {x : Int × CustomerCode} (hx : x ∈ c.committed) :
    x.1 = call.1 ∧ x.2.code = toUpper (trimSpace call.2) := by
  cases c with
  | summary =>
    obtain rfl := Option.some.inj hx
    exact h
  | ended => exact h x hx
  | _ => cases hx

/-- What holds in every run of calls from the tables `s`. -/
structure CodeInv (s : BindingDB) (p : Pool BindingStore CodeCall) : Prop where
  threads : Holds (fun st => Issued st.tables) (fun st j c => c.Ok st j) p
  counts : ∀ id, p.shared.tables.usedCount id =
    (s.usedCount id).map (· + (p.total (·.uses id) : Int))

theorem codeInv_step (h : CodeInv s p) (op : Op (Int × Int) (Int × String) BindingAnswer) :
    CodeInv s ((codeProgram toUpper).step p op) ∧
      Grows p.shared.tables ((codeProgram toUpper).step p op).shared.tables := by
  cases op with
  | event e =>
    refine ⟨⟨?_, fun id => ?_⟩, grows_revoke p.shared e.1 e.2⟩
    · refine h.threads.event (issued_revoke _ e.1 e.2 h.threads.shared) fun j c hc => ?_
      exact hc.yields h.threads.shared (yields_revoke p.shared e.1 e.2) nofun
    · exact (usedCount_revoke p.shared e.1 e.2 id).trans (h.counts id)
  | start call =>
    obtain ⟨hok, hnone⟩ := CodeCall.begin_ok toUpper call.1 call.2 p.shared p.threads.length
    refine ⟨⟨h.threads.start h.threads.shared (fun _ _ hc => hc) hok, fun id => ?_⟩, .refl _⟩
    have huses : ((codeProgram toUpper).start p.shared call).2.uses id = 0 := by
      show (if (CodeCall.begin toUpper call.1 call.2).committed.any _ then 1 else 0) = 0
      rw [hnone]
      rfl
    rw [total_start, huses]
    exact h.counts id
  | go k a =>
    rcases hk : p.threads[k]? with - | c
    · rw [step_go_none a hk]
      exact ⟨h, .refl _⟩
    have hok := h.threads.thread k c hk
    have hstep : CodeStep k p.shared (c.next k a p.shared).1 c (c.next k a p.shared).2 :=
      (CodeCall.next_move hok).step h.threads.shared hok
    have hshared : ((codeProgram toUpper).step p (.go k a)).shared = (c.next k a p.shared).1 := by
      rw [step_go a hk]
      rfl
    refine ⟨⟨h.threads.go fun c₁ hc₁ => ?_, fun id => ?_⟩, hshared ▸ hstep.yields.grows⟩
    · obtain rfl := Option.mem_unique hk hc₁
      refine ⟨hstep.issued, hstep.ok, fun j u hj hu => ?_⟩
      exact hu.yields h.threads.shared hstep.yields fun heq => hj (Option.some.inj heq)
    · obtain ⟨n, hn, hcount⟩ := hstep.used id
      have htotal := total_go (P := codeProgram toUpper) (·.uses id) a hk
      change _ + _ = _ + (c.next k a p.shared).2.uses id at htotal
      rw [hshared, hcount, h.counts id, Option.map_map]
      refine congrArg (Option.map · _) (funext fun m => ?_)
      show m + _ + _ = _
      omega

theorem codeInv_exec (hs : Issued s) (ops : List (Op (Int × Int) (Int × String) BindingAnswer)) :
    CodeInv s (exec (codeProgram toUpper).step { shared := { tables := s } } ops) := by
  refine exec_inv (fun p op (hp : CodeInv s p) => (codeInv_step toUpper hp op).1) ?_ ops
  refine ⟨⟨hs, by simp⟩, fun id => ?_⟩
  exact ((Option.map_congr fun m _ => Int.add_zero m).trans Option.map_id').symm

theorem grows_exec (h : CodeInv s p) (ops : List (Op (Int × Int) (Int × String) BindingAnswer)) :
    Grows p.shared.tables (exec (codeProgram toUpper).step p ops).shared.tables := by
  induction ops generalizing p with
  | nil => exact .refl _
  | cons op ops ih =>
    obtain ⟨hinv, hgrows⟩ := codeInv_step toUpper h op
    exact hgrows.trans (ih hinv)

/-- **Customer codes.**  The count on a code is that of the calls that have
committed, and within its limit.  A call writes when it commits and at no other
step.  Users with a parent and agents keep their standing.  A call that returns
success has committed; what it has committed is its own customer with the code they
gave, trimmed and in upper case, and from the commit on they are a customer of that
code's agent and have its plan. -/
theorem customer_code_counts_commits (tables : BindingDB)
    (hissued : Issued tables) (before after : List (Op (Int × Int) (Int × String) BindingAnswer)) :
    let p := exec (codeProgram toUpper).step { shared := { tables } } before
    let q := exec (codeProgram toUpper).step p after
    (∀ id c₀, tables.customerCodes.find? id = some c₀ →
      ∃ c, p.shared.tables.customerCodes.find? id = some c ∧ c.maxUses = c₀.maxUses ∧
        c.usedCount = c₀.usedCount + p.total (·.uses id) ∧ (0 < c.maxUses → c.usedCount ≤ c.maxUses)) ∧
    (∀ k a, ((codeProgram toUpper).step p (.go k a)).shared.tables = p.shared.tables ∨
      ∃ c ∈ p.threads[k]?, c.committed = none ∧ (c.next k a p.shared).2.committed ≠ none) ∧
    (∀ id x, p.shared.tables.standing id = some x → ∃ x', q.shared.tables.standing id = some x' ∧
      x'.1 = x.1 ∧ (x.2 ≠ 0 ∨ x.1 = .agent → x'.2 = x.2)) ∧
    (∀ committed, .ended (.ok ()) committed ∈ p.threads → committed ≠ none) ∧
    ∀ (k : Nat) (c : CodeCall), p.threads[k]? = some c →
      ∃ call, (started before)[k]? = some call ∧ ∀ x ∈ c.committed, x.1 = call.1 ∧
        x.2.code = toUpper (trimSpace call.2) ∧ Brought p.shared.tables call.1 x.2.id := by
  intro p q
  have hinv : CodeInv tables p := codeInv_exec toUpper hissued before
  have hgrows : Grows tables p.shared.tables := grows_exec toUpper (codeInv_exec toUpper hissued []) before
  refine ⟨fun id c₀ hc₀ => ?_, fun k a => ?_, fun id x hx => ?_, fun m hm => ?_, fun k c hc => ?_⟩
  · obtain ⟨c, hc, -, -, hmax⟩ := hgrows.codes id c₀ hc₀
    refine ⟨c, hc, hmax, ?_, hinv.threads.shared.uses id c hc⟩
    have hcount := hinv.counts id
    rw [BindingDB.usedCount, BindingDB.usedCount, hc, hc₀] at hcount
    exact Option.some.inj hcount
  · rcases hk : p.threads[k]? with - | c
    · rw [step_go_none a hk]
      exact .inl rfl
    have hmove : CodeMove k p.shared c (c.next k a p.shared).1 (c.next k a p.shared).2 :=
      CodeCall.next_move (hinv.threads.thread k c hk)
    rw [step_go a hk]
    show (c.next k a p.shared).1.tables = _ ∨ _
    generalize hst' : (c.next k a p.shared).1 = st' at hmove
    generalize hc' : (c.next k a p.shared).2 = c' at hmove
    cases hmove with
    | reads => exact .inl rfl
    | commits hc =>
      subst hc
      refine .inr ⟨_, rfl, rfl, ?_⟩
      rw [hc']
      nofun
  · exact (grows_exec toUpper hinv after).users id x hx
  · obtain ⟨j, hj⟩ := getElem?_of_mem hm
    exact (hinv.threads.thread j _ hj).1 rfl
  · have hserves : Serves (fun call c => c.IsFor toUpper call) (started before) p :=
      exec_started (P := codeProgram toUpper) (fun _ => CodeCall.isFor_begin toUpper)
        (fun _ _ _ _ _ => CodeCall.IsFor.next) _ before
    obtain ⟨call, hcall, hfor⟩ := hserves.thread k c hc
    refine ⟨call, hcall, fun x hx => ?_⟩
    obtain ⟨hcustomer, hcode⟩ := hfor.committed hx
    exact ⟨hcustomer, hcode, hcustomer ▸ (hinv.threads.thread k c hc).brought hx⟩

/-- Two users, an agent's code that one of them may use, and its plan. -/
def oneCode : BindingDB where
  db := { users := ⟨[{ id := 7 }, { id := 8 }], by decide⟩ }
  customerCodes := ⟨[{ id := 1, code := "AG1", agentId := 3, planId := 5 }], nodup_singleton _⟩

/-- Every statement succeeds, or the step fails. -/
def codeAnswer (ok : Bool) : BindingAnswer where
  ok := ok
  code := { bind := { newId := 20 }, toUpper := id, planEnabled := fun _ => some true }

/-- Both users use the code at once: the second call waits for the first and finds
the code spent. -/
def twoUsers : List (Op (Int × Int) (Int × String) BindingAnswer) :=
  [.start (7, "AG1"), .start (8, "AG1"), .go 0 (codeAnswer true), .go 1 (codeAnswer true)] ++
    (List.range 6).map (fun _ => .go 0 (codeAnswer true)) ++
    (List.range 4).map (fun _ => .go 1 (codeAnswer true))

theorem issued_oneCode : Issued oneCode := by
  have hcodes : ∀ id c, oneCode.customerCodes.find? id = some c → c.agentId = 3 ∧ c.usedCount = 0 := by
    intro id c hc
    obtain rfl := mem_singleton.mp (Table.mem_of_find? hc)
    exact ⟨rfl, rfl⟩
  refine ⟨fun id c hc => ?_, fun id c hc hmax => ?_⟩
  · rw [(hcodes id c hc).1]
    decide
  · rw [(hcodes id c hc).2]
    exact Int.le_of_lt hmax

theorem customer_code_counts_commits_of_two :
    let p := exec (codeProgram id).step { shared := { tables := oneCode } } twoUsers
    p.total (·.uses 1) = 1 ∧ p.shared.tables.standing 7 = some (.individual, 3) ∧
      p.shared.tables.standing 8 = some (.individual, 0) ∧
      ∀ id c₀, oneCode.customerCodes.find? id = some c₀ →
        ∃ c, p.shared.tables.customerCodes.find? id = some c ∧ c.maxUses = c₀.maxUses ∧
          c.usedCount = c₀.usedCount + p.total (·.uses id) ∧
          (0 < c.maxUses → c.usedCount ≤ c.maxUses) :=
  ⟨by decide +kernel, by decide +kernel, by decide +kernel,
    (customer_code_counts_commits id oneCode issued_oneCode twoUsers []).1⟩

/-- The call returned success, or an error. -/
def CodeCall.returned : CodeCall → Option Bool
  | .ended (.ok _) _ => some true
  | .ended (.error _) _ => some false
  | _ => none

/-- A call commits and cannot read its summary: it returns an error, and the user,
the bindings and the code have changed. -/
theorem failed_call_has_used_code :
    let p := exec (codeProgram id).step { shared := { tables := oneCode } }
      ([.start (7, "AG1")] ++ (List.range 6).map (fun _ => .go 0 (codeAnswer true)) ++
        [.go 0 (codeAnswer false)])
    p.threads.map CodeCall.returned = [some false] ∧ p.shared.tables.usedCount 1 = some 1 ∧
      p.shared.tables.standing 7 = some (.individual, 3) ∧
      (p.shared.tables.enabledBindings 7).length = 1 := by
  decide +kernel

end MicrossApi
