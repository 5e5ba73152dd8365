/-
MicrossApi/ProfileUpdates.lean

When profile updates leave the accounts alone.  A run is compared with the run
that leaves every `UpdateWithTx` out.  The relation between the two says two
things (`DB.SameAccounts`): they differ in profiles only, and a struct that was
read earlier has the columns that tie its user to others as the row has them.
Every other step keeps it, which is composed from the statements by
`Tx.Related`.  So such a struct is up to date but for the commission balance and
the discount plan, and an `UpdateWithTx` does no harm where these two are
(`profile_updates_keep_accounts`).

The omit list of `UpdateWithTx` has neither of them, and a struct that holds an
old balance takes commissions back (`profile_update_loses_commission`).
-/
import MicrossApi.UserProfile
import MicrossApi.WalletMoves

namespace MicrossApi

open StepSystem
open Tx hiding read

/-! ### Databases that differ in profiles -/

/-- The row without its profile. -/
def User.blank (u : User) : User := { u with group := "", email := "", stripeCustomer := "" }

/-- What is known of a struct that was read earlier: its inviter and its subject
type are those of the row, and so is its agent once there is one. -/
def Tied (h row : User) : Prop :=
  h.inviterId = row.inviterId ∧ h.subjectType = row.subjectType ∧
    (h.parentAgentId = 0 ∨ h.parentAgentId = row.parentAgentId)

/-- The stores differ in profiles only, and the structs that were read are of
users that are there. -/
structure DB.SameAccounts (held : List UserStruct) (s t : DB) : Prop where
  tables : ∃ users, t = { s with users := users }
  rows : ∀ id, Option.Rel (fun u v => u.blank = v.blank) (s.users.find? id) (t.users.find? id)
  ties : ∀ h ∈ held, ∃ row, s.users.find? h.id = some row ∧ Tied h.toUser row

/-- The same with the bindings. -/
def BindingDB.SameAccounts (held : List UserStruct) (s t : BindingDB) : Prop :=
  ∃ db, t = { s with db := db } ∧ s.db.SameAccounts held db

/-- The counters among the other columns. -/
def MoreColumns.counters (m : MoreColumns) : Int × Int × Int × Int :=
  (m.usedQuota, m.requestCount, m.affCount, m.affHistoryQuota)

/-- The databases differ in profiles only. -/
structure AccountDB.SameAccounts (held : List UserStruct) (s t : AccountDB) : Prop where
  store : s.store.SameAccounts held t.store
  more : ∀ id, (s.more id).counters = (t.more id).counters

variable {id : Int} {f : User → User} {held : List UserStruct}
  {hf : ∀ r, (f r).id = r.id} (newFromString : String → Option ℚ) (env : CommissionEnv) (rate : String)
  (r : CommissionRecord) (cfg : WalletConfig)

section Blind

variable {s t : DB}

theorem DB.SameAccounts.refl (s : DB) : s.SameAccounts [] s where
  tables := ⟨s.users, rfl⟩
  rows id := by
    rcases s.users.find? id with - | u
    · exact .none
    · exact .some rfl
  ties := fun h hh => absurd hh List.not_mem_nil

/-- A row that is read is the same in both but for its profile. -/
theorem DB.SameAccounts.read (h : s.SameAccounts held t) (id : Int) :
    Option.Rel (fun u v => u.blank = v.blank ∧ s.users.find? id = some u) (s.users.find? id)
      (t.users.find? id) := by
  have hid := h.rows id
  generalize s.users.find? id = o at hid ⊢
  generalize t.users.find? id = o' at hid ⊢
  cases hid with
  | none => exact .none
  | some huv => exact .some ⟨huv, rfl⟩

theorem DB.SameAccounts.userColumn (h : s.SameAccounts held t) (id : Int) {col : User → Int}
    (hcol : ∀ u, col u = col u.blank) : s.userColumn id col = t.userColumn id col := by
  unfold DB.userColumn
  have hid := h.rows id
  generalize s.users.find? id = o at hid ⊢
  generalize t.users.find? id = o' at hid ⊢
  cases hid with
  | none => rfl
  | some huv =>
    show col _ = col _
    rw [hcol, huv, ← hcol]

/-- The row of one user is written. -/
theorem DB.SameAccounts.write (h : s.SameAccounts held t) {users users' : Table User.id} {g : User → User}
    (hs : ∀ j, users.find? j = if j = id then (s.users.find? j).map f else s.users.find? j)
    (ht : ∀ j, users'.find? j = if j = id then (t.users.find? j).map g else t.users.find? j)
    (hfg : ∀ u v, s.users.find? id = some u → u.blank = v.blank → (f u).blank = (g v).blank)
    (hties : ∀ u x, s.users.find? id = some u → Tied x u → Tied x (f u)) :
    ({ s with users := users } : DB).SameAccounts held { t with users := users' } := by
  refine ⟨?_, fun j => ?_, fun x hx => ?_⟩
  · obtain ⟨_, rfl⟩ := h.tables
    exact ⟨users', rfl⟩
  · show Option.Rel _ (users.find? j) (users'.find? j)
    rw [hs, ht]
    have hj := h.rows j
    split
    next hid =>
      generalize hu : s.users.find? j = o at hj ⊢
      generalize t.users.find? j = o' at hj ⊢
      cases hj with
      | none => exact .none
      | some huv => exact .some (hfg _ _ (hid ▸ hu) huv)
    · exact hj
  · obtain ⟨row, hrow, htied⟩ := h.ties x hx
    show ∃ r, users.find? x.id = some r ∧ _
    rw [hs, hrow]
    split
    next hid =>
      exact ⟨f row, rfl, hties row _ (hid ▸ hrow) htied⟩
    · exact ⟨row, rfl, htied⟩

theorem DB.SameAccounts.updateUser (h : s.SameAccounts held t) (hblank : ∀ u, (f u).blank = f u.blank)
    (hties : ∀ u x, s.users.find? id = some u → Tied x u → Tied x (f u)) :
    (s.updateUser id f hf).SameAccounts held (t.updateUser id f hf) := by
  refine h.write (fun j => Table.find?_modify ..) (fun j => Table.find?_modify ..) (fun u v _ huv => ?_) hties
  rw [hblank, hblank, huv]

theorem DB.SameAccounts.save (h : s.SameAccounts held t) {u v : User} (huv : u.blank = v.blank)
    (hties : ∀ w x, s.users.find? u.id = some w → Tied x w → Tied x u) :
    ({ s with users := s.users.save u } : DB).SameAccounts held { t with users := t.users.save v } := by
  have hid : u.id = v.id := (congrArg User.id huv : u.blank.id = v.blank.id)
  refine h.write (g := fun _ => v) (fun j => Table.find?_save ..) (fun j => ?_) (fun _ _ _ _ => huv) hties
  rw [hid]
  exact Table.find?_save ..

/-- What is written to the other tables alone. -/
theorem DB.SameAccounts.onTables (h : s.SameAccounts held t) {f : DB → DB}
    (hf : ∀ (db : DB) users, f { db with users := users } = { f db with users := users }) :
    (f s).SameAccounts held (f t) := by
  obtain ⟨⟨users, rfl⟩, hrows, hties⟩ := h
  have husers : (f s).users = s.users := (congrArg DB.users (hf s s.users) :)
  refine ⟨⟨users, hf s users⟩, ?_, ?_⟩
  · rw [husers, hf s users]
    exact hrows
  · rw [husers]
    exact hties

/-! ### Statements and transactions that see no profile -/

theorem related_tables {f : DB → DB}
    (h : ∀ (db : DB) users, f { db with users := users } = { f db with users := users }) :
    Blind (DB.SameAccounts held) (update f : Tx DB Err Unit) :=
  related_update fun _ _ hst => hst.onTables h

theorem related_updateUser (id : Int) {hf : ∀ r, (f r).id = r.id} (hblank : ∀ u, (f u).blank = f u.blank)
    (hties : ∀ u x, Tied x u → Tied x (f u)) :
    Blind (DB.SameAccounts held) (update fun db : DB => db.updateUser id f hf : Tx DB Err Unit) :=
  related_update fun _ _ h => h.updateUser hblank fun u x _ => hties u x

theorem related_recordAccountLedger (row : AccountLedger) (ok : Bool) :
    Blind (DB.SameAccounts held) (recordAccountLedger row ok) := by
  refine .guard (.guard ?_)
  exact related_tables fun _ _ => rfl

theorem related_readBalance (id : Int) :
    Blind (DB.SameAccounts held)
      (Tx.read fun db : DB => db.userColumn id (·.affCommissionBalance) : Tx DB Err Int) :=
  related_read fun _ _ h => h.userColumn id fun _ => rfl

theorem related_creditCommission :
    Blind (DB.SameAccounts held) (creditCommission env r) := by
  refine .guard ?_
  refine (related_updateUser r.inviterId (by intro; rfl) (by intros; assumption)).bind_eq fun _ =>
    Related.ite Iff.rfl ?_ (related_pure rfl)
  refine .guard ((related_readBalance _).bind_eq fun _ => ?_)
  exact related_recordAccountLedger _ _

theorem related_commissionTx :
    Blind (DB.SameAccounts held) (commissionTx env r) := by
  refine Related.bind_eq (related_read ?_) fun created => ?_
  · rintro s t ⟨⟨users, rfl⟩, -⟩
    rfl
  · cases created with
    | none => exact related_pure rfl
    | some => exact Related.bind_eq (related_tables (by intros; rfl)) fun _ => related_creditCommission _ _

theorem related_takeBackCommission (env : ReverseEnv) (r : CommissionRecord) (reason : String)
    (operatorId : Int) : Blind (DB.SameAccounts held) (takeBackCommission env r reason operatorId) := by
  have hsave : Blind (DB.SameAccounts held) (update fun db : DB => { db with
      commissionRecords := db.commissionRecords.save (r.markReversed env.now operatorId reason) } :
        Tx DB Err Unit) := related_tables fun _ _ => rfl
  refine Related.ite Iff.rfl ?_ ?_
  · refine .guard (hsave.bind_eq fun _ => ?_)
    exact related_recordAccountLedger _ _
  · refine .guard ?_
    refine (related_updateUser r.inviterId (by intro; rfl) (by intros; assumption)).bind_eq fun _ => ?_
    refine .guard (hsave.bind_eq fun _ => ?_)
    refine .guard ((related_readBalance _).bind_eq fun _ => ?_)
    exact related_recordAccountLedger _ _

theorem related_reverseTx (env : ReverseEnv) (recordId : Int) (reason : String) (operatorId : Int) :
    Blind (DB.SameAccounts held) (reverseTx env recordId reason operatorId) := by
  refine Related.bind_eq (related_fetch ?_ _) fun r => ?_
  · rintro s t ⟨⟨users, rfl⟩, -⟩
    rcases s.commissionRecords.find? recordId with - | r
    · exact .none
    · exact .some rfl
  · refine .guard ?_
    exact related_takeBackCommission _ _ _ _

theorem related_transferAffTx (env : TransferEnv) (id quota : Int) :
    Blind (DB.SameAccounts held) (transferAffTx env id quota) := by
  -- the row that is saved is the one that was read
  refine Related.remember (fun s => s.users.find? id) fun c => .guard (.guard ?_)
  refine Related.bind (Q := fun u v => u.blank = v.blank ∧ c = some u) (related_fetch ?_ _)
    fun u v ⟨huv, hu⟩ => ?_
  · rintro s t ⟨h, rfl⟩
    exact h.read id
  have haff : u.affQuota = v.affQuota := (congrArg User.affQuota huv : u.blank.affQuota = _)
  have hquota : u.quota = v.quota := (congrArg User.quota huv : u.blank.quota = _)
  refine (related_require (by rw [haff]) _).bind_eq fun _ => ?_
  refine .guard ?_
  refine Related.bind_eq (related_update ?_) fun _ => related_require Iff.rfl _
  rintro s t ⟨h, rfl⟩
  refine h.save ?_ fun w x hw hx => ?_
  · show { u.blank with affQuota := u.affQuota - quota, quota := u.quota + quota }
      = { v.blank with affQuota := v.affQuota - quota, quota := v.quota + quota }
    rw [huv, haff, hquota]
  · have hkey : u.id = id := Table.key_of_find? hu
    obtain rfl : w = u := Option.some.inj (hw.symm.trans (hkey ▸ hu))
    exact hx

/-! ### Commissions -/

section Commissions

variable (h : s.SameAccounts held t)

include h

theorem DB.SameAccounts.ringFrom (depth : Nat) (current : Int)
    (visited : List Int) : MicrossApi.ringFrom s depth current visited
      = MicrossApi.ringFrom t depth current visited := by
  induction depth generalizing current visited with
  | zero => rfl
  | succ depth ih =>
    unfold MicrossApi.ringFrom
    rw [h.userColumn current fun _ => rfl]
    dsimp only
    rw [ih]

theorem DB.SameAccounts.commissionVerdict (inviterId rawAmount margin : Int) :
    MicrossApi.commissionVerdict s inviterId rawAmount margin
      = MicrossApi.commissionVerdict t inviterId rawAmount margin := by
  have hring : detectInviteRing s inviterId = detectInviteRing t inviterId := by
    unfold detectInviteRing
    rw [h.ringFrom]
  have hlogs : s.logs = t.logs := by
    obtain ⟨⟨users, rfl⟩, -⟩ := h
    rfl
  unfold MicrossApi.commissionVerdict inviterFlagged getUserTotalConsumeQuota
  rw [hring, hlogs]

theorem DB.SameAccounts.commissionInviter
    (inviteeId gross : Int) :
    MicrossApi.commissionInviter newFromString rate inviteeId gross s
      = MicrossApi.commissionInviter newFromString rate inviteeId gross t := by
  unfold MicrossApi.commissionInviter
  have hfind := h.rows inviteeId
  revert hfind
  generalize s.users.find? inviteeId = o
  generalize t.users.find? inviteeId = o'
  rintro (huv | -)
  next u v =>
    have hinviter : u.inviterId = v.inviterId := (congrArg User.inviterId huv : u.blank.inviterId = _)
    dsimp only
    rw [hinviter]
  · rfl

theorem DB.SameAccounts.processCommission
    (consumeLogId inviteeId gross margin : Int) :
    (MicrossApi.processCommission newFromString env rate consumeLogId inviteeId gross margin s).2.SameAccounts held
      (MicrossApi.processCommission newFromString env rate consumeLogId inviteeId gross margin t).2 := by
  unfold MicrossApi.processCommission
  rw [h.commissionInviter]
  rcases MicrossApi.commissionInviter newFromString rate inviteeId gross t with - | inviterId
  · exact h
  have hrecord : proposedCommission newFromString rate consumeLogId inviteeId inviterId gross
        margin env.now s
      = proposedCommission newFromString rate consumeLogId inviteeId inviterId gross margin
        env.now t := by
    unfold proposedCommission
    rw [h.commissionVerdict]
  dsimp only
  rw [hrecord]
  generalize proposedCommission newFromString rate consumeLogId inviteeId inviterId gross margin
    env.now t = record
  obtain ⟨hresult, hstate⟩ := (related_commissionTx env record).atomically h
  revert hresult hstate
  rcases atomically (commissionTx env record) s with ⟨e | _, s'⟩
  · rcases atomically (commissionTx env record) t with ⟨e' | _, t'⟩
    · exact fun _ hstate => hstate
    · exact fun hresult => by cases hresult
  rcases atomically (commissionTx env record) t with ⟨e' | _, t'⟩
  · exact fun hresult => by cases hresult
  rintro - hstate
  refine hstate.onTables (f := (DB.audited · record _)) fun db users => ?_
  unfold DB.audited
  split <;> rfl

theorem DB.SameAccounts.reverseCommission (env : ReverseEnv) (recordId : Int)
    (reason : String) (operatorId : Int) :
    (MicrossApi.reverseCommission env recordId reason operatorId s).2.SameAccounts held
      (MicrossApi.reverseCommission env recordId reason operatorId t).2 := by
  unfold MicrossApi.reverseCommission
  split
  · exact h
  · exact ((related_reverseTx _ _ _ _).atomically h).2

theorem DB.SameAccounts.transferAffQuotaToQuota (env : TransferEnv) (id quota : Int) :
    (MicrossApi.transferAffQuotaToQuota cfg env id quota { db := s }).2.db.SameAccounts held
      (MicrossApi.transferAffQuotaToQuota cfg env id quota { db := t }).2.db := by
  unfold MicrossApi.transferAffQuotaToQuota
  split
  · exact h
  · exact ((related_transferAffTx _ _ _).atomically h).2

end Commissions

end Blind

/-! ### Bindings and codes -/

section BlindBindings

variable {α : Type}

theorem related_onDB {x : Tx DB Err α} (h : Blind (DB.SameAccounts held) x) :
    Blind (BindingDB.SameAccounts held) (onDB x) := by
  refine Related.zoom h ?_ ?_
  · rintro s t ⟨db, rfl, hdb⟩
    exact hdb
  · rintro s t a b ⟨db, rfl, -⟩ hab
    exact ⟨b, rfl, hab⟩

section Reading

variable {R : BindingDB → BindingDB → Prop} (hR : ∀ s t, R s t → ∃ db, t = { s with db := db })

include hR

theorem related_readBindings {f : BindingDB → α}
    (h : ∀ (s : BindingDB) db, f { s with db := db } = f s) : Blind R (Tx.read f : Tx BindingDB Err α) := by
  refine related_read fun s t hst => ?_
  obtain ⟨db, rfl⟩ := hR s t hst
  exact (h s db).symm

theorem related_fetchBindings {o : BindingDB → Option α} (e : Err)
    (h : ∀ (s : BindingDB) db, o { s with db := db } = o s) : Blind R (fetch o e) := by
  refine related_fetch (fun s t hst => ?_) e
  obtain ⟨db, rfl⟩ := hR s t hst
  rw [h s db]
  rcases o s with - | a
  · exact .none
  · exact .some rfl

end Reading

theorem BindingDB.SameAccounts.tables {s t : BindingDB} (h : s.SameAccounts held t) :
    ∃ db, t = { s with db := db } := by
  obtain ⟨db, ht, -⟩ := h
  exact ⟨db, ht⟩

/-- What is written to the bindings and codes alone. -/
theorem related_writeBindings {f : BindingDB → BindingDB}
    (h : ∀ (s : BindingDB) db, f { s with db := db } = { f s with db := db }) :
    Blind (BindingDB.SameAccounts held) (update f : Tx BindingDB Err Unit) := by
  refine related_update ?_
  rintro s t ⟨db, rfl, hst⟩
  have hdb : (f s).db = s.db := (congrArg BindingDB.db (h s s.db) :)
  refine ⟨db, h s db, ?_⟩
  rw [hdb]
  exact hst

theorem related_syncUserDiscountPlanId (syncOk : Bool) (now userId : Int) :
    Blind (BindingDB.SameAccounts held) (syncUserDiscountPlanId syncOk now userId) := by
  refine Related.ite Iff.rfl (related_pure rfl) ?_
  refine .guard ?_
  exact Related.bind_eq (related_readBindings (fun _ _ h => h.tables) fun _ _ => rfl) fun planId =>
    related_onDB (related_updateUser _ (by intro; rfl) (by intros; assumption))

theorem related_createBinding (createOk : Bool) (b : DiscountBinding) :
    Blind (BindingDB.SameAccounts held) (createBinding createOk b) := by
  refine Related.bind_eq (related_readBindings (fun _ _ h => h.tables) fun _ _ => rfl) fun taken => ?_
  exact .guard (related_writeBindings fun _ _ => rfl)

theorem related_ensureDiscountBindingQuota (queryOk : Bool) (subjectType : DiscountSubject)
    (subjectId : Int) :
    Blind (BindingDB.SameAccounts held) (ensureDiscountBindingQuota queryOk subjectType subjectId) := by
  refine .guard ?_
  exact Related.bind_eq (related_readBindings (fun _ _ h => h.tables) fun _ _ => rfl) fun bound =>
    related_require Iff.rfl _

theorem related_bindDiscountPlan (env : BindEnv) (now : Int) (binding : DiscountBinding) :
    Blind (BindingDB.SameAccounts held) (bindDiscountPlan env now binding) := by
  have hunbound : Blind (BindingDB.SameAccounts held) (planUnbound env.queryOk binding) :=
    .guard (Related.bind_eq (related_readBindings (fun _ _ h => h.tables) fun _ _ => rfl) fun _ =>
      related_require Iff.rfl _)
  refine hunbound.bind_eq fun _ => ?_
  refine (related_ensureDiscountBindingQuota _ _ _).bind_eq fun _ => ?_
  exact (related_createBinding _ _).bind_eq fun _ => related_syncUserDiscountPlanId _ _ _

theorem related_unbindDiscountPlan (env : BindEnv) (now id : Int) :
    Blind (BindingDB.SameAccounts held) (unbindDiscountPlan env now id) := by
  refine .guard ?_
  refine (related_fetchBindings (fun _ _ h => h.tables) _ fun _ _ => rfl).bind_eq fun binding => ?_
  refine .guard ?_
  exact Related.bind_eq (related_writeBindings (by intros; rfl)) fun _ => related_syncUserDiscountPlanId _ _ _

/-- A code gives an agent to a customer who has none or that one. -/
theorem related_setParent {customerId : Int} {u : User} (agentId : Int)
    (hfree : u.parentAgentId = 0 ∨ u.parentAgentId = agentId) :
    Related (fun s t => s.SameAccounts held t ∧ s.db.users.find? customerId = some u)
      (BindingDB.SameAccounts held) Eq
      (onDB (update fun db : DB =>
        db.updateUser customerId (fun u => { u with parentAgentId := agentId }) (fun _ => rfl)))
      (onDB (update fun db : DB =>
        db.updateUser customerId (fun u => { u with parentAgentId := agentId }) (fun _ => rfl))) := by
  refine related_update ?_
  rintro s t ⟨⟨db, rfl, hdb⟩, hu⟩
  refine ⟨_, rfl, hdb.updateUser (fun _ => rfl) fun w x hw hx => ?_⟩
  obtain rfl : w = u := Option.mem_unique hw hu
  refine ⟨hx.1, hx.2.1, ?_⟩
  rcases hfree with hfree | hfree
  · exact .inl (hx.2.2.elim (fun h => h) fun h => h.trans hfree)
  · exact hx.2.2.imp_right fun h => h.trans hfree

theorem related_bindCustomerCodeTx (env : CodeEnv) (now customerId : Int) (code : String) :
    Blind (BindingDB.SameAccounts held) (bindCustomerCodeTx env now customerId code) := by
  refine Related.remember (fun s => s.db.users.find? customerId) fun c => .guard ?_
  refine (related_fetchBindings (fun _ _ h => h.1.tables) _ fun _ _ => rfl).bind_eq fun record => ?_
  refine .guard ?_
  refine Related.bind (Q := fun u v => u.blank = v.blank ∧ c = some u) (related_fetch ?_ _)
    fun u v ⟨huv, hu⟩ => ?_
  · rintro s t ⟨⟨db, rfl, hdb⟩, rfl⟩
    exact hdb.read customerId
  subst hu
  have htype : u.subjectType = v.subjectType := (congrArg User.subjectType huv : u.blank.subjectType = _)
  have hparent : u.parentAgentId = v.parentAgentId :=
    (congrArg User.parentAgentId huv : u.blank.parentAgentId = _)
  refine (related_require (by rw [htype]) _).bind_eq fun _ => ?_
  rw [← hparent]
  refine Related.check fun hfree => .guard ?_
  refine Related.bind_eq (related_readBindings (fun _ _ h => h.1.tables) fun _ _ => rfl) fun planBound => ?_
  refine .guard ((related_lift _).bind_eq fun _ => (related_lift _).bind_eq fun _ => ?_)
  refine .guard ((related_setParent _ hfree).bind_eq fun _ => ?_)
  refine Related.ite Iff.rfl
    ((related_ensureDiscountBindingQuota _ _ _).bind_eq fun _ =>
      (related_createBinding _ _).bind_eq fun _ =>
        (related_syncUserDiscountPlanId _ _ _).bind_eq fun _ => ?_) ?_
  -- with or without a new binding, the code is marked as used
  all_goals exact .guard (related_writeBindings fun _ _ => rfl)

theorem BindingDB.SameAccounts.bindCustomerCode {s t : BindingDB} (h : s.SameAccounts held t)
    (env : CodeEnv) (now customerId : Int) (rawCode : String) :
    (MicrossApi.bindCustomerCode env now customerId rawCode s).2.SameAccounts held
      (MicrossApi.bindCustomerCode env now customerId rawCode t).2 := by
  unfold MicrossApi.bindCustomerCode
  split
  · exact h
  dsimp only
  split
  · exact h
  · exact ((related_bindCustomerCodeTx _ _ _ _).atomically h).2

end BlindBindings

/-! ### Every other step -/

section Steps

variable {cfg : WalletConfig} {s t : AccountDB}

theorem AccountDB.SameAccounts.onUsers (h : s.SameAccounts held t) {f : DB → DB}
    (hf : ∀ {a b : DB}, a.SameAccounts held b → (f a).SameAccounts held (f b)) :
    (s.onUsers f).SameAccounts held (t.onUsers f) := by
  obtain ⟨⟨db, hdb, hst⟩, hmore⟩ := h
  refine ⟨⟨f db, ?_, hf hst⟩, hmore⟩
  show ({ t.store with db := f t.store.db } : BindingDB) = { s.store with db := f db }
  rw [hdb]

theorem AccountDB.SameAccounts.onMore (h : s.SameAccounts held t) {f : MoreColumns → MoreColumns}
    (hf : ∀ {a b : MoreColumns}, a.counters = b.counters → (f a).counters = (f b).counters) :
    (s.onMore id f).SameAccounts held (t.onMore id f) := by
  refine ⟨h.store, fun i => ?_⟩
  show (if i = id then f (s.more i) else s.more i).counters
    = (if i = id then f (t.more i) else t.more i).counters
  split
  · exact hf (h.more i)
  · exact h.more i

theorem DB.SameAccounts.addQuota {a b : DB} (h : a.SameAccounts held b) (id delta : Int) :
    (a.addQuota id delta).SameAccounts held (b.addQuota id delta) :=
  h.updateUser (fun _ => rfl) fun _ _ _ hx => hx

theorem AccountDB.SameAccounts.changeQuota (h : s.SameAccounts held t) (change : QuotaChange) :
    (change.perform s).SameAccounts held (change.perform t) := by
  cases change with
  | increaseUserQuota => exact h.onUsers fun h => h.addQuota ..
  | decreaseUserQuota id quota => exact h.onUsers fun h => h.addQuota id (-quota)
  | reserveUserQuotaDB id quota =>
    refine h.onUsers fun h => h.updateUser (fun u => ?_) fun u x _ hx => ?_
    · show (if quota ≤ u.quota then { u with quota := u.quota - quota } else u).blank
        = if quota ≤ u.quota then { u.blank with quota := u.quota - quota } else u.blank
      split <;> rfl
    · split <;> exact hx
  | updateUserQuotaUsedQuotaAndRequestCount =>
    dsimp only [QuotaChange.perform]
    refine AccountDB.SameAccounts.onMore (h.onUsers ?_) ?_
    · exact fun h => h.addQuota ..
    · intro a b hab
      simp only [MoreColumns.counters, Prod.mk.injEq] at hab ⊢
      omega
  | override =>
    exact h.onUsers fun h => h.updateUser (by intro; rfl) (by intros; assumption)

theorem AccountDB.SameAccounts.inviteUser (h : s.SameAccounts held t) (quotaForInviter inviterId : Int) :
    (MicrossApi.inviteUser quotaForInviter inviterId s).SameAccounts held
      (MicrossApi.inviteUser quotaForInviter inviterId t) := by
  refine AccountDB.SameAccounts.onMore (h.onUsers fun h =>
    h.updateUser (by intro; rfl) (by intros; assumption)) ?_
  intro a b hab
  simp only [MoreColumns.counters, Prod.mk.injEq] at hab ⊢
  omega

/-- A step that is no `UpdateWithTx` takes databases that differ in profiles
only to such. -/
theorem sameAccounts_perform {a b : UserAccounts} (h : a.rows.SameAccounts held b.rows) (op : AccountOp)
    (hop : op.updatesProfile = false) : (op.perform cfg a).SameAccounts held (op.perform cfg b) := by
  cases op with
  | read => exact h
  | updateWithTx => cases hop
  | processCommission =>
    exact h.onUsers fun h => h.processCommission ..
  | reverseCommission =>
    exact h.onUsers fun h => h.reverseCommission ..
  | changeQuota change => exact h.changeQuota change
  | inviteUser => exact h.inviteUser ..
  | transferAffQuotaToQuota =>
    exact h.onUsers fun h => h.transferAffQuotaToQuota ..
  | bindCustomerCode env now customerId rawCode =>
    exact ⟨h.store.bindCustomerCode env now customerId rawCode, h.more⟩
  | bindDiscountPlan env now binding =>
    exact ⟨((related_bindDiscountPlan env now binding).atomically h.store).2, h.more⟩
  | unbindDiscountPlan env now id =>
    exact ⟨((related_unbindDiscountPlan env now id).atomically h.store).2, h.more⟩

end Steps

/-! ### Saving a struct -/

variable {env : UpdateEnv}

section Saving

variable {cfg : WalletConfig} {row new : User}

theorem counters_onMore (s : AccountDB) (id : Int) {f : MoreColumns → MoreColumns}
    (hf : ∀ m, (f m).counters = m.counters) (i : Int) :
    ((s.onMore id f).more i).counters = (s.more i).counters := by
  show (if i = id then f (s.more i) else s.more i).counters = _
  split
  · exact hf _
  · rfl

theorem ok_incrementUserAuthVersion {userId next : Int} {s s' : AccountDB}
    (h : incrementUserAuthVersionWithTx env userId s = .ok (next, s')) :
    s'.store = s.store ∧ ∀ i, (s'.more i).counters = (s.more i).counters := by
  simp only [incrementUserAuthVersionWithTx, ok_require_bind_iff, ok_fetch_bind_iff] at h
  obtain ⟨-, -, user, -, -, -, -, rfl⟩ := h
  exact ⟨rfl, counters_onMore s userId fun _ => rfl⟩

theorem ok_updateWithTx {updatePassword : Bool} {user r : UserStruct}
    {s s' : AccountDB} (h : updateWithTx env updatePassword user s = .ok (r, s')) :
    s'.store = (s.onUsers fun db =>
        db.updateUser user.id (·.updates user.toUser) (fun row => row.id_updates _)).store ∧
      ∀ i, (s'.more i).counters = (s.more i).counters := by
  simp only [updateWithTx, ok_lift_bind_iff, ok_require_bind_iff, ok_fetch_bind_iff] at h
  obtain ⟨password, -, -, current, -, h⟩ := h
  obtain ⟨version, s₁, hversion, h⟩ := ok_bind_iff.mp h
  -- the auth version is no counter
  have hkept : s₁.store = s.store ∧ ∀ i, (s₁.more i).counters = (s.more i).counters := by
    unfold nextAuthVersion at hversion
    split at hversion
    · exact ok_incrementUserAuthVersion hversion
    · obtain ⟨-, rfl⟩ := ok_pure_iff.mp hversion
      exact ⟨rfl, fun _ => rfl⟩
  simp only [ok_require_bind_iff, ok_update_bind_iff, ok_fetch_iff] at h
  obtain ⟨-, -, -, rfl⟩ := h
  refine ⟨?_, fun i => ?_⟩
  · unfold AccountDB.updates AccountDB.onMore AccountDB.onUsers
    rw [hkept.1]
  · rw [← hkept.2 i]
    exact counters_onMore _ _ (fun m => show (m.updates _).counters = _ from rfl) i

/-- The balance and the plan of the struct are zero or what the row has. -/
def UpToDate (h row : User) : Prop :=
  (h.affCommissionBalance = 0 ∨ h.affCommissionBalance = row.affCommissionBalance) ∧
    (h.discountPlanId = 0 ∨ h.discountPlanId = row.discountPlanId)
deriving Decidable

theorem written_eq_old_iff {α : Type} [DecidableEq α] {zero old new : α} :
    written zero old new = old ↔ new = zero ∨ new = old := by
  unfold written
  split
  next h =>
    exact ⟨fun _ => Or.inl h, fun _ => rfl⟩
  next h =>
    exact ⟨Or.inr, fun h' => h'.resolve_left h⟩

/-- A save keeps the row but for its profile iff the struct is up to date. -/
theorem blank_updates_iff (h : Tied new row) :
    (row.updates new).blank = row.blank ↔ UpToDate new row := by
  constructor
  · intro hsame
    have hbalance : (row.updates new).blank.affCommissionBalance = row.blank.affCommissionBalance :=
      congrArg User.affCommissionBalance hsame
    have hplan : (row.updates new).blank.discountPlanId = row.blank.discountPlanId :=
      congrArg User.discountPlanId hsame
    exact ⟨written_eq_old_iff.mp hbalance, written_eq_old_iff.mp hplan⟩
  · rintro ⟨hbalance, hplan⟩
    unfold User.updates User.blank
    rw [written_eq_old_iff.mpr hbalance, written_eq_old_iff.mpr hplan,
      written_eq_old_iff.mpr (Or.inr h.1), written_eq_old_iff.mpr h.2.2, h.2.1]

theorem tied_updates {h : User} (hnew : Tied new row) (ht : Tied h row) : Tied h (row.updates new) := by
  obtain ⟨hinviter, htype, hparent⟩ := hnew
  unfold Tied User.updates
  rw [written_eq_old_iff.mpr (Or.inr hinviter), written_eq_old_iff.mpr hparent, htype]
  exact ht

theorem ProfileEdit.tied (profile : ProfileEdit) {h : UserStruct}
    (ht : Tied h.toUser row) : Tied (profile.edit h).toUser row := by
  unfold Tied
  rw [profile.inviterId, profile.subjectType, profile.parentAgentId]
  exact ht

end Saving

/-! ### Runs -/

section Runs

variable {cfg : WalletConfig} {s t : UserAccounts}

/-- What is read is of a user that is there. -/
theorem AccountDB.SameAccounts.kept {op : AccountOp} {t : AccountDB}
    (h : (op.perform cfg s).SameAccounts s.held t) :
    (accountStep cfg s op).rows.SameAccounts (accountStep cfg s op).held t := by
  cases op with
  | read id =>
    obtain ⟨⟨db, hdb, htables, hrows, hties⟩, hmore⟩ := h
    refine ⟨⟨db, hdb, htables, hrows, fun h hh => ?_⟩, hmore⟩
    obtain hh | hh := List.mem_append.mp hh
    · exact hties h hh
    obtain ⟨u, hu, rfl⟩ := Option.map_eq_some_iff.mp (Option.mem_toList.mp hh)
    refine ⟨u, ?_, rfl, rfl, Or.inr rfl⟩
    rw [show u.id = id from Table.key_of_find? hu]
    exact hu
  | _ => exact h

/-- Where a struct is saved, its commission balance and its discount plan are
zero or what the row has at that time. -/
def SavesUpToDate (s : UserAccounts) : AccountOp → Prop
  | .updateWithTx _ k _ _ =>
    ∀ h ∈ s.held[k]?, ∀ row ∈ s.rows.store.db.users.find? h.id, UpToDate h.toUser row
  | _ => True

instance (s op) : Decidable (SavesUpToDate s op) := by
  unfold SavesUpToDate
  split <;> infer_instance

theorem AccountDB.SameAccounts.save {t : AccountDB} (h : s.rows.SameAccounts s.held t) (op : AccountOp)
    (hop : op.updatesProfile = true) (hsave : SavesUpToDate s op) :
    (op.perform cfg s).SameAccounts s.held t := by
  cases op with
  | updateWithTx env k updatePassword profile =>
    dsimp only [AccountOp.perform]
    rcases hk : s.held[k]? with - | user
    · exact h
    refine atomically_inv (I := fun s' : AccountDB => s'.SameAccounts s.held t) (fun r s' hs' => ?_) h
    obtain ⟨hstore, hmore⟩ := ok_updateWithTx hs'
    obtain ⟨⟨db, hdb, hsame⟩, hcounters⟩ := h
    obtain ⟨row, hrow, htied⟩ := hsame.ties user (List.mem_of_getElem? hk)
    have hnew := profile.tied htied
    have hupToDate : UpToDate (profile.edit user).toUser row := by
      unfold UpToDate
      rw [profile.affCommissionBalance user, profile.discountPlanId user]
      exact hsave user hk row hrow
    refine ⟨⟨db, by rw [hstore]; exact hdb, ?_⟩, fun i => (hmore i).trans (hcounters i)⟩
    rw [← profile.id user] at hrow
    rw [hstore]
    refine hsame.write (g := fun v => v) (fun j => DB.find?_updateUser _ _ j _ fun _ => User.id_updates _ _)
      (fun j => ?_)
      (fun u v hu huv => ?_) fun u x hu hx => ?_
    · simp
    · obtain rfl : u = row := Option.mem_unique hu hrow
      exact ((blank_updates_iff hnew).mpr hupToDate).trans huv
    · obtain rfl : u = row := Option.mem_unique hu hrow
      exact tied_updates hnew hx
  | _ => cases hop

/-- The columns of the accounts. -/
structure AccountColumns where
  quota : Int
  affQuota : Int
  affHistoryQuota : Int
  affCommissionBalance : Int
  parentAgentId : Int
  discountPlanId : Int
deriving DecidableEq, Repr

/-- The columns of the accounts in a struct. -/
def UserStruct.accounts (u : UserStruct) : AccountColumns where
  quota := u.quota
  affQuota := u.affQuota
  affHistoryQuota := u.affHistoryQuota
  affCommissionBalance := u.affCommissionBalance
  parentAgentId := u.parentAgentId
  discountPlanId := u.discountPlanId

theorem AccountDB.SameAccounts.accounts {a b : AccountDB} (h : a.SameAccounts held b) (id : Int) :
    (a.first id).map UserStruct.accounts = (b.first id).map UserStruct.accounts := by
  obtain ⟨⟨db, hdb, hsame⟩, hmore⟩ := h
  have hfind := hsame.rows id
  unfold AccountDB.first
  rw [hdb]
  revert hfind
  generalize a.store.db.users.find? id = o
  generalize db.users.find? id = o'
  rintro (huv | -)
  next u v =>
    have hhistory : (a.more id).affHistoryQuota = (b.more id).affHistoryQuota :=
      congrArg (·.2.2.2) (hmore id)
    have hcolumns : ∀ w : User, ({ toUser := w, toMoreColumns := a.more id } : UserStruct).accounts
        = ({ toUser := w.blank, toMoreColumns := b.more id } : UserStruct).accounts := by
      intro w
      unfold UserStruct.accounts
      rw [hhistory]
      rfl
    show some _ = some _
    rw [hcolumns u, huv]
    rfl
  · rfl

/-- **Profile updates keep the accounts**: in every interleaving in which each
struct that is saved is up to date, the accounts of every user are what they
would be without the profile updates. -/
theorem profile_updates_keep_accounts (cfg : WalletConfig) (rows : AccountDB) (ops : List AccountOp)
    (hsaves : Along (accountStep cfg) SavesUpToDate { rows := rows } ops) (id : Int) :
    ((exec (accountStep cfg) { rows := rows } ops).rows.first id).map UserStruct.accounts
      = ((exec (accountStep cfg) { rows := rows }
          (ops.filter fun op => !op.updatesProfile)).rows.first id).map UserStruct.accounts := by
  have hrun := exec_filter_along (p := fun op => !op.updatesProfile)
    (R := fun s t => s.rows.SameAccounts s.held t.rows) (G := SavesUpToDate)
    (fun s t op hop h => (sameAccounts_perform h op (Bool.not_eq_true' _ ▸ hop)).kept)
    (fun s t op hop hsave h => (h.save op (Bool.not_eq_false' _ ▸ hop) hsave).kept)
    (t := { rows := rows }) ⟨⟨rows.store.db, rfl, .refl _⟩, fun _ => rfl⟩ hsaves
  exact hrun.accounts id

end Runs

/-- A user who has earned 10 and is priced by plan 7, and one they invited. -/
def demoAccounts : AccountDB where
  store :=
    { db :=
        { users := ⟨[{ id := 1, affCommissionBalance := 10, discountPlanId := 7 },
            { id := 2, inviterId := 1 }], by decide⟩
          logs := [{ userId := 1, type := .consume, quota := 5000 }] }
      discountBindings := ⟨[{ id := 1, subjectId := 1, planId := 7 }], by decide⟩ }

/-- A commission of ten percent. -/
def tenPercent : WalletConfig where
  newFromString s := if s = "0.1" then some (1 / 10) else none
  calendar := utcDays

/-- A new display name. -/
def rename : ProfileEdit where
  edit u := { u with displayName := "after" }
  id _ := rfl
  inviterId _ := rfl
  subjectType _ := rfl
  parentAgentId _ := rfl
  discountPlanId _ := rfl
  affCommissionBalance _ := rfl

/-- A commission of 10 is paid and plan 7 is taken away. -/
def demoChanges : List AccountOp :=
  [.processCommission { create := some 1 } "0.1" 1 2 100 100, .unbindDiscountPlan { newId := 0 } 0 1]

/-- The struct is read after the changes. -/
def demoReadLast : List AccountOp := demoChanges ++ [.read 1, .updateWithTx {} 0 false rename]

theorem profile_updates_keep_accounts_read_last :
    Along (accountStep tenPercent) SavesUpToDate { rows := demoAccounts } demoReadLast ∧
      ((exec (accountStep tenPercent) { rows := demoAccounts } demoReadLast).rows.first 1).map
          UserStruct.accounts
        = ((exec (accountStep tenPercent) { rows := demoAccounts }
            (demoReadLast.filter fun op => !op.updatesProfile)).rows.first 1).map
          UserStruct.accounts := by
  have h : Along (accountStep tenPercent) SavesUpToDate { rows := demoAccounts } demoReadLast := by
    decide +kernel
  exact ⟨h, profile_updates_keep_accounts tenPercent demoAccounts demoReadLast h 1⟩

/-- The struct is read before the changes and saved after them: the commission
is gone and the plan is back. -/
theorem profile_update_loses_commission : ((exec (accountStep tenPercent) { rows := demoAccounts }
        (.read 1 :: demoChanges)).rows.first 1).map UserStruct.accounts
        = some { quota := 0, affQuota := 0, affHistoryQuota := 0, affCommissionBalance := 20
                 parentAgentId := 0, discountPlanId := 0 } ∧
      ((exec (accountStep tenPercent) { rows := demoAccounts }
        (.read 1 :: demoChanges ++ [.updateWithTx {} 0 false rename])).rows.first 1).map
          UserStruct.accounts
        = some { quota := 0, affQuota := 0, affHistoryQuota := 0, affCommissionBalance := 10
                 parentAgentId := 0, discountPlanId := 7 } := by
  decide +kernel

end MicrossApi
