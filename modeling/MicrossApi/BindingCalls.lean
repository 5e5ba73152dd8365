/-
MicrossApi/BindingCalls.lean

The calls that bind discount plans to users, statement by statement
(`BindDiscountPlan` and `UnbindDiscountPlan`, model/discount.go,
`SetAgentCustomerDiscount`, model/agent_customers.go, the binding that comes with
a purchase, model/subscription_discount.go, and `BindCustomerCode`,
model/agent_customer.go).

Each call is a thread.  The checks of a call and its commit are separate steps;
the writes of a transaction are seen by others from its commit on.  Using a
customer code locks the code's row and then the user's, and keeps both to the end;
a purchase locks the user's row.  `BindDiscountPlan` and `SetAgentCustomerDiscount`
lock nothing.
-/
import MicrossApi.DiscountBinding
import MicrossApi.Interleaving

namespace MicrossApi

open StepSystem Interleaving
open Tx hiding read

/-! ### The store -/

/-- The rows that are locked. -/
inductive BindingKey where
  | code (id : Int)
  | user (userId : Int)
deriving DecidableEq, Repr

/-- The tables and who has locked which row. -/
structure BindingStore where
  tables : BindingDB
  locks : Locks BindingKey := Locks.free

variable (s : BindingStore)

variable (k : Nat)

/-- The transaction of thread `k` is rolled back. -/
def BindingStore.rollback : BindingStore :=
  { s with locks := s.locks.release k }

/-- The last statements of the transaction of thread `k`, and its end. -/
def BindingStore.commit (x : Tx BindingDB Err Unit) : Except Err Unit × BindingStore :=
  ((atomically x s.tables).1,
    { tables := (atomically x s.tables).2, locks := s.locks.release k })

/-- A commit ends with what its statements have written, or changes nothing. -/
theorem BindingStore.commit_cases (x : Tx BindingDB Err Unit) : (∃ tables, x s.tables = .ok ((), tables) ∧
        s.commit k x = (.ok (), { tables := tables, locks := s.locks.release k })) ∨
      ∃ e, s.commit k x = (.error e, s.rollback k) := by
  rcases atomically_cases x s.tables with ⟨u, tables, hx, h⟩ | ⟨e, -, h⟩
  · refine .inl ⟨tables, hx, ?_⟩
    rw [BindingStore.commit, h]
  refine .inr ⟨e, ?_⟩
  rw [BindingStore.commit, h]
  rfl

/-- What a step is answered.  `code.bind` is for the statements of the commit,
`agentProfile` and `sellable` are what `GetAgentProfileByUserId` and
`ListSellablePlansForAgent` return. -/
structure BindingAnswer where
  ok : Bool := true
  now : Int := 0
  code : CodeEnv
  agentProfile : Except Err Unit := .ok ()
  sellable : Except Err (List Int) := .ok []

/-! ### Using a customer code -/

/-- Where a call of `BindCustomerCode` is.  A code is the row as it was locked;
`committed` is whom the call has bound with which code. -/
inductive CodeCall where
  | lockCode (customerId : Int) (code : String)
  | lockUser (customerId : Int) (record : CustomerCode) (now : Int)
  | planBound (customerId : Int) (record : CustomerCode) (now parentAgentId : Int)
  | planUsable (customerId : Int) (record : CustomerCode) (isBound : Bool)
  | quota (customerId : Int) (record : CustomerCode)
  | commit (customerId : Int) (record : CustomerCode) (insert : Bool)
  | summary (customerId : Int) (record : CustomerCode)
  | ended (result : Except Err Unit) (committed : Option (Int × CustomerCode))

/-- `BindCustomerCode` up to its first statement. -/
def CodeCall.begin (toUpper : String → String) (customerId : Int) (rawCode : String) : CodeCall :=
  if customerId ≤ 0 then .ended (.error (.text "无效的用户 ID")) none
  else if toUpper (trimSpace rawCode) = "" then .ended (.error (.text "客户号不存在")) none
  else .lockCode customerId (toUpper (trimSpace rawCode))

/-- The binding that the code brings, if it brings one. -/
def insertCodeBinding (env : BindEnv) (now customerId planId : Int) (insert : Bool) : Tx BindingDB Err Unit :=
  if insert then do
    createBinding env.createOk (codeBinding env.newId customerId planId)
    syncUserDiscountPlanId env.syncOk now customerId
  else pure ()

variable (record : CustomerCode)

theorem CustomerCode.id_withParent (u : User) :
    { u with parentAgentId := record.agentId }.id = u.id := rfl

theorem CustomerCode.id_withUse (customerId : Int) (c : CustomerCode) :
    { c with usedCount := record.usedCount + 1, boundUserId := customerId }.id = c.id := rfl

/-- The writes of `BindCustomerCode`. -/
def finishCustomerCode (env : CodeEnv) (now customerId : Int) (record : CustomerCode)
    (insert : Bool) : Tx BindingDB Err Unit := do
  onDB (update fun db : DB =>
    db.updateUser customerId (fun u => { u with parentAgentId := record.agentId })
      record.id_withParent)
  insertCodeBinding env.bind now customerId record.planId insert
  require (env.codeUpdateOk = true) .db
  update fun s : BindingDB =>
    { s with
      customerCodes := s.customerCodes.modify record.id
        (fun c => { c with usedCount := record.usedCount + 1, boundUserId := customerId })
        (record.id_withUse customerId) }

/-- Why the user may not use a code of that agent. -/
def customerRejectReason (customer : User) (record : CustomerCode) : Except Err Unit :=
  if customer.subjectType = .agent then .error (.text "经销商直属平台，不能使用客户号")
  else if customer.parentAgentId ≠ 0 ∧ customer.parentAgentId ≠ record.agentId then
    .error (.text "你已经归属另一位经销商，请联系平台")
  else .ok ()

/-- The call stops before its commit. -/
def CodeCall.fail (s : BindingStore) (k : Nat) (e : Err) : BindingStore × CodeCall :=
  (s.rollback k, .ended (.error e) none)

/-- The next step of call `k`; one that waits for a lock stays. -/
def CodeCall.next (a : BindingAnswer) (s : BindingStore) : CodeCall → BindingStore × CodeCall
  | .lockCode customerId code =>
    if a.ok = false then CodeCall.fail s k .db
    else
      match s.tables.customerCodes.rows.find? fun c => c.code = code with
      | none => CodeCall.fail s k (.text "客户号不存在")
      | some record =>
        if ¬ s.locks.CanTake (.code record.id) k then (s, .lockCode customerId code)
        else if record.agentId = customerId then CodeCall.fail s k (.text "不能使用自己发出的客户号")
        else
          ({ s with locks := s.locks.take (.code record.id) k }, .lockUser customerId record a.now)
  | .lockUser customerId record now =>
    if a.ok = false then CodeCall.fail s k .db
    else if ¬ s.locks.CanTake (.user customerId) k then (s, .lockUser customerId record now)
    else
      match s.tables.db.users.find? customerId with
      | none => CodeCall.fail s k .recordNotFound
      | some customer =>
        match customerRejectReason customer record with
        | .error e => CodeCall.fail s k e
        | .ok _ =>
          ({ s with locks := s.locks.take (.user customerId) k },
            .planBound customerId record now customer.parentAgentId)
  | .planBound customerId record now parentAgentId =>
    if 0 < record.planId ∧ a.ok = false then CodeCall.fail s k .db
    else
      let isBound := decide (0 < record.planId) &&
        (s.tables.enabledBindings customerId).any fun b => b.planId = record.planId
      if parentAgentId = record.agentId ∧ (record.planId = 0 ∨ isBound = true) then
        CodeCall.fail s k (.text "你已经是这位经销商的客户了")
      else
        match customerCodeRejectReason record now with
        | .error e => CodeCall.fail s k e
        | .ok _ => (s, .planUsable customerId record isBound)
  | .planUsable customerId record isBound =>
    if 0 < record.planId ∧ a.ok = false then CodeCall.fail s k .db
    else
      match ensureCustomerCodePlanUsable a.code.planEnabled record.planId with
      | .error e => CodeCall.fail s k e
      | .ok _ =>
        -- the statement that writes the parent, which nobody else sees yet
        if a.code.bind.updateOk = false then CodeCall.fail s k .db
        else if 0 < record.planId ∧ isBound = false then (s, .quota customerId record)
        else (s, .commit customerId record false)
  | .quota customerId record =>
    match ensureDiscountBindingQuota a.ok .user customerId s.tables with
    | .error e => CodeCall.fail s k e
    | .ok _ => (s, .commit customerId record true)
  | .commit customerId record insert =>
    match s.commit k (finishCustomerCode a.code a.now customerId record insert) with
    | (.error e, s') => (s', .ended (.error e) none)
    | (.ok _, s') => (s', .summary customerId record)
  | .summary customerId record =>
    -- `GetCustomerBinding` reads what the call returns
    (s, .ended (if a.ok then .ok () else .error .db) (some (customerId, record)))
  | .ended result committed => (s, .ended result committed)

/-- What the call has committed. -/
def CodeCall.committed : CodeCall → Option (Int × CustomerCode)
  | .summary customerId record => some (customerId, record)
  | .ended _ committed => committed
  | _ => none

/-- What a step of call `k` can be. -/
inductive CodeNext (k : Nat) (s : BindingStore) : CodeCall → BindingStore × CodeCall → Prop
  | fails {c : CodeCall} (hc : c.committed = none) (e : Err) : CodeNext k s c (CodeCall.fail s k e)
  | waitsForCode (customerId : Int) (code : String) :
      CodeNext k s (.lockCode customerId code) (s, .lockCode customerId code)
  | locksCode {code : String} {record : CustomerCode} (customerId now : Int)
      (hfind : s.tables.customerCodes.rows.find? (fun c => c.code = code) = some record)
      (hcan : s.locks.CanTake (.code record.id) k) :
      CodeNext k s (.lockCode customerId code)
        ({ s with locks := s.locks.take (.code record.id) k }, .lockUser customerId record now)
  | waitsForUser (customerId : Int) (record : CustomerCode) (now : Int) :
      CodeNext k s (.lockUser customerId record now) (s, .lockUser customerId record now)
  | locksUser {customerId : Int} {record : CustomerCode} {customer : User} (now : Int)
      (hfind : s.tables.db.users.find? customerId = some customer)
      (hcan : s.locks.CanTake (.user customerId) k)
      (hreason : customerRejectReason customer record = .ok ()) :
      CodeNext k s (.lockUser customerId record now)
        ({ s with locks := s.locks.take (.user customerId) k },
          .planBound customerId record now customer.parentAgentId)
  | findsPlan {customerId now : Int} {record : CustomerCode} {isBound : Bool} (parentAgentId : Int)
      (hreason : customerCodeRejectReason record now = .ok ())
      (hbound : isBound = (decide (0 < record.planId) &&
        (s.tables.enabledBindings customerId).any fun b => b.planId = record.planId)) :
      CodeNext k s (.planBound customerId record now parentAgentId)
        (s, .planUsable customerId record isBound)
  | needsPlace (customerId : Int) (record : CustomerCode) (isBound : Bool) :
      CodeNext k s (.planUsable customerId record isBound) (s, .quota customerId record)
  | needsNoPlace {record : CustomerCode} {isBound : Bool} (customerId : Int)
      (h : 0 < record.planId → isBound = true) :
      CodeNext k s (.planUsable customerId record isBound) (s, .commit customerId record false)
  | findsPlace {customerId : Int} {queryOk : Bool} {r : Unit × BindingDB} (record : CustomerCode)
      (hquota : ensureDiscountBindingQuota queryOk .user customerId s.tables = .ok r) :
      CodeNext k s (.quota customerId record) (s, .commit customerId record true)
  | commits {env : CodeEnv} {now customerId : Int} {record : CustomerCode} {insert : Bool}
      {tables : BindingDB}
      (h : finishCustomerCode env now customerId record insert s.tables = .ok ((), tables)) :
      CodeNext k s (.commit customerId record insert)
        ({ tables := tables, locks := s.locks.release k }, .summary customerId record)
  | returns (customerId : Int) (record : CustomerCode) (result : Except Err Unit) :
      CodeNext k s (.summary customerId record) (s, .ended result (some (customerId, record)))
  | ended (result : Except Err Unit) (committed : Option (Int × CustomerCode)) :
      CodeNext k s (.ended result committed) (s, .ended result committed)

/-- **A step is one of these.** -/
theorem CodeCall.next_cases (a : BindingAnswer) (c : CodeCall) :
    CodeNext k s c (c.next k a s) := by
  cases c with
  | lockCode customerId =>
    dsimp only [CodeCall.next]
    split
    · exact .fails rfl _
    split
    · exact .fails rfl _
    rename_i record hfind
    split
    · exact .waitsForCode ..
    rename_i hcan
    split
    · exact .fails rfl _
    · exact .locksCode customerId a.now hfind (not_not.mp hcan)
  | lockUser customerId record now =>
    dsimp only [CodeCall.next]
    split
    · exact .fails rfl _
    split
    · exact .waitsForUser ..
    rename_i hcan
    split
    · exact .fails rfl _
    rename_i customer hfind
    split
    · exact .fails rfl _
    next hreason =>
      exact .locksUser now hfind (not_not.mp hcan) hreason
  | planBound customerId record now parentAgentId =>
    dsimp only [CodeCall.next]
    split
    · exact .fails rfl _
    split
    · exact .fails rfl _
    split
    · exact .fails rfl _
    next hreason =>
      exact .findsPlan parentAgentId hreason rfl
  | planUsable customerId =>
    dsimp only [CodeCall.next]
    split
    · exact .fails rfl _
    split
    · exact .fails rfl _
    split
    · exact .fails rfl _
    split
    · exact .needsPlace ..
    rename_i hplace
    exact .needsNoPlace customerId fun hpos =>
      Bool.eq_true_of_not_eq_false fun hfalse => hplace ⟨hpos, hfalse⟩
  | quota customerId record =>
    dsimp only [CodeCall.next]
    split
    · exact .fails rfl _
    next hquota =>
      exact .findsPlace record hquota
  | commit customerId record insert =>
    rcases s.commit_cases k (finishCustomerCode a.code a.now customerId record insert) with
      ⟨tables, htables, hcommit⟩ | ⟨e, hcommit⟩
    · simp only [CodeCall.next, hcommit]
      exact .commits htables
    · simp only [CodeCall.next, hcommit]
      exact .fails rfl e
  | summary => exact .returns ..
  | ended => exact .ended ..

/-! ### A call that is alone -/

variable {c : CodeCall}

section Alone

variable (env : CodeEnv) (now customerId : Int) (record : CustomerCode)

/-- `BindCustomerCode` from its first write on. -/
def codeWrites (isBound : Bool) : Tx BindingDB Err Unit := do
  require (env.bind.updateOk = true) .db
  onDB (update fun db : DB =>
    db.updateUser customerId (fun u => { u with parentAgentId := record.agentId })
      record.id_withParent)
  if 0 < record.planId ∧ isBound = false then do
    ensureDiscountBindingQuota env.bind.queryOk .user customerId
    createBinding env.bind.createOk (codeBinding env.bind.newId customerId record.planId)
    syncUserDiscountPlanId env.bind.syncOk now customerId
  else pure ()
  require (env.codeUpdateOk = true) .db
  update fun s : BindingDB =>
    { s with
      customerCodes := s.customerCodes.modify record.id
        (fun c => { c with usedCount := record.usedCount + 1, boundUserId := customerId })
        (record.id_withUse customerId) }

/-- From the check of the plan on. -/
def codeUsable (isBound : Bool) : Tx BindingDB Err Unit := do
  lift (ensureCustomerCodePlanUsable env.planEnabled record.planId)
  codeWrites env now customerId record isBound

/-- From the look at the user's bindings on. -/
def codePlan (checkedAt parentAgentId : Int) : Tx BindingDB Err Unit := do
  require (record.planId ≤ 0 ∨ env.bind.queryOk = true) .db
  let isBound ← Tx.read fun s : BindingDB =>
    decide (0 < record.planId) &&
      (s.enabledBindings customerId).any fun b => b.planId = record.planId
  require (¬ (parentAgentId = record.agentId ∧ (record.planId = 0 ∨ isBound = true)))
    (.text "你已经是这位经销商的客户了")
  lift (customerCodeRejectReason record checkedAt)
  codeUsable env now customerId record isBound

/-- From the lock of the user on. -/
def codeUser (checkedAt : Int) : Tx BindingDB Err Unit := do
  let customer ← fetch (fun s : BindingDB => s.db.users.find? customerId) .recordNotFound
  require (customer.subjectType ≠ .agent) (.text "经销商直属平台，不能使用客户号")
  require (customer.parentAgentId = 0 ∨ customer.parentAgentId = record.agentId)
    (.text "你已经归属另一位经销商，请联系平台")
  codePlan env now customerId record checkedAt customer.parentAgentId

/-- What is left of the transaction for the call. -/
def CodeCall.rest (now : Int) : CodeCall → Tx BindingDB Err Unit
  | .lockCode customerId code => bindCustomerCodeTx env now customerId code
  | .lockUser customerId record checkedAt => codeUser env now customerId record checkedAt
  | .planBound customerId record checkedAt parentAgentId =>
    codePlan env now customerId record checkedAt parentAgentId
  | .planUsable customerId record isBound => codeUsable env now customerId record isBound
  | .quota customerId record =>
    ensureDiscountBindingQuota true .user customerId >>= fun _ =>
      finishCustomerCode env now customerId record true
  | .commit customerId record insert => finishCustomerCode env now customerId record insert
  | .summary _ _ => pure ()
  | .ended result _ => lift result

/-- The most steps that a call which need not wait has left. -/
def CodeCall.left : CodeCall → Nat
  | .lockCode _ _ => 7
  | .lockUser _ _ _ => 6
  | .planBound _ _ _ _ => 5
  | .planUsable _ _ _ => 4
  | .quota _ _ => 3
  | .commit _ _ _ => 2
  | .summary _ _ => 1
  | .ended _ _ => 0

variable {env : CodeEnv} {now customerId : Int} {record : CustomerCode} {s : BindingStore} {k : Nat}

theorem quota_after_update (f : DB → DB) (g : Unit → Tx BindingDB Err Unit) (queryOk : Bool) (t : BindingDB) :
    (onDB (update f) >>= fun _ => ensureDiscountBindingQuota queryOk .user customerId >>= g) t =
      (ensureDiscountBindingQuota queryOk .user customerId >>= fun _ =>
        onDB (update f) >>= fun _ => g ()) t := by
  have hupdate : ∀ h : Unit → Tx BindingDB Err Unit,
      (onDB (update f) >>= h) t = h () { t with db := f t.db } := fun h => bind_of_ok rfl
  have hquota : ∀ t', t'.discountBindings = t.discountBindings →
      ensureDiscountBindingQuota queryOk .user customerId t' =
        (ensureDiscountBindingQuota queryOk .user customerId t).map fun r => (r.1, t') := by
    intro t' ht'
    cases queryOk with
    | false => rfl
    | true =>
      unfold ensureDiscountBindingQuota BindingDB.enabledBindings
      rw [require_bind rfl, require_bind rfl, read_bind, read_bind, ht']
      unfold require
      split <;> rfl
  rw [hupdate]
  rcases hq : ensureDiscountBindingQuota queryOk .user customerId t with e | ⟨u, t'⟩
  · rw [error_bind hq]
    refine error_bind ((hquota { t with db := f t.db } rfl).trans ?_)
    rw [hq]
    rfl
  · obtain rfl : t' = t := ok_ensureDiscountBindingQuota hq
    rw [bind_of_ok hq]
    refine bind_of_ok ((hquota { t' with db := f t'.db } rfl).trans ?_)
    rw [hq]
    rfl

/-- After a step the rest of the transaction ends as before the step, and the
call has a step less to go. -/
structure Continues (env : CodeEnv) (now : Int) (k : Nat) (s : BindingStore) (c : CodeCall)
    (p : BindingStore × CodeCall) : Prop where
  rest : atomically (p.2.rest env now) p.1.tables = atomically (c.rest env now) s.tables
  left : p.2.left ≤ c.left - 1
  free : ∀ key, p.1.locks.CanTake key k

theorem continues_check (c' : CodeCall) {locks : Locks BindingKey}
    (hrest : c.rest env now s.tables = c'.rest env now s.tables) (hleft : c'.left ≤ c.left - 1)
    (hfree : ∀ key, locks.CanTake key k) : Continues env now k s c ({ s with locks := locks }, c') := by
  refine ⟨?_, hleft, hfree⟩
  unfold atomically
  rw [hrest]

theorem continues_fail {e : Err} (hfree : ∀ key, s.locks.CanTake key k)
    (hrest : c.rest env now s.tables = .error e) : Continues env now k s c (CodeCall.fail s k e) :=
  continues_check (.ended (.error e) none) hrest (Nat.zero_le _) (Locks.canTake_release hfree)

/-- What the steps of a call are answered that runs with `env`. -/
def CodeEnv.answer (env : CodeEnv) (now : Int) : BindingAnswer where
  now := now
  code := env

theorem planUsable_continues {isBound : Bool} (hquery : env.bind.queryOk = true)
    (hfree : ∀ key, s.locks.CanTake key k) : Continues env now k s (.planUsable customerId record isBound)
      ((CodeCall.planUsable customerId record isBound).next k (env.answer now) s) := by
  dsimp only [CodeCall.next]
  rw [if_neg (fun h => nomatch h.2)]
  have hrest : (CodeCall.planUsable customerId record isBound).rest env now s.tables =
      (lift (ensureCustomerCodePlanUsable env.planEnabled record.planId) >>= fun _ =>
        codeWrites env now customerId record isBound) s.tables := rfl
  split
  next e husable =>
    replace husable : ensureCustomerCodePlanUsable env.planEnabled record.planId = .error e := husable
    rw [husable] at hrest
    exact continues_fail hfree (hrest.trans (error_bind rfl))
  next u husable =>
    replace husable : ensureCustomerCodePlanUsable env.planEnabled record.planId = .ok u := husable
    rw [husable] at hrest
    have hrest := hrest.trans (bind_of_ok rfl)
    split
    next hupdate =>
      refine continues_fail hfree (hrest.trans (error_bind (if_neg ?_)))
      exact Bool.eq_false_iff.mp hupdate
    rename_i hupdate
    have hrest := hrest.trans (require_bind (Bool.of_not_eq_false hupdate) _ _ _)
    split
    next hinsert =>
      rw [if_pos hinsert] at hrest
      refine continues_check _ (hrest.trans ?_) le_rfl hfree
      rw [hquery]
      refine (quota_after_update _ _ true s.tables).trans ?_
      simp only [CodeCall.rest, finishCustomerCode, insertCodeBinding, if_true, bind_assoc]
    next hinsert =>
      rw [if_neg hinsert] at hrest
      exact continues_check _ hrest (Nat.le_succ 2) hfree

theorem continues_next (hlock : env.lockOk = true) (hquery : env.bind.queryOk = true)
    (hfree : ∀ key, s.locks.CanTake key k) (c : CodeCall) :
    Continues env now k s c (c.next k (env.answer now) s) := by
  cases c with
  | lockCode customerId code =>
    have hrest : (CodeCall.lockCode customerId code).rest env now s.tables =
        (fetch (fun t : BindingDB => t.customerCodes.rows.find? fun c => c.code = code)
          (.text "客户号不存在") >>= fun record =>
            require (record.agentId ≠ customerId) (.text "不能使用自己发出的客户号") >>= fun _ =>
              codeUser env now customerId record now) s.tables :=
      require_bind hlock _ _ _
    dsimp only [CodeCall.next]
    rw [if_neg (fun h => nomatch h)]
    split
    next hcode =>
      refine continues_fail hfree (hrest.trans (error_bind ?_))
      exact error_fetch (o := fun t : BindingDB => t.customerCodes.rows.find? fun c => c.code = code)
        hcode _
    next record hcode =>
      have hfetch := hrest.trans (bind_of_ok (ok_fetch_iff.mpr ⟨hcode, rfl⟩))
      rw [if_neg (not_not.mpr (hfree _))]
      split
      next hown =>
        exact continues_fail hfree (hfetch.trans (error_bind (if_neg (not_not.mpr hown))))
      rename_i hown
      exact continues_check _ (hfetch.trans (require_bind hown _ _ _)) le_rfl
        (Locks.canTake_take hfree _)
  | lockUser customerId record checkedAt =>
    dsimp only [CodeCall.next]
    rw [if_neg (fun h => nomatch h), if_neg (not_not.mpr (hfree _))]
    split
    next huser =>
      refine continues_fail hfree (error_bind ?_)
      exact error_fetch (o := fun t : BindingDB => t.db.users.find? customerId) huser _
    rename_i customer huser
    have hfetch : (CodeCall.lockUser customerId record checkedAt).rest env now s.tables = _ :=
      bind_of_ok (ok_fetch_iff.mpr ⟨huser, rfl⟩)
    unfold customerRejectReason
    by_cases hagent : customer.subjectType = .agent
    · rw [if_pos hagent]
      exact continues_fail hfree (hfetch.trans (error_bind (if_neg (not_not.mpr hagent))))
    rw [if_neg hagent]
    have hfetch := hfetch.trans (require_bind hagent _ _ _)
    by_cases hparent : customer.parentAgentId ≠ 0 ∧ customer.parentAgentId ≠ record.agentId
    · rw [if_pos hparent]
      refine continues_fail hfree (hfetch.trans (error_bind (if_neg ?_)))
      exact not_or.mpr hparent
    rw [if_neg hparent]
    refine continues_check _ (hfetch.trans (require_bind ?_ _ _ _)) le_rfl
      (Locks.canTake_take hfree _)
    by_contra h
    exact hparent (not_or.mp h)
  | planBound customerId record checkedAt parentAgentId =>
    have hrest : (CodeCall.planBound customerId record checkedAt parentAgentId).rest env now s.tables = _ :=
      (require_bind (.inr hquery) _ _ _).trans (read_bind _ _ _)
    dsimp only [CodeCall.next]
    rw [if_neg (fun h => nomatch h.2)]
    split
    next hbound =>
      exact continues_fail hfree (hrest.trans (error_bind (if_neg (not_not.mpr hbound))))
    rename_i hbound
    have hrest := hrest.trans (require_bind hbound _ _ _)
    split
    next e hreason =>
      rw [hreason] at hrest
      exact continues_fail hfree (hrest.trans (error_bind rfl))
    next hreason =>
      rw [hreason] at hrest
      exact continues_check _ (hrest.trans (bind_of_ok rfl)) le_rfl hfree
  | planUsable => exact planUsable_continues hquery hfree
  | quota customerId record =>
    dsimp only [CodeCall.next]
    split
    next e hquota =>
      exact continues_fail hfree (error_bind hquota)
    rename_i r hquota
    obtain ⟨u, t⟩ := r
    have hrest : (CodeCall.quota customerId record).rest env now s.tables = _ := bind_of_ok hquota
    obtain rfl : t = s.tables := ok_ensureDiscountBindingQuota hquota
    exact continues_check _ hrest le_rfl hfree
  | commit customerId record insert =>
    show Continues env now k s _
      (match s.commit k (finishCustomerCode env now customerId record insert) with
        | (.error e, s') => (s', .ended (.error e) none)
        | (.ok _, s') => (s', .summary customerId record))
    rcases s.commit_cases k (finishCustomerCode env now customerId record insert) with
      ⟨tables, hx, hcommit⟩ | ⟨e, hcommit⟩
    · rw [hcommit]
      refine ⟨?_, le_rfl, Locks.canTake_release hfree⟩
      show (Except.ok (), tables) = atomically (finishCustomerCode env now customerId record insert) _
      unfold atomically
      rw [hx]
    · rw [hcommit]
      refine ⟨Eq.symm (Prod.ext ?_ ?_), Nat.zero_le _, Locks.canTake_release hfree⟩
      · show (s.commit k (finishCustomerCode env now customerId record insert)).1 = .error e
        rw [hcommit]
      · exact congrArg (fun p => p.2.tables) hcommit
  | summary | ended => exact ⟨rfl, le_rfl, hfree⟩

/-- **Undisturbed, the steps of a call are the transaction**: from its first
statement on they end as `bindCustomerCodeTx` does. -/
theorem bindCustomerCode_alone (hlock : env.lockOk = true) (hquery : env.bind.queryOk = true)
    {n : Nat} (hleft : c.left ≤ n) (hfree : ∀ key, s.locks.CanTake key k) :
    let p := (fun p : BindingStore × CodeCall => p.2.next k (env.answer now) p.1)^[n] (s, c)
    (∃ committed, p.2 = .ended (atomically (c.rest env now) s.tables).1 committed) ∧
      p.1.tables = (atomically (c.rest env now) s.tables).2 := by
  induction n generalizing s c with
  | zero =>
    cases c with
    | ended result committed =>
      cases result with
      | error | ok => exact ⟨⟨committed, rfl⟩, rfl⟩
    | _ => exact absurd hleft (Nat.not_succ_le_zero _)
  | succ n ih =>
    have hnext : Continues env now k s c _ := continues_next hlock hquery hfree c
    rw [← hnext.rest]
    exact ih (hnext.left.trans (Nat.sub_le_of_le_add hleft)) hnext.free

/-- User 2 uses a code of agent 5 that comes with plan 3. -/
theorem bindCustomerCode_alone_single :
    let env : CodeEnv := { bind := { newId := 1 }, toUpper := id, planEnabled := fun _ => some true }
    let tables : BindingDB :=
      { db := { users := ⟨[{ id := 2 }], List.nodup_singleton _⟩ }
        customerCodes := ⟨[{ id := 1, code := "A", agentId := 5, planId := 3 }], List.nodup_singleton _⟩ }
    let p := (fun p : BindingStore × CodeCall => p.2.next 0 (env.answer 9) p.1)^[7]
      ({ tables := tables }, .lockCode 2 "A")
    (∃ committed, p.2 = .ended (.ok ()) committed) ∧
      p.1.tables = (atomically (bindCustomerCodeTx env 9 2 "A") tables).2 ∧
      p.1.tables.discountBindings.rows.map (fun b => (b.subjectId, b.planId)) = [(2, 3)] := by
  intro env tables p
  obtain ⟨hended, htables⟩ : (∃ committed, p.2 = .ended (.ok ()) committed) ∧
      p.1.tables = (atomically (bindCustomerCodeTx env 9 2 "A") tables).2 :=
    bindCustomerCode_alone rfl rfl le_rfl fun _ => .inl rfl
  exact ⟨hended, htables, by decide +kernel⟩

end Alone

/-- `RevokeCustomerCode`; an update waits while the row is locked. -/
def revokeCustomerCode (s : BindingStore) (agentId codeId : Int) : BindingStore :=
  if s.locks (.code codeId) ≠ none then s
  else
    { s with tables := { s.tables with
        customerCodes := s.tables.customerCodes.updateWhere
          (fun c => c.id = codeId ∧ c.agentId = agentId ∧ 0 < agentId ∧ 0 < codeId)
          (fun c => { c with enabled := false }) (fun _ => rfl) } }

/-- Calls of `BindCustomerCode` by anybody; an event is a call of
`RevokeCustomerCode`. -/
def codeProgram (toUpper : String → String) :
    Program BindingStore CodeCall (Int × Int) (Int × String) BindingAnswer where
  event s e := revokeCustomerCode s e.1 e.2
  start s c := (s, CodeCall.begin toUpper c.1 c.2)
  next k a s c := c.next k a s

/-! ### All calls -/

/-- The calls.  A purchase is the part of it that binds; `endSubscription` is what
happens to the bindings when a subscription ends. -/
inductive BindingCall where
  | bindDiscountPlan (binding : DiscountBinding)
  | unbindDiscountPlan (id : Int)
  | setAgentCustomerDiscount (agentId customerId planId : Int)
  | purchase (userId : Int) (plan : SubscriptionPlan) (sub : UserSubscription)
  | endSubscription (userId : Int)
  | bindCustomerCode (customerId : Int) (rawCode : String)

/-- Where a call is. -/
inductive BindingThread where
  /-- `BindDiscountPlan`: is the plan bound, is there a place, write -/
  | existed (binding : DiscountBinding)
  | quota (binding : DiscountBinding)
  | create (binding : DiscountBinding)
  | unbind (id : Int)
  /-- `SetAgentCustomerDiscount`: four checks, then the transaction -/
  | agentProfile (agentId customerId planId : Int)
  | belongs (agentId customerId planId : Int)
  | platformPriced (customerId planId : Int)
  | shelf (customerId planId : Int)
  | price (customerId planId : Int)
  | lockBuyer (userId : Int) (plan : SubscriptionPlan) (sub : UserSubscription)
  | buy (userId : Int) (plan : SubscriptionPlan) (sub : UserSubscription)
  | endSubscription (userId : Int)
  | code (call : CodeCall)
  | ended (result : Except Err Unit)

/-- A call up to its first statement. -/
def BindingCall.begin (toUpper : String → String) : BindingCall → BindingThread
  | .bindDiscountPlan binding => .existed binding
  | .unbindDiscountPlan id => .unbind id
  | .setAgentCustomerDiscount agentId customerId planId =>
    if planId < 0 then .ended (.error (.text "无效的折扣方案 ID"))
    else .agentProfile agentId customerId planId
  | .purchase userId plan sub => .lockBuyer userId plan sub
  | .endSubscription userId => .endSubscription userId
  | .bindCustomerCode customerId rawCode => .code (CodeCall.begin toUpper customerId rawCode)

/-- `ensureCustomerBelongsToAgent`. -/
def ensureCustomerBelongsToAgent (queryOk : Bool) (s : BindingDB) (agentId customerId : Int) :
    Except Err Unit :=
  if customerId ≤ 0 then .error (.text "这位客户不在你的名下")
  else if queryOk = false then .error .db
  else
    match s.db.users.find? customerId with
    | none => .error (.text "这位客户不在你的名下")
    | some customer =>
      if customer.subjectType = .agent ∨ customer.parentAgentId ≠ agentId then
        .error (.text "这位客户不在你的名下")
      else .ok ()

/-- A price that the agent has set. -/
def DiscountBinding.FromAgent (b : DiscountBinding) (customerId : Int) : Prop :=
  b.subjectId = customerId ∧ b.source = .agent ∧ b.enabled = true
deriving Decidable

theorem DiscountBinding.id_disabled (b : DiscountBinding) : { b with enabled := false }.id = b.id :=
  rfl

/-- The tables once the agent's price of the customer is withdrawn. -/
def BindingDB.withoutAgentPrice (s : BindingDB) (customerId : Int) : BindingDB :=
  { s with
    discountBindings := s.discountBindings.updateWhere (fun b => b.FromAgent customerId)
      (fun b => { b with enabled := false }) DiscountBinding.id_disabled }

/-- The binding an agent's price is. -/
def agentBinding (newId customerId planId : Int) : DiscountBinding :=
  { id := newId
    subjectType := .user
    subjectId := customerId
    planId := planId
    source := .agent
    enabled := true }

/-- The transaction of `SetAgentCustomerDiscount`. -/
def setAgentCustomerDiscountTx (env : BindEnv) (now customerId planId : Int) : Tx BindingDB Err Unit := do
  require (env.updateOk = true) .db
  update fun s : BindingDB => s.withoutAgentPrice customerId
  if planId ≤ 0 then syncUserDiscountPlanId env.syncOk now customerId
  else do
    createBinding env.createOk (agentBinding env.newId customerId planId)
    syncUserDiscountPlanId env.syncOk now customerId

/-- The call stops before its commit. -/
def BindingThread.fail (s : BindingStore) (k : Nat) (e : Err) : BindingStore × BindingThread :=
  (s.rollback k, .ended (.error e))

/-- The last step of a call. -/
def BindingThread.finish (s : BindingStore) (k : Nat) (x : Tx BindingDB Err Unit) :
    BindingStore × BindingThread :=
  ((s.commit k x).2, .ended (s.commit k x).1)

/-- The next step of call `k`. -/
def BindingThread.next (k : Nat) (a : BindingAnswer) (s : BindingStore) :
    BindingThread → BindingStore × BindingThread
  | .existed binding =>
    match planUnbound a.ok binding s.tables with
    | .error e => BindingThread.fail s k e
    | .ok _ => (s, .quota binding)
  | .quota binding =>
    match ensureDiscountBindingQuota a.ok binding.subjectType binding.subjectId s.tables with
    | .error e => BindingThread.fail s k e
    | .ok _ => (s, .create binding)
  | .create binding => BindingThread.finish s k (insertBinding a.code.bind a.now binding)
  | .unbind id => BindingThread.finish s k (unbindDiscountPlan a.code.bind a.now id)
  | .agentProfile agentId customerId planId =>
    match a.agentProfile with
    | .error e => BindingThread.fail s k e
    | .ok _ => (s, .belongs agentId customerId planId)
  | .belongs agentId customerId planId =>
    match ensureCustomerBelongsToAgent a.ok s.tables agentId customerId with
    | .error e => BindingThread.fail s k e
    | .ok _ => (s, .platformPriced customerId planId)
  | .platformPriced customerId planId =>
    if a.ok = false then BindingThread.fail s k .db
    else if (s.tables.enabledBindings customerId).any fun b => b.source = .manual then
      BindingThread.fail s k (.text "平台已为这位客户单独定价，请联系平台")
    else if 0 < planId then (s, .shelf customerId planId)
    else (s, .price customerId planId)
  | .shelf customerId planId =>
    match a.sellable with
    | .error e => BindingThread.fail s k e
    | .ok plans =>
      if planId ∈ plans then (s, .price customerId planId)
      else BindingThread.fail s k (.text "这个折扣方案不在你的货架上")
  | .price customerId planId =>
    BindingThread.finish s k (setAgentCustomerDiscountTx a.code.bind a.now customerId planId)
  | .lockBuyer userId plan sub =>
    if a.ok = false then BindingThread.fail s k .db
    else if ¬ s.locks.CanTake (.user userId) k then (s, .lockBuyer userId plan sub)
    else ({ s with locks := s.locks.take (.user userId) k }, .buy userId plan sub)
  | .buy userId plan sub =>
    BindingThread.finish s k (bindSubscriptionDiscount a.code.bind a.now userId plan sub)
  | .endSubscription userId =>
    BindingThread.finish s k (unbindSubscriptionDiscountTx a.code.bind a.now userId)
  | .code call => ((call.next k a s).1, .code (call.next k a s).2)
  | .ended result => (s, .ended result)

/-- All calls by anybody; an event is a call of `RevokeCustomerCode`. -/
def bindingProgram (toUpper : String → String) :
    Program BindingStore BindingThread (Int × Int) BindingCall BindingAnswer where
  event s e := revokeCustomerCode s e.1 e.2
  start s c := (s, c.begin toUpper)
  next k a s t := t.next k a s

end MicrossApi
