/-
MicrossApi/Commission.lean

Inviter commissions: `CalculateCommission`, `AssertNoLoss`,
`ProcessCommission` and `ReverseCommission` (service/commission.go) with the
risk checks they call (`DetectInviteRing`, `GetUserTotalConsumeQuota` in
model/user.go).

`decimal.NewFromString` belongs to the decimal library; it is the parameter
`newFromString`, any partial map from texts to exact decimals.  What the
database answers to each statement is the environment's choice
(`CommissionEnv`, `ReverseEnv`).

Each of the two operations has one inversion lemma, `processCommission_cases`
and `reverseCommission_cases`, which says everything a call can do to the
store.  Every later result about commissions starts from these two.
-/
import MicrossApi.Database
import MicrossApi.Rounding

namespace MicrossApi

open Rounding
open Tx hiding read

variable (newFromString : String → Option ℚ)

/-! ### The amount -/

/-- `CalculateCommission`: gross times rate, rounded to an integer quota. -/
def calculateCommission (gross : Int) (rate : String) : Int :=
  if gross = 0 ∨ rate = "" then 0
  else
    match newFromString rate with
    | none => 0
    | some parsed => if 0 < parsed then roundHalfAway (gross * parsed) else 0

/-- `AssertNoLoss`: cap the amount at four fifths of the margin; the flag says
whether the cap was hit. -/
def assertNoLoss (amount margin : Int) : Int × Bool :=
  if margin ≤ 0 then (0, true)
  else
    let cap := roundHalfAway (margin * (4 / 5))
    if cap < amount then (cap, true) else (amount, false)

/-! ### Risk checks -/

/-- `defaultDetectInviteRingConfig.MaxRingDepth`. -/
def maxRingDepth : Nat := 5

/-- The loop of `DetectInviteRing`: at most `depth` further hops up the
inviter chain. -/
def ringFrom (db : DB) : Nat → Int → List Int → Bool
  | 0, _, _ => false
  | depth + 1, current, visited =>
    let inviter := db.userColumn current (·.inviterId)
    if inviter = 0 then false
    else if inviter ∈ visited then true
    else ringFrom db depth inviter (inviter :: visited)

/-- `DetectInviteRing`. -/
def detectInviteRing (db : DB) (userId : Int) : Bool :=
  if userId ≤ 0 then false else ringFrom db maxRingDepth userId [userId]

/-- The user `n` inviter links above `u`; the chain ends where nobody invited. -/
def DB.ancestor (db : DB) : Nat → Int → Option Int
  | 0, u => some u
  | n + 1, u =>
    let inviter := db.userColumn u (·.inviterId)
    if inviter = 0 then none else db.ancestor n inviter

/-- Following at most `limit` inviter links from `u` returns to `u`. -/
def DB.OnRing (db : DB) (limit : Nat) (u : Int) : Prop := ∃ n < limit, db.ancestor (n + 1) u = some u

instance (db : DB) (limit : Nat) (u : Int) : Decidable (db.OnRing limit u) := by
  unfold DB.OnRing
  infer_instance

/-- The loop stops at the first user it has visited before, whichever user
that is. -/
theorem ringFrom_iff {db : DB} {depth : Nat} {current : Int} {visited : List Int} :
    ringFrom db depth current visited = true ↔ ∃ n < depth, ∃ v,
      db.ancestor (n + 1) current = some v ∧
        (v ∈ visited ∨ ∃ m < n, db.ancestor (m + 1) current = some v) := by
  induction depth generalizing current visited with
  | zero => simp [ringFrom]
  | succ depth ih =>
    by_cases hend : db.userColumn current (·.inviterId) = 0
    · simp [ringFrom, DB.ancestor, hend]
    simp only [ringFrom, DB.ancestor, hend, if_false]
    generalize db.userColumn current (·.inviterId) = inviter
    split
    next hseen =>
      simp only [true_iff]
      exact ⟨0, depth.succ_pos, inviter, rfl, Or.inl hseen⟩
    next hseen =>
      -- one hop is behind: the inviter is visited now, and every distance is one less
      rw [ih]
      constructor
      · rintro ⟨n, hn, v, hv, hmem | ⟨m, hm, hrep⟩⟩
        · rcases List.mem_cons.mp hmem with rfl | hmem
          · exact ⟨n + 1, by omega, v, hv, Or.inr ⟨0, n.succ_pos, rfl⟩⟩
          · exact ⟨n + 1, by omega, v, hv, Or.inl hmem⟩
        · exact ⟨n + 1, by omega, v, hv, Or.inr ⟨m + 1, by omega, hrep⟩⟩
      · rintro ⟨- | n, hn, v, hv, hrep⟩
        · cases hv
          rcases hrep with hmem | ⟨m, hm, -⟩
          · exact absurd hmem hseen
          · omega
        · refine ⟨n, by omega, v, hv, ?_⟩
          rcases hrep with hmem | ⟨- | m, hm, hrep⟩
          · exact Or.inl (List.mem_cons_of_mem _ hmem)
          · cases hrep
            exact Or.inl List.mem_cons_self
          · exact Or.inr ⟨m, by omega, hrep⟩

/-- **When ring detection is exact.**  `DetectInviteRing` answers whether the
inviter chain of `u` returns to `u` within the depth limit exactly when every
ring the chain runs into within the limit is one that `u` is on, and a user id
that is not positive is on no ring. -/
theorem detectInviteRing_exact_iff (db : DB) (u : Int) :
    (detectInviteRing db u = true ↔ db.OnRing maxRingDepth u) ↔
      (u ≤ 0 → ¬ db.OnRing maxRingDepth u) ∧
        (0 < u → ∀ n < maxRingDepth, ∀ m < n, ∀ v, db.ancestor (m + 1) u = some v →
          db.ancestor (n + 1) u = some v → db.OnRing maxRingDepth u) := by
  rcases le_or_gt u 0 with hu | hu
  · simp [detectInviteRing, hu]
  simp only [detectInviteRing, not_le.mpr hu, if_false, ringFrom_iff, List.mem_singleton,
    false_imp_iff, true_and, hu, true_imp_iff]
  constructor
  · intro hexact n hn m hm v hm' hn'
    exact hexact.mp ⟨n, hn, v, hn', Or.inr ⟨m, hm, hm'⟩⟩
  · intro hthrough
    constructor
    · rintro ⟨n, hn, v, hv, rfl | ⟨m, hm, hrep⟩⟩
      · exact ⟨n, hn, hv⟩
      · exact hthrough n hn m hm v hrep hv
    · rintro ⟨n, hn, hback⟩
      exact ⟨n, hn, u, hback, Or.inl rfl⟩

/-- User 1 was invited by one of two users who invited each other: user 1 is
on no ring and is flagged. -/
theorem detectInviteRing_tail : let db : DB :=
      { users := ⟨[{ id := 1, inviterId := 2 }, { id := 2, inviterId := 3 },
          { id := 3, inviterId := 2 }], by decide⟩ }
    detectInviteRing db 1 = true ∧ ¬ db.OnRing maxRingDepth 1 := by
  decide

/-- `GetUserTotalConsumeQuota`. -/
def getUserTotalConsumeQuota (db : DB) (userId : Int) : Except Err Int :=
  if userId ≤ 0 then .error (.text "user id is required")
  else .ok ((db.logs.filter fun l => l.userId = userId ∧ l.type = .consume).map (·.quota)).sum

/-- `defaultCommissionFirstTopUpQuota`. -/
def defaultCommissionFirstTopUpQuota : Int := 5000

/-- Step 4 of `ProcessCommission`: the inviter sits on a ring, or has not
consumed enough yet. -/
def inviterFlagged (db : DB) (inviterId : Int) : Bool :=
  detectInviteRing db inviterId ||
    match getUserTotalConsumeQuota db inviterId with
    | .ok total => decide (total < defaultCommissionFirstTopUpQuota)
    | .error _ => false

/-- Steps 4 and 5 of `ProcessCommission`: the capped amount and the breach
flag, both overridden when the inviter is flagged. -/
def commissionVerdict (db : DB) (inviterId rawAmount margin : Int) : Int × Bool :=
  if inviterFlagged db inviterId then (0, true) else assertNoLoss rawAmount margin

/-! ### Paying a commission -/

/-- What the database answers during `ProcessCommission`: the id it hands to
the new record (`none` when the INSERT fails), and whether the later
statements succeed. -/
structure CommissionEnv where
  create : Option Int
  walletOk : Bool := true
  balanceOk : Bool := true
  ledgerOk : Bool := true
  now : Int := 0
deriving DecidableEq, Repr

/-- `INSERT INTO commission_records`.  Refused by the environment, by the
primary key, or by the unique index `uk_consume_inviter`, whose only column is
`consume_log_id`. -/
def createCommissionRecord (db : DB) (create : Option Int) (r : CommissionRecord) : Option CommissionRecord :=
  match create with
  | none => none
  | some id =>
    if id ≤ 0 ∨ (db.commissionRecords.find? id).isSome ∨
        db.commissionRecords.rows.any (fun x => x.consumeLogId = r.consumeLogId) then none
    else some { r with id := id }

/-- The ledger row of commission `r`, with the balance after it. -/
def commissionRow (r : CommissionRecord) (balanceAfter : Int) : AccountLedger :=
  { subjectId := r.inviterId, eventType := .commission, amount := r.amount, balanceAfter,
    refType := .commissionRecord, refId := r.id, operatorId := 0 }

/-- The part of the transaction after the INSERT: wallet and ledger row. -/
def creditCommission (env : CommissionEnv) (r : CommissionRecord) : Tx DB Err Unit := do
  require (env.walletOk = true) .db
  update fun db => db.updateUser r.inviterId
    (fun u => { u with affCommissionBalance := u.affCommissionBalance + r.amount }) (fun _ => rfl)
  if r.amount ≠ 0 then do
    require (env.balanceOk = true) .db
    let balanceAfter ← Tx.read fun db => db.userColumn r.inviterId (·.affCommissionBalance)
    recordAccountLedger (commissionRow r balanceAfter) env.ledgerOk
  else pure ()

/-- The transaction of `ProcessCommission`: record, wallet and ledger row. -/
def commissionTx (env : CommissionEnv) (r : CommissionRecord) : Tx DB Err Unit := do
  match ← Tx.read (fun db => createCommissionRecord db env.create r) with
  | none => pure () -- a refused INSERT is swallowed, nothing else runs
  | some created => do
    update fun db => { db with commissionRecords := db.commissionRecords.insert created }
    creditCommission env created

/-- The audit line `ProcessCommission` writes after a breach. -/
def commissionAuditContent (inviteeId inviterId consumeLogId rawAmount finalAmount margin : Int) : String :=
  if 0 < finalAmount then
    s!"commission_breach: invitee={inviteeId} inviter={inviterId} consume_log={consumeLogId} raw={rawAmount} final={finalAmount} margin={margin}"
  else
    s!"commission_margin_unwired: invitee={inviteeId} inviter={inviterId} consume_log={consumeLogId} raw={rawAmount} margin={margin} (cost_ratio data not yet integrated)"

/-- Steps 1 to 3 of `ProcessCommission`: the inviter to be paid, or `none`
where the call returns without doing anything. -/
def commissionInviter (rate : String) (inviteeId gross : Int) (db : DB) : Option Int :=
  if inviteeId = 0 then none
  else
    match db.users.find? inviteeId with
    | none => none
    | some invitee =>
      if invitee.inviterId = 0 then none
      else if rate = "" ∨ rate = "0" ∨ rate = "0.000000" then none
      else if calculateCommission newFromString gross rate = 0 then none
      else some invitee.inviterId

/-- The record `ProcessCommission` asks the database to create. -/
def proposedCommission (rate : String) (consumeLogId inviteeId inviterId gross margin now : Int)
    (db : DB) : CommissionRecord :=
  let verdict := commissionVerdict db inviterId (calculateCommission newFromString gross rate) margin
  { inviterId, inviteeId, consumeLogId, gross, rate, amount := verdict.1, margin,
    breach := verdict.2, settledAt := now }

variable (db : DB)

/-- The audit log after a breach, written outside the transaction. -/
def DB.audited (r : CommissionRecord) (rawAmount : Int) : DB :=
  if r.breach then
    { db with
      logs := db.logs ++
        [{ userId := r.inviterId, type := .manage,
           content := commissionAuditContent r.inviteeId r.inviterId r.consumeLogId rawAmount
             r.amount r.margin }] }
  else db

/-- `ProcessCommission`, with `rate` the operator's commission rate. -/
def processCommission (env : CommissionEnv) (rate : String)
    (consumeLogId inviteeId gross margin : Int) (db : DB) : Except Err Unit × DB :=
  match commissionInviter newFromString rate inviteeId gross db with
  | none => (.ok (), db)
  | some inviterId =>
    let record := proposedCommission newFromString rate consumeLogId inviteeId inviterId gross
      margin env.now db
    match atomically (commissionTx env record) db with
    | (.error e, db') => (.error e, db')
    | (.ok _, db') =>
      (.ok (), db'.audited record (calculateCommission newFromString gross rate))

/-! ### Reversing a commission -/

/-- What the database answers during `ReverseCommission`. -/
structure ReverseEnv where
  walletOk : Bool := true
  saveOk : Bool := true
  balanceOk : Bool := true
  ledgerOk : Bool := true
  now : Int := 0
deriving DecidableEq, Repr

/-- The record as `ReverseCommission` marks it. -/
def CommissionRecord.markReversed (r : CommissionRecord) (now operatorId : Int)
    (reason : String) : CommissionRecord :=
  { r with reversed := true, reversedAt := now, reversedBy := operatorId, reverseReason := reason }

/-- The ledger row of the reversal of `r`, with the balance after it. -/
def reverseRow (r : CommissionRecord) (balanceAfter operatorId : Int) : AccountLedger :=
  { subjectId := r.inviterId, eventType := .commissionReverse, amount := -r.amount, balanceAfter,
    refType := .commissionRecord, refId := r.id, operatorId }

/-- The part of the reversal after the checks: wallet, mark and ledger row. -/
def takeBackCommission (env : ReverseEnv) (r : CommissionRecord) (reason : String)
    (operatorId : Int) : Tx DB Err Unit := do
  let marked := r.markReversed env.now operatorId reason
  if r.amount = 0 then do
    -- nothing to take back; the ledger row only marks that the operation happened
    require (env.saveOk = true) .db
    update fun db => { db with commissionRecords := db.commissionRecords.save marked }
    recordAccountLedger (reverseRow r 0 operatorId) env.ledgerOk
  else do
    require (env.walletOk = true) .db
    update fun db => db.updateUser r.inviterId
      (fun u => { u with affCommissionBalance := u.affCommissionBalance - r.amount })
      (fun _ => rfl)
    require (env.saveOk = true) .db
    update fun db => { db with commissionRecords := db.commissionRecords.save marked }
    require (env.balanceOk = true) .db
    let balanceAfter ← Tx.read fun db => db.userColumn r.inviterId (·.affCommissionBalance)
    recordAccountLedger (reverseRow r balanceAfter operatorId) env.ledgerOk

/-- The transaction of `ReverseCommission`. -/
def reverseTx (env : ReverseEnv) (recordId : Int) (reason : String) (operatorId : Int) : Tx DB Err Unit := do
  let r ← fetch (fun db : DB => db.commissionRecords.find? recordId)
    (.text s!"commission record {recordId} not found")
  require (r.reversed = false) .commissionAlreadyReversed
  takeBackCommission env r reason operatorId

/-- `ReverseCommission`. -/
def reverseCommission (env : ReverseEnv) (recordId : Int) (reason : String) (operatorId : Int)
    (db : DB) : Except Err Unit × DB :=
  if recordId ≤ 0 then (.error (.text s!"invalid record id: {recordId}"), db)
  else
    let reason := if reason = "" then "admin reverse (no reason given)" else reason
    atomically (reverseTx env recordId reason operatorId) db

/-! ### What a committed transaction does -/

/-- The store with the wallet and the ledger credited for commission `r`; a
zero amount leaves no ledger row. -/
def DB.credited (r : CommissionRecord) : DB :=
  let paid := db.updateUser r.inviterId
    (fun u => { u with affCommissionBalance := u.affCommissionBalance + r.amount }) (fun _ => rfl)
  if r.amount = 0 then paid
  else { paid with
    accountLedger := paid.accountLedger ++
      [commissionRow r (paid.userColumn r.inviterId (·.affCommissionBalance))] }

/-- The store with commission `r` booked: record, wallet and ledger. -/
def DB.booked (r : CommissionRecord) : DB :=
  DB.credited { db with commissionRecords := db.commissionRecords.insert r } r

variable (env : CommissionEnv)

/-- The statements after the INSERT all succeed. -/
def CommissionEnv.Pays (r : CommissionRecord) : Prop :=
  env.walletOk = true ∧
    (r.amount ≠ 0 → env.balanceOk = true ∧ 0 < r.inviterId ∧ env.ledgerOk = true)
deriving Decidable

variable {r : CommissionRecord} {db' : DB} {u : Unit}

theorem ok_creditCommission_iff {env : CommissionEnv} {db : DB} :
    creditCommission env r db = .ok (u, db') ↔ env.Pays r ∧ db' = db.credited r := by
  by_cases hr : r.amount = 0
  · simp [creditCommission, CommissionEnv.Pays, DB.credited, hr, ok_bind_iff,
      ok_require_iff, ok_update_iff]
  simp [creditCommission, CommissionEnv.Pays, DB.credited, hr, ok_bind_iff,
    ok_require_iff, ok_update_iff, ok_read_iff, ok_recordAccountLedger_iff,
    commissionRow, and_assoc]

variable {created : CommissionRecord}

/-- The record the INSERT creates is the one it was given, under a fresh id
and a fresh `consume_log_id`. -/
theorem createCommissionRecord_eq_some {db : DB} {create : Option Int}
    (h : createCommissionRecord db create r = some created) :
    ∃ id, create = some id ∧ 0 < id ∧ created = { r with id := id } ∧
      db.commissionRecords.find? id = none ∧
      ∀ x ∈ db.commissionRecords.rows, x.consumeLogId ≠ r.consumeLogId := by
  unfold createCommissionRecord at h
  rcases create with - | id
  · cases h
  dsimp only at h
  split at h
  · cases h
  rename_i hfree
  simp only [not_or, List.any_eq_true, decide_eq_true_eq, not_exists, not_and,
    Option.not_isSome_iff_eq_none, not_le] at hfree
  exact ⟨id, rfl, hfree.1, (Option.some.inj h).symm, hfree.2.1, hfree.2.2⟩

theorem ok_commissionTx_iff {env : CommissionEnv} {db : DB} :
    commissionTx env r db = .ok (u, db') ↔ (createCommissionRecord db env.create r = none ∧ db' = db) ∨
      ∃ created, createCommissionRecord db env.create r = some created ∧ env.Pays created ∧
        db' = db.booked created := by
  rcases hc : createCommissionRecord db env.create r with - | created
  · simp [commissionTx, ok_bind_iff, ok_read_iff, hc, ok_pure_iff]
  · simp [commissionTx, ok_bind_iff, ok_read_iff, hc, ok_update_iff,
      ok_creditCommission_iff, DB.booked]

/-- The store with commission `r` taken back: wallet (unless the amount is
zero), mark and ledger row. -/
def DB.takenBack (r : CommissionRecord) (now operatorId : Int) (reason : String) : DB :=
  let marked := db.commissionRecords.save (r.markReversed now operatorId reason)
  if r.amount = 0 then
    { db with
      commissionRecords := marked
      accountLedger := db.accountLedger ++ [reverseRow r 0 operatorId] }
  else
    let debited := db.updateUser r.inviterId
      (fun u => { u with affCommissionBalance := u.affCommissionBalance - r.amount })
      (fun _ => rfl)
    { debited with
      commissionRecords := marked
      accountLedger := db.accountLedger ++
        [reverseRow r (debited.userColumn r.inviterId (·.affCommissionBalance)) operatorId] }

/-- The statements of the reversal all succeed. -/
def ReverseEnv.Reverses (env : ReverseEnv) (r : CommissionRecord) : Prop :=
  (r.amount ≠ 0 → env.walletOk = true ∧ env.balanceOk = true) ∧
    env.saveOk = true ∧ 0 < r.inviterId ∧ env.ledgerOk = true

variable {reason : String} {operatorId : Int}

theorem ok_takeBackCommission_iff {env : ReverseEnv} {db : DB} :
    takeBackCommission env r reason operatorId db = .ok (u, db') ↔
      env.Reverses r ∧ db' = db.takenBack r env.now operatorId reason := by
  by_cases hr : r.amount = 0
  · simp [takeBackCommission, ReverseEnv.Reverses, DB.takenBack, hr, ok_bind_iff,
      ok_require_iff, ok_update_iff, ok_recordAccountLedger_iff, reverseRow, and_assoc]
  simp [takeBackCommission, ReverseEnv.Reverses, DB.takenBack, hr, ok_bind_iff,
    ok_require_iff, ok_update_iff, ok_read_iff, ok_recordAccountLedger_iff]
  tauto

theorem ok_reverseTx_iff {env : ReverseEnv} {recordId : Int}
    {db : DB} : reverseTx env recordId reason operatorId db = .ok (u, db') ↔
      ∃ r, db.commissionRecords.find? recordId = some r ∧ r.reversed = false ∧ env.Reverses r ∧
        db' = db.takenBack r env.now operatorId reason := by
  simp [reverseTx, ok_bind_iff, ok_fetch_iff, ok_require_iff, ok_takeBackCommission_iff]

/-! ### What a call does -/

/-- Two stores that differ in their logs only. -/
def DB.SameBooks (db db' : DB) : Prop :=
  db'.users = db.users ∧ db'.commissionRecords = db.commissionRecords ∧
    db'.accountLedger = db.accountLedger

theorem DB.SameBooks.refl : db.SameBooks db := ⟨rfl, rfl, rfl⟩

theorem DB.sameBooks_audited (r : CommissionRecord) (rawAmount : Int) :
    db.SameBooks (db.audited r rawAmount) := by
  unfold DB.audited
  split <;> exact ⟨rfl, rfl, rfl⟩

/-- The record a `ProcessCommission` commits, if it commits one. -/
def paidRecord (env : CommissionEnv) (rate : String) (consumeLogId inviteeId gross margin : Int)
    (db : DB) : Option CommissionRecord :=
  match commissionInviter newFromString rate inviteeId gross db with
  | none => none
  | some inviterId =>
    match createCommissionRecord db env.create
      (proposedCommission newFromString rate consumeLogId inviteeId inviterId gross margin
        env.now db) with
    | none => none
    | some created => if env.Pays created then some created else none

/-- `ProcessCommission` books the record it commits, and otherwise leaves the
books alone. -/
theorem processCommission_books (rate : String) (consumeLogId inviteeId gross margin : Int) :
    ((paidRecord newFromString env rate consumeLogId inviteeId gross margin db).elim db db.booked).SameBooks
      (processCommission newFromString env rate consumeLogId inviteeId gross margin db).2 := by
  unfold processCommission paidRecord
  rcases commissionInviter newFromString rate inviteeId gross db with - | inviterId
  · exact DB.SameBooks.refl db
  dsimp only
  set proposed := proposedCommission newFromString rate consumeLogId inviteeId inviterId gross
    margin env.now db
  obtain ⟨u, db', htx, hat⟩ | ⟨e, herr, hat⟩ := atomically_cases (commissionTx env proposed) db
  · rw [hat]
    obtain ⟨hc, rfl⟩ | ⟨created, hc, hpays, rfl⟩ := ok_commissionTx_iff.mp htx
    · rw [hc]
      exact DB.sameBooks_audited ..
    rw [hc]
    dsimp only
    rw [if_pos hpays]
    exact DB.sameBooks_audited ..
  · -- an error means that a record was created and a later statement failed
    rw [hat]
    rcases hc : createCommissionRecord db env.create proposed with - | created
    · exact DB.SameBooks.refl db
    dsimp only
    split
    next hpays =>
      have hok : commissionTx env proposed db = .ok ((), db.booked created) :=
        ok_commissionTx_iff.mpr (Or.inr ⟨created, hc, hpays, rfl⟩)
      rw [herr] at hok
      cases hok
    · exact DB.SameBooks.refl db

theorem paidRecord_eq_some {env : CommissionEnv} {rate : String}
    {consumeLogId inviteeId gross margin : Int} {db : DB}
    (h : paidRecord newFromString env rate consumeLogId inviteeId gross margin db = some created) :
    ∃ inviterId, commissionInviter newFromString rate inviteeId gross db = some inviterId ∧
      createCommissionRecord db env.create
        (proposedCommission newFromString rate consumeLogId inviteeId inviterId gross margin
          env.now db) = some created ∧ env.Pays created := by
  unfold paidRecord at h
  split at h
  · cases h
  rename_i inviterId hi
  split at h
  · cases h
  rename_i c hc
  split at h
  next hpays =>
    cases h
    exact ⟨inviterId, hi, hc, hpays⟩
  · cases h

/-- Everything `ProcessCommission` can do: leave the books alone, or book one
freshly created record. -/
theorem processCommission_cases (rate : String) (consumeLogId inviteeId gross margin : Int) :
    db.SameBooks (processCommission newFromString env rate consumeLogId inviteeId gross margin db).2
    ∨ ∃ inviterId created, commissionInviter newFromString rate inviteeId gross db = some inviterId ∧
        createCommissionRecord db env.create
          (proposedCommission newFromString rate consumeLogId inviteeId inviterId gross margin
            env.now db) = some created ∧ env.Pays created ∧ (db.booked created).SameBooks
          (processCommission newFromString env rate consumeLogId inviteeId gross margin db).2 := by
  have hbooks := processCommission_books newFromString db env rate consumeLogId inviteeId gross margin
  rcases hp : paidRecord newFromString env rate consumeLogId inviteeId gross margin db
    with - | created
  · rw [hp] at hbooks
    exact Or.inl hbooks
  · rw [hp] at hbooks
    obtain ⟨inviterId, hi, hc, hpays⟩ := paidRecord_eq_some newFromString hp
    exact Or.inr ⟨inviterId, created, hi, hc, hpays, hbooks⟩

/-- The index refuses a second record of one consumption, whatever the amount. -/
theorem processCommission_of_taken {rate : String} {consumeLogId inviteeId gross margin : Int} {db : DB}
    (htaken : ∃ r ∈ db.commissionRecords.rows, r.consumeLogId = consumeLogId) : db.SameBooks
      (processCommission newFromString env rate consumeLogId inviteeId gross margin db).2 := by
  obtain h | ⟨inviterId, created, -, hc, -⟩ := processCommission_cases newFromString db env rate
    consumeLogId inviteeId gross margin
  · exact h
  · obtain ⟨r, hr, hlog⟩ := htaken
    obtain ⟨-, -, -, -, -, hall⟩ := createCommissionRecord_eq_some hc
    exact absurd hlog (hall r hr)

/-- Everything `ReverseCommission` can do: fail and change nothing, or take
back one record that was not reversed yet. -/
theorem reverseCommission_cases (env : ReverseEnv) (recordId : Int) (reason : String)
    (operatorId : Int) :
    (∃ e, reverseCommission env recordId reason operatorId db = (.error e, db)) ∨
      ∃ r reason', db.commissionRecords.find? recordId = some r ∧ r.reversed = false ∧
        reverseCommission env recordId reason operatorId db
          = (.ok (), db.takenBack r env.now operatorId reason') := by
  unfold reverseCommission
  split
  · exact Or.inl ⟨_, rfl⟩
  obtain ⟨u, db', htx, hat⟩ | ⟨e, -, hat⟩ := atomically_cases (reverseTx env recordId
    (if reason = "" then "admin reverse (no reason given)" else reason) operatorId) db
  · obtain ⟨r, hr, hrev, -, rfl⟩ := ok_reverseTx_iff.mp htx
    exact Or.inr ⟨r, _, hr, hrev, hat⟩
  · exact Or.inl ⟨e, hat⟩

end MicrossApi
