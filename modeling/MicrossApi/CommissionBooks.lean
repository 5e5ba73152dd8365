/-
MicrossApi/CommissionBooks.lean

The commission books balance.  Three stores describe one wallet: the column
`users.aff_commission_balance`, the commission records, and the commission
rows of the account ledger.  Over any run of `ProcessCommission` and
`ReverseCommission` transactions they agree:

    balance u  =  initial balance u + Σ amount of the unreversed records of u
               =  initial balance u + Σ amount of the commission ledger rows of u.

The proof is one invariant, `Balanced`, kept by the two effects a committed
transaction can have (`DB.booked` and `DB.takenBack`, Commission.lean).  That
a record is reversed at most once is a second, smaller invariant: the mark
`reversed` is never cleared.
-/
import MicrossApi.Commission
import MicrossApi.StepSystem
import MicrossApi.Transducer

namespace MicrossApi

open StepSystem

variable (newFromString : String → Option ℚ) {db₀ : DB} {id : Int}

/-! ### Runs of commission transactions -/

/-- A commission transaction, with the environment's answers. -/
inductive CommissionOp where
  | process (env : CommissionEnv) (rate : String) (consumeLogId inviteeId gross margin : Int)
  | reverse (env : ReverseEnv) (recordId : Int) (reason : String) (operatorId : Int)

/-- Perform one transaction: its answer and the store after it. -/
def CommissionOp.perform (db : DB) : CommissionOp → Except Err Unit × DB
  | .process env rate consumeLogId inviteeId gross margin =>
    processCommission newFromString env rate consumeLogId inviteeId gross margin db
  | .reverse env recordId reason operatorId => reverseCommission env recordId reason operatorId db

/-- The store after one transaction. -/
def commissionStep (db : DB) (op : CommissionOp) : DB := (op.perform newFromString db).2

/-! ### The three stores -/

/-- The sum of the amounts of the records of inviter `u` that are not
reversed. -/
def liveCommission (db : DB) (u : Int) : Int :=
  ((db.commissionRecords.rows.filter fun r => r.inviterId = u ∧ r.reversed = false).map
    (·.amount)).sum

/-- The two event types of the commission wallet. -/
def isCommissionEvent : LedgerEvent → Bool
  | .commission => true
  | .commissionReverse => true
  | _ => false

variable (u : Int)

/-- What an unreversed record of `u` contributes to `liveCommission`. -/
def liveWeight (r : CommissionRecord) : Int :=
  if r.inviterId = u ∧ r.reversed = false then r.amount else 0

variable (db : DB)

theorem liveCommission_eq_total : liveCommission db u = db.commissionRecords.total (liveWeight u) := by
  unfold liveCommission
  rw [Table.sum_map_filter]
  simp only [decide_eq_true_eq]
  rfl

/-- The books of `db` balance against those of `db₀`: every user row is the
initial one with the live commissions added to its wallet, and the commission
rows of the ledger have grown by the same amount. -/
structure Balanced (db₀ db : DB) : Prop where
  wallet : ∀ u, db.users.find? u = (db₀.users.find? u).map fun row =>
    { row with affCommissionBalance := row.affCommissionBalance + liveCommission db u }
  ledger : ∀ u, ledgerSum db.accountLedger isCommissionEvent u
    = ledgerSum db₀.accountLedger isCommissionEvent u + liveCommission db u

theorem Balanced.init (h₀ : db₀.commissionRecords.rows = []) : Balanced db₀ db₀ := by
  have hlive : ∀ u, liveCommission db₀ u = 0 := by
    intro u
    simp [liveCommission, h₀]
  refine ⟨fun u => ?_, fun u => ?_⟩ <;> simp [hlive]

/-- The books do not see the logs. -/
theorem Balanced.of_sameBooks {db db' : DB} (h : Balanced db₀ db) (hs : db.SameBooks db') :
    Balanced db₀ db' := by
  obtain ⟨hu, hr, hl⟩ := hs
  have hlive : ∀ u, liveCommission db' u = liveCommission db u := by
    intro u
    simp [liveCommission, hr]
  refine ⟨fun u => ?_, fun u => ?_⟩
  · rw [hu, hlive, h.wallet u]
  · rw [hl, hlive, h.ledger u]

/-! ### Booking a commission -/

variable (r : CommissionRecord)

theorem records_booked : (db.booked r).commissionRecords = db.commissionRecords.insert r := by
  unfold DB.booked DB.credited
  split <;> rfl

theorem liveCommission_booked {db : DB} {r : CommissionRecord}
    (hfresh : db.commissionRecords.find? r.id = none) (hrev : r.reversed = false) :
    liveCommission (db.booked r) u = liveCommission db u + if r.inviterId = u then r.amount else 0 := by
  rw [liveCommission_eq_total, liveCommission_eq_total, records_booked, Table.total_insert hfresh]
  simp [liveWeight, hrev]

theorem users_booked : (db.booked r).users = db.users.modify r.inviterId
      (fun u => { u with affCommissionBalance := u.affCommissionBalance + r.amount })
      (fun _ => rfl) := by
  unfold DB.booked DB.credited
  split <;> rfl

theorem ledgerSum_booked : ledgerSum (db.booked r).accountLedger isCommissionEvent u
      = ledgerSum db.accountLedger isCommissionEvent u + if r.inviterId = u then r.amount else 0 := by
  unfold DB.booked DB.credited
  split
  next hzero =>
    simp [DB.updateUser, hzero]
  · simp [DB.updateUser, commissionRow, isCommissionEvent]

theorem Balanced.booked {db : DB} {r : CommissionRecord} (h : Balanced db₀ db)
    (hfresh : db.commissionRecords.find? r.id = none) (hrev : r.reversed = false) :
    Balanced db₀ (db.booked r) := by
  refine ⟨fun u => ?_, fun u => ?_⟩
  · rw [users_booked, Table.find?_modify, liveCommission_booked u hfresh hrev, h.wallet u]
    by_cases hu : u = r.inviterId
    · subst hu
      rcases db₀.users.find? r.inviterId with - | row
      · simp
      · simp [add_assoc]
    · simp [hu, Ne.symm hu]
  · rw [ledgerSum_booked, liveCommission_booked u hfresh hrev, h.ledger u, add_assoc]

/-! ### Taking a commission back -/

variable (now operatorId : Int) (reason : String)

theorem records_takenBack : (db.takenBack r now operatorId reason).commissionRecords
      = db.commissionRecords.save (r.markReversed now operatorId reason) := by
  unfold DB.takenBack
  split <;> rfl

theorem liveCommission_takenBack {db : DB} {r : CommissionRecord}
    (hr : db.commissionRecords.find? r.id = some r) (hrev : r.reversed = false) :
    liveCommission (db.takenBack r now operatorId reason) u
      = liveCommission db u - if r.inviterId = u then r.amount else 0 := by
  have hsave : db.commissionRecords.find? (r.markReversed now operatorId reason).id = some r := hr
  rw [liveCommission_eq_total, liveCommission_eq_total, records_takenBack, Table.total_save hsave]
  simp [liveWeight, CommissionRecord.markReversed, hrev]

theorem users_takenBack : (db.takenBack r now operatorId reason).users.find? u
      = if u = r.inviterId then (db.users.find? u).map fun row =>
          { row with affCommissionBalance := row.affCommissionBalance - r.amount }
        else db.users.find? u := by
  unfold DB.takenBack
  split
  next hzero =>
    rcases db.users.find? u with - | row
    · simp
    · simp [hzero]
  · simp [DB.updateUser]

theorem ledgerSum_takenBack :
    ledgerSum (db.takenBack r now operatorId reason).accountLedger isCommissionEvent u
      = ledgerSum db.accountLedger isCommissionEvent u - if r.inviterId = u then r.amount else 0 := by
  unfold DB.takenBack
  split
  next hzero =>
    simp [reverseRow, hzero]
  by_cases hu : r.inviterId = u
  · simp [reverseRow, isCommissionEvent]
    omega
  · simp [reverseRow, hu]

theorem Balanced.takenBack {db : DB} {r : CommissionRecord} (h : Balanced db₀ db)
    (hr : db.commissionRecords.find? r.id = some r) (hrev : r.reversed = false) :
    Balanced db₀ (db.takenBack r now operatorId reason) := by
  refine ⟨fun u => ?_, fun u => ?_⟩
  · rw [users_takenBack, liveCommission_takenBack u now operatorId reason hr hrev, h.wallet u]
    by_cases hu : u = r.inviterId
    · subst hu
      rcases db₀.users.find? r.inviterId with - | row
      · simp
      · simp [add_sub_assoc]
    · simp [hu, Ne.symm hu]
  · rw [ledgerSum_takenBack, liveCommission_takenBack u now operatorId reason hr hrev,
      h.ledger u, add_sub_assoc]

variable (op : CommissionOp)

/-- The inviter whose books the transaction is about: that of the invitee, if
somebody invited them, or that of the record. -/
def CommissionOp.inviter (db : DB) : CommissionOp → Option Int
  | .process _ _ _ inviteeId _ _ =>
    ((db.users.find? inviteeId).map (·.inviterId)).filter (· ≠ 0)
  | .reverse _ recordId _ _ => (db.commissionRecords.find? recordId).map (·.inviterId)

/-- The record to be reversed. -/
def CommissionOp.record (db : DB) : CommissionOp → Option CommissionRecord
  | .process .. => none
  | .reverse _ recordId _ _ => db.commissionRecords.find? recordId

/-- The transaction reverses a record of no amount. -/
def CommissionOp.TakesNothing (db : DB) (op : CommissionOp) : Prop :=
  ∃ r ∈ op.record db, r.reversed = false ∧ r.amount = 0
deriving Decidable

theorem inviter_of_commissionInviter {rate : String} {inviteeId gross inviterId : Int} {db : DB}
    (h : commissionInviter newFromString rate inviteeId gross db = some inviterId) :
    ((db.users.find? inviteeId).map (·.inviterId)).filter (· ≠ 0) = some inviterId := by
  unfold commissionInviter at h
  split at h
  · cases h
  split at h
  · cases h
  rename_i invitee hinvitee
  split at h
  · cases h
  rename_i hne
  split_ifs at h
  cases h
  rw [hinvitee]
  exact if_pos (decide_eq_true hne)

/-- Everything a commission transaction can do, whatever the database answers:
leave the books alone, book a fresh record, or take an unreversed one back. -/
theorem commissionStep_cases :
    db.SameBooks (commissionStep newFromString db op) ∨
    (∃ r, db.commissionRecords.find? r.id = none ∧ r.reversed = false ∧
      (op.inviter db = some r.inviterId ∧ ¬ op.TakesNothing db) ∧
      (db.booked r).SameBooks (commissionStep newFromString db op)) ∨
    ∃ r env reason operatorId reason', db.commissionRecords.find? r.id = some r ∧ r.reversed = false ∧
      op = .reverse env r.id reason operatorId ∧
      (db.takenBack r env.now operatorId reason').SameBooks (commissionStep newFromString db op) := by
  cases op with
  | process env rate consumeLogId inviteeId gross margin =>
    obtain hs | ⟨inviterId, created, hinviter, hc, -, hs⟩ := processCommission_cases newFromString db env
      rate consumeLogId inviteeId gross margin
    · exact Or.inl hs
    · obtain ⟨id, -, -, rfl, hfresh, -⟩ := createCommissionRecord_eq_some hc
      refine Or.inr (Or.inl ⟨_, hfresh, rfl, ⟨?_, fun htakes => ?_⟩, hs⟩)
      · exact inviter_of_commissionInviter newFromString hinviter
      · obtain ⟨r, hr, -⟩ := htakes
        exact Option.not_mem_none r hr
  | reverse env recordId reason operatorId =>
    obtain ⟨e, he⟩ | ⟨r, reason', hr, hrev, he⟩ :=
      reverseCommission_cases db env recordId reason operatorId
    · exact Or.inl (by rw [commissionStep, CommissionOp.perform, he]; exact DB.SameBooks.refl db)
    · obtain rfl := Table.key_of_find? hr
      refine Or.inr (Or.inr ⟨r, env, reason, operatorId, reason', hr, hrev, rfl, ?_⟩)
      rw [commissionStep, CommissionOp.perform, he]
      exact DB.SameBooks.refl _

theorem Balanced.step {db : DB} (h : Balanced db₀ db) (op : CommissionOp) :
    Balanced db₀ (commissionStep newFromString db op) := by
  obtain hs | ⟨r, hfresh, hrev, -, hs⟩ | ⟨r, env, -, operatorId, reason, hr, hrev, -, hs⟩ :=
    commissionStep_cases newFromString db op
  · exact h.of_sameBooks hs
  · exact (h.booked hfresh hrev).of_sameBooks hs
  · exact (h.takenBack env.now operatorId reason hr hrev).of_sameBooks hs

/-! ### At most one reversal -/

/-- Record `id` exists and is marked as reversed. -/
def IsReversed (db : DB) (id : Int) : Prop :=
  ∃ r, db.commissionRecords.find? id = some r ∧ r.reversed = true

/-- A second reversal is refused and changes nothing. -/
theorem reverseCommission_of_isReversed {db : DB} (hid : 0 < id) (h : IsReversed db id) (env : ReverseEnv) :
    reverseCommission env id reason operatorId db = (.error .commissionAlreadyReversed, db) := by
  obtain ⟨r, hr, hrev⟩ := h
  have hbody : ∀ why, reverseTx env id why operatorId db = .error .commissionAlreadyReversed := by
    intro why
    show (Tx.fetch (fun db : DB => db.commissionRecords.find? id) _ >>= _) db = _
    simp [bind, StateT.bind, Except.bind, Tx.fetch, hr, Tx.require, hrev]
  simp [reverseCommission, not_le.mpr hid, Tx.atomically, hbody]

/-- The mark is never cleared. -/
theorem IsReversed.step {db : DB} (h : IsReversed db id) (op : CommissionOp) :
    IsReversed (commissionStep newFromString db op) id := by
  obtain ⟨x, hx, hrev⟩ := h
  obtain ⟨-, hr, -⟩ | ⟨r, hfresh, -, -, -, hr, -⟩ | ⟨r, env, -, operatorId, reason, -, -, -, -, hr, -⟩ :=
    commissionStep_cases newFromString db op
  · exact ⟨x, by rw [hr, hx], hrev⟩
  · have hne : id ≠ r.id := by
      rintro rfl
      rw [hx] at hfresh
      cases hfresh
    exact ⟨x, by rw [hr, records_booked, Table.find?_insert hfresh, if_neg hne, hx], hrev⟩
  · rw [IsReversed, hr, records_takenBack, Table.find?_save, hx]
    split
    · exact ⟨_, rfl, rfl⟩
    · exact ⟨x, rfl, hrev⟩

/-- The transaction reverses record `id` and succeeds. -/
def CommissionOp.Reverses (db : DB) (id : Int) (op : CommissionOp) : Prop :=
  ∃ env reason operatorId, op = .reverse env id reason operatorId ∧
    (reverseCommission env id reason operatorId db).1 = .ok ()

/-- After a successful reversal, wherever it stands in the run, the record is
marked in every later state. -/
theorem isReversed_of_reversed_in_run {db : DB} {op : CommissionOp}
    (h : op.Reverses db id) (ops : List CommissionOp) :
    0 < id ∧ IsReversed (exec (commissionStep newFromString) db (op :: ops)) id := by
  obtain ⟨env, reason, operatorId, rfl, hok⟩ := h
  have hid : 0 < id := by
    by_contra hle
    simp [reverseCommission, not_lt.mp hle] at hok
  have hrev : IsReversed (reverseCommission env id reason operatorId db).2 id := by
    obtain ⟨e, he⟩ | ⟨r, reason', hr, -, he⟩ :=
      reverseCommission_cases db env id reason operatorId
    · rw [he] at hok
      cases hok
    rw [he]
    refine ⟨r.markReversed env.now operatorId reason', ?_, rfl⟩
    obtain rfl := Table.key_of_find? hr
    rw [records_takenBack, Table.find?_save, hr]
    exact if_pos rfl
  refine ⟨hid, exec_inv (I := fun db => IsReversed db id) ?_ hrev ops⟩
  intro db' op' h'
  exact h'.step ..

/-! ### Conservation -/

/-- **Commission wallet conservation.**  Start from a store without commission
records and perform any commission transactions in any order, each statement
succeeding or failing as the database pleases.  Then the wallet of every user
has moved by the sum of their unreversed commissions, and by the same sum as
the commission rows of their ledger; and once a reversal of a record has
succeeded, every later one is refused and changes nothing. -/
theorem commission_wallet_conservation (db₀ : DB) (h₀ : db₀.commissionRecords.rows = [])
    (ops : List CommissionOp) : (∀ u row₀, db₀.users.find? u = some row₀ →
      ∃ row, (exec (commissionStep newFromString) db₀ ops).users.find? u = some row ∧
        row.affCommissionBalance = row₀.affCommissionBalance
          + liveCommission (exec (commissionStep newFromString) db₀ ops) u ∧
        row.affCommissionBalance + ledgerSum db₀.accountLedger isCommissionEvent u = row₀.affCommissionBalance
            + ledgerSum (exec (commissionStep newFromString) db₀ ops).accountLedger isCommissionEvent u) ∧
    ∀ before op after id, ops = before ++ op :: after →
      op.Reverses (exec (commissionStep newFromString) db₀ before) id → ∀ env reason operatorId,
        reverseCommission env id reason operatorId (exec (commissionStep newFromString) db₀ ops)
          = (.error .commissionAlreadyReversed, exec (commissionStep newFromString) db₀ ops) := by
  refine ⟨?_, ?_⟩
  · intro u row₀ hrow
    have hbal : Balanced db₀ (exec (commissionStep newFromString) db₀ ops) := by
      refine exec_inv (I := Balanced db₀) ?_ (Balanced.init h₀) ops
      intro db op h
      exact h.step ..
    have hw := hbal.wallet u
    rw [hrow] at hw
    refine ⟨_, hw, rfl, ?_⟩
    rw [hbal.ledger u]
    dsimp only
    omega
  · rintro before op after id rfl hop env reason operatorId
    rw [exec_append]
    obtain ⟨hid, hrev⟩ := isReversed_of_reversed_in_run newFromString hop after
    exact reverseCommission_of_isReversed operatorId reason hid hrev env

/-! ### The balances in the ledger -/

/-- One transaction and the ledger rows it writes. -/
def commissionWrites (db : DB) (op : CommissionOp) : DB × List AccountLedger :=
  (commissionStep newFromString db op,
    (commissionStep newFromString db op).accountLedger.drop db.accountLedger.length)

def DB.commissionBalance (db : DB) (u : Int) : Int := db.userColumn u (·.affCommissionBalance)

/-- The balance in the row is the one its user has. -/
def DB.Shows (db : DB) (row : AccountLedger) : Prop :=
  ∃ user ∈ db.users.find? row.subjectId, row.balanceAfter = user.affCommissionBalance
deriving Decidable

/-- From row to row of a user the balance moves by the amount. -/
def Chained : (Int → Int) → List AccountLedger → Prop
  | _, [] => True
  | balance, row :: rows => row.balanceAfter = balance row.subjectId + row.amount ∧
      Chained (Function.update balance row.subjectId row.balanceAfter) rows

/-- Every row of a run shows the balance right after its transaction, and the
rows of a user follow from one another. -/
def LedgerReal (db : DB) (ops : List CommissionOp) : Prop :=
  Along (commissionStep newFromString) (fun db op => ∀ row ∈ (commissionWrites newFromString db op).2,
      (commissionStep newFromString db op).Shows row) db ops ∧
    Chained db.commissionBalance (Transducer.run (commissionWrites newFromString) db ops).2

/-- Rows are written for users there are, and rows of no amount where the balance
is zero. -/
def RowsSound (db : DB) (op : CommissionOp) : Prop :=
  ∀ row ∈ (commissionWrites newFromString db op).2, ∃ user ∈ db.users.find? row.subjectId,
    row.amount = 0 → user.affCommissionBalance = 0

/-- **What a transaction needs of the store it finds**: the inviter has a user row,
and where it reverses a record of no amount their balance is zero. -/
def CommissionOp.Sound (db : DB) (op : CommissionOp) : Prop :=
  ∀ u ∈ op.inviter db, ∃ user ∈ db.users.find? u,
    op.TakesNothing db → user.affCommissionBalance = 0
deriving Decidable

/-- A transaction writes at most one row, for its inviter.  The row of a reversal
that takes nothing back has the balance zero, whatever the balance is. -/
theorem commissionWrites_cases :
    ((commissionWrites newFromString db op).2 = [] ∧
      (commissionStep newFromString db op).commissionBalance = db.commissionBalance) ∨
    ∃ row, (commissionWrites newFromString db op).2 = [row] ∧
      (op.inviter db = some row.subjectId ∧ (row.amount = 0 ↔ op.TakesNothing db)) ∧
      (∀ u, (commissionStep newFromString db op).users.find? u = if u = row.subjectId then
          (db.users.find? u).map fun x => { x with affCommissionBalance := x.affCommissionBalance + row.amount }
        else db.users.find? u) ∧
      row.balanceAfter = if row.amount = 0 then 0
        else (commissionStep newFromString db op).commissionBalance row.subjectId := by
  unfold commissionWrites DB.commissionBalance DB.userColumn
  obtain ⟨hu, -, hl⟩ | ⟨r, -, -, ⟨hinviter, htakes⟩, hu, -, hl⟩ |
      ⟨r, env, reason, operatorId, reason', hr, hrev, rfl, hu, -, hl⟩ :=
    commissionStep_cases newFromString db op
  · exact .inl (by simp [hu, hl])
  · rw [hu, hl]
    by_cases hr : r.amount = 0
    · refine .inl ⟨by simp [DB.booked, DB.credited, hr, DB.updateUser], funext fun u => ?_⟩
      rw [users_booked, Table.find?_modify, hr]
      split <;> simp
    · refine .inr ⟨_, by simp [DB.booked, DB.credited, hr, DB.updateUser]; rfl, ⟨hinviter, ?_⟩,
        fun u => ?_, ?_⟩
      · exact iff_of_false hr htakes
      · rw [users_booked, Table.find?_modify]
        rfl
      · exact (if_neg hr).symm ▸ by rw [users_booked]; rfl
  · rw [hu, hl]
    refine .inr ⟨reverseRow r (if r.amount = 0 then 0 else
      (db.takenBack r env.now operatorId reason').userColumn r.inviterId (·.affCommissionBalance)) operatorId,
      ?_, ⟨?_, ?_⟩, fun u => ?_, ?_⟩
    · by_cases hr : r.amount = 0
      · simp [DB.takenBack, hr]
      · simp [DB.takenBack, hr, DB.userColumn]
    · exact congrArg (Option.map _) hr
    · simp [reverseRow, CommissionOp.TakesNothing, CommissionOp.record, hr, hrev]
    · rw [users_takenBack]
      rfl
    · simp only [reverseRow, neg_eq_zero, DB.userColumn]

section Ledger

variable {newFromString}

theorem shows_iff_rowsSound : (∀ row ∈ (commissionWrites newFromString db op).2,
      (commissionStep newFromString db op).Shows row) ↔ RowsSound newFromString db op := by
  unfold RowsSound DB.Shows
  obtain ⟨hrows, -⟩ | ⟨row, hrows, -, husers, hafter⟩ := commissionWrites_cases newFromString db op
  · simp [hrows]
  · rcases huser : db.users.find? row.subjectId with - | user
    · simp [hrows, husers, huser]
    · by_cases hzero : row.amount = 0
      · simp [hrows, husers, huser, hafter, hzero, eq_comm]
      · simp [hrows, husers, huser, hafter, hzero, DB.commissionBalance, DB.userColumn]

theorem chained_run {db : DB} {ops : List CommissionOp}
    (h : Along (commissionStep newFromString) (RowsSound newFromString) db ops) :
    Chained db.commissionBalance (Transducer.run (commissionWrites newFromString) db ops).2 := by
  induction ops generalizing db with
  | nil => trivial
  | cons op ops ih =>
    obtain ⟨hsound, hrest⟩ := h
    rw [Transducer.run_cons]
    obtain ⟨hrows, hbalance⟩ | ⟨row, hrows, -, husers, hafter⟩ :=
      commissionWrites_cases newFromString db op
    · rw [hrows, ← hbalance]
      exact ih hrest
    obtain ⟨user, huser, hzero⟩ := hsound row (by simp [hrows])
    rw [Option.mem_def] at huser
    have hbalance : row.balanceAfter = user.affCommissionBalance + row.amount := by
      rw [hafter]
      split
      next h => rw [hzero h, h, add_zero]
      · simp [DB.commissionBalance, DB.userColumn, husers, huser]
    have hnext : (commissionStep newFromString db op).commissionBalance
        = Function.update db.commissionBalance row.subjectId row.balanceAfter := by
      funext u
      by_cases hu : u = row.subjectId
      · simp [DB.commissionBalance, DB.userColumn, husers, hu, huser, hbalance]
      · simp [DB.commissionBalance, DB.userColumn, husers, hu]
    rw [hrows]
    refine ⟨?_, hnext ▸ ih hrest⟩
    simp [DB.commissionBalance, DB.userColumn, huser, hbalance]

theorem CommissionOp.Sound.rows {db : DB} {op : CommissionOp} (h : op.Sound db) :
    RowsSound newFromString db op := by
  intro row hrow
  obtain ⟨hrows, -⟩ | ⟨row', hrows, ⟨hinviter, hzero⟩, -⟩ := commissionWrites_cases newFromString db op
  · simp [hrows] at hrow
  · obtain rfl : row = row' := by simpa [hrows] using hrow
    obtain ⟨user, huser, hbalance⟩ := h _ hinviter
    exact ⟨user, huser, fun h => hbalance (hzero.mp h)⟩

/-- A reversal that succeeds writes its row. -/
theorem writes_of_reversed {db : DB} {env : ReverseEnv} {recordId operatorId : Int} {reason : String}
    (h : (reverseCommission env recordId reason operatorId db).1 = .ok ()) :
    (commissionWrites newFromString db (.reverse env recordId reason operatorId)).2 ≠ [] := by
  obtain ⟨e, he⟩ | ⟨r, reason', -, -, he⟩ := reverseCommission_cases db env recordId reason operatorId
  · rw [he] at h
    cases h
  · show ((reverseCommission env recordId reason operatorId db).2.accountLedger.drop _) ≠ []
    rw [he]
    unfold DB.takenBack
    split <;> simp

theorem sound_of_rows {db : DB} {op : CommissionOp} (h : RowsSound newFromString db op)
    (hwrites : (commissionWrites newFromString db op).2 ≠ []) : op.Sound db := by
  intro u hu
  obtain ⟨hrows, -⟩ | ⟨row, hrows, ⟨hinviter, hzero⟩, -⟩ := commissionWrites_cases newFromString db op
  · exact absurd hrows hwrites
  obtain rfl := Option.some.inj (hinviter.symm.trans hu)
  obtain ⟨user, huser, hbalance⟩ := h row (by simp [hrows])
  exact ⟨user, huser, fun h => hbalance (hzero.mpr h)⟩

/-- **Ledger balances are real** in the runs whose transactions find an inviter with
a user row, and a balance of zero where they reverse a record of no amount.  For the
reversals that succeed this is also needed. -/
theorem ledger_real_of_sound (db : DB) (ops : List CommissionOp) :
    (Along (commissionStep newFromString) CommissionOp.Sound db ops → LedgerReal newFromString db ops) ∧
    (LedgerReal newFromString db ops → Along (commissionStep newFromString) (fun db op =>
      ∀ env recordId reason operatorId, op = .reverse env recordId reason operatorId →
        (reverseCommission env recordId reason operatorId db).1 = .ok () → op.Sound db) db ops) := by
  unfold LedgerReal
  simp only [shows_iff_rowsSound]
  refine ⟨fun h => ?_, fun h => h.1.mono ?_⟩
  · have hrows : Along (commissionStep newFromString) (RowsSound newFromString) db ops :=
      h.mono fun _ _ => CommissionOp.Sound.rows
    exact ⟨hrows, chained_run hrows⟩
  · rintro db op hrows env recordId reason operatorId rfl hok
    exact sound_of_rows hrows (writes_of_reversed hok)

end Ledger

/-- Inviter 1 has consumed enough to be paid; user 2 was invited by them. -/
def invitedPair : DB where
  users := ⟨[{ id := 1, affCommissionBalance := 30 }, { id := 2, inviterId := 1 }], by decide⟩
  logs := [{ userId := 1, type := .consume, quota := 6000 }]

/-- Two commissions of ten percent for user 1, the first one reversed. -/
def paidAndReversed : List CommissionOp :=
  [.process { create := some 1 } "0.1" 71 2 1000 500,
   .process { create := some 2 } "0.1" 72 2 2000 900,
   .reverse {} 1 "abuse" 9]

theorem commission_wallet_conservation_paidAndReversed : invitedPair.commissionRecords.rows = [] ∧
    liveCommission (exec (commissionStep fun _ => some (1 / 10)) invitedPair paidAndReversed) 1 = 200 ∧
    (∃ row, (exec (commissionStep fun _ => some (1 / 10)) invitedPair paidAndReversed).users.find? 1
        = some row ∧ row.affCommissionBalance = 30
        + liveCommission (exec (commissionStep fun _ => some (1 / 10)) invitedPair paidAndReversed) 1) ∧
    (reverseCommission {} 1 "again" 9
      (exec (commissionStep fun _ => some (1 / 10)) invitedPair paidAndReversed)).1
        = .error .commissionAlreadyReversed := by
  have h := commission_wallet_conservation (fun _ => some (1 / 10)) invitedPair rfl paidAndReversed
  refine ⟨rfl, by decide +kernel, ?_, ?_⟩
  · obtain ⟨row, hrow, hbal, -⟩ := h.1 1 { id := 1, affCommissionBalance := 30 } (by decide)
    exact ⟨row, hrow, hbal⟩
  · have hop := h.2 (paidAndReversed.take 2) (.reverse {} 1 "abuse" 9) [] 1 rfl
      ⟨{}, "abuse", 9, rfl, by decide +kernel⟩ {} "again" 9
    rw [hop]

theorem ledger_real_of_sound_paidAndReversed :
    (Transducer.run (commissionWrites fun _ => some (1 / 10)) invitedPair paidAndReversed).2.map
      (fun row => (row.amount, row.balanceAfter)) = [(100, 130), (200, 330), (-100, 230)] ∧
    LedgerReal (fun _ => some (1 / 10)) invitedPair paidAndReversed :=
  ⟨by decide +kernel, (ledger_real_of_sound invitedPair paidAndReversed).1 (by decide +kernel)⟩

/-- Without a margin the commission is zero; the row of its reversal says that the
balance, which is 30, is zero. -/
theorem ledger_shows_zero : ¬ LedgerReal (fun _ => some (1 / 10)) invitedPair
    [.process { create := some 1 } "0.1" 71 2 1000 0, .reverse {} 1 "abuse" 9] := by
  rintro ⟨⟨-, hreverse, -⟩, -⟩
  exact absurd hreverse (by decide +kernel)

end MicrossApi
