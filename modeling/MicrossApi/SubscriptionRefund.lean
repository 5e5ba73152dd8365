/-
MicrossApi/SubscriptionRefund.lean

Refunding a pre-consumption again and again
(`RefundSubscriptionPreConsume` under `refundWithRetry`,
service/funding_source.go).  Each attempt may fail at any of its statements;
whatever the attempts do, the used amount should go down by the pre-consumed
amount at most, and by exactly that once the record is marked as refunded.

The attempt holds the record's row in one transaction and corrects the used
amount through `PostConsumeUserSubscriptionDelta`, which opens another.  A
failure to save the record rolls the first one back and leaves the second
committed, so the next attempt corrects again.  `MarkSucceeds` rules this one
failure out, and `refund_restores_at_most` shows that no other does harm.
-/
import MicrossApi.SubscriptionUsage

namespace MicrossApi

open List StepSystem

/-! ### What a correction takes back -/

/-- The used amount of the subscription `id`, 0 when there is none. -/
def DB.amountUsed (db : DB) (id : Int) : Int :=
  ((db.userSubscriptions.find? id).map (·.amountUsed.toInt)).getD 0

/-- The subscription as `PostConsumeUserSubscriptionDelta` writes it back. -/
def UserSubscription.corrected (s : UserSubscription) (delta : Int64) : UserSubscription :=
  { s with amountUsed := if s.amountUsed + delta < 0 then 0 else s.amountUsed + delta }

/-- A correction is refused and changes nothing, or it writes the corrected
row. -/
theorem postConsume_cases (env : PostConsumeEnv) (id : Int) {delta : Int64} (db : DB) (hdelta : delta ≠ 0) :
    (∃ e, postConsumeUserSubscriptionDelta env id delta db = (.error e, db)) ∨
      ∃ s, db.userSubscriptions.find? id = some s ∧ env.lockOk = true ∧ env.saveOk = true ∧
        postConsumeUserSubscriptionDelta env id delta db
          = (.ok (), db.saveSubscription (s.corrected delta)) := by
  unfold postConsumeUserSubscriptionDelta
  split
  · exact Or.inl ⟨_, rfl⟩
  obtain ⟨_, db', htx, hrun⟩ | ⟨e, -, hrun⟩ :=
    Tx.atomically_cases (postConsumeTx env id delta) db
  · simp only [postConsumeTx, Tx.ok_require_bind_iff, Tx.ok_fetch_bind_iff, Tx.ok_update_iff] at htx
    obtain ⟨hlock, s, hs, -, hsave, rfl⟩ := htx
    exact Or.inr ⟨s, hs, hlock, hsave, hrun⟩
  · exact Or.inl ⟨e, hrun⟩

theorem toInt_neg_of_pos {a : Int64} (h : 0 < a.toInt) : (-a).toInt = -a.toInt := by
  have := a.toInt_lt
  rw [Int64.toInt_neg]
  apply Int.bmod_eq_of_le <;> omega

variable {s : UserSubscription} {p : Int64} {db : DB} {r : SubscriptionPreConsumeRecord}
  {requestId : String} {env : RefundPreConsumeEnv}

theorem toInt_corrected_of_le (hp : 0 < p) (hle : p.toInt ≤ s.amountUsed.toInt) :
    (s.corrected (-p)).amountUsed.toInt = s.amountUsed.toInt - p.toInt := by
  have hp := pos_iff_toInt.mp hp
  have hu := s.amountUsed.toInt_lt
  have hsum : (s.amountUsed + -p).toInt = s.amountUsed.toInt - p.toInt := by
    rw [Int64.toInt_add, toInt_neg_of_pos hp]
    apply Int.bmod_eq_of_le <;> omega
  have hnonneg : ¬ s.amountUsed + -p < 0 := by
    rw [Int64.lt_iff_toInt_lt]
    show ¬ _ < (0 : Int)
    omega
  unfold UserSubscription.corrected
  rw [if_neg hnonneg]
  exact hsum

/-- What is left is non-negative even when the sum wraps. -/
theorem toInt_corrected_nonneg (s : UserSubscription) (delta : Int64) :
    0 ≤ (s.corrected delta).amountUsed.toInt := by
  apply nonneg_iff_toInt.mp
  show 0 ≤ if s.amountUsed + delta < 0 then 0 else s.amountUsed + delta
  split
  · decide
  next h =>
    exact Int64.not_lt.mp h

/-- Taking back `p` lowers the used amount by `p` at most; the clamp at zero
makes it less. -/
theorem lowered_corrected_le (hp : 0 < p) :
    s.amountUsed.toInt - (s.corrected (-p)).amountUsed.toInt ≤ p.toInt := by
  by_cases hle : p.toInt ≤ s.amountUsed.toInt
  · have := toInt_corrected_of_le hp hle
    omega
  · have := toInt_corrected_nonneg s (-p)
    omega

theorem amountUsed_saveSubscription {s' : UserSubscription} {id : Int}
    (hs : db.userSubscriptions.find? id = some s) (hid : s'.id = s.id) :
    (db.saveSubscription s').amountUsed id = s'.amountUsed.toInt := by
  have hkey : id = s'.id := hid ▸ (Table.key_of_find? hs).symm
  show (((db.userSubscriptions.save s').find? id).map (·.amountUsed.toInt)).getD 0 = _
  rw [Table.find?_save, if_pos hkey, hs]
  rfl

/-! ### One attempt -/

/-- The record once its pre-consumption is refunded. -/
def SubscriptionPreConsumeRecord.refunded (r : SubscriptionPreConsumeRecord) : SubscriptionPreConsumeRecord :=
  { r with status := .refunded }

/-- An attempt on a record that is not refunded yet changes nothing, or it
corrects the used amount, and then the save of the record decides whether the
record shows it. -/
theorem refund_cases (env : RefundPreConsumeEnv) (hr : db.preConsumeRecords.find? requestId = some r)
    (hstatus : r.status = .consumed) (hpos : 0 < r.preConsumed) :
    (refundSubscriptionPreConsume env requestId db).2 = db ∨
      ∃ s, db.userSubscriptions.find? r.userSubscriptionId = some s ∧
        (env.lockOk = true ∧ env.post.lockOk = true ∧ env.post.saveOk = true) ∧
        refundSubscriptionPreConsume env requestId db
          = markRefunded env.saveOk r (db.saveSubscription (s.corrected (-r.preConsumed))) := by
  have hdelta : -r.preConsumed ≠ 0 := by
    intro h
    have := congrArg Int64.toInt h
    rw [toInt_neg_of_pos (pos_iff_toInt.mp hpos)] at this
    have := pos_iff_toInt.mp hpos
    simp_all
  unfold refundSubscriptionPreConsume
  split
  · exact Or.inl rfl
  split
  · exact Or.inl rfl
  rename_i _ hlock
  simp only [hr]
  rw [if_neg (by simp [hstatus]), if_neg (Int64.not_le.mpr hpos)]
  obtain ⟨e, he⟩ | ⟨s, hs, hplock, hpsave, he⟩ :=
    postConsume_cases env.post r.userSubscriptionId db hdelta
  · rw [he]
    exact Or.inl rfl
  · rw [he]
    exact Or.inr ⟨s, hs, ⟨by simpa using hlock, hplock, hpsave⟩, rfl⟩

theorem refund_of_refunded (hr : db.preConsumeRecords.find? requestId = some r)
    (hstatus : r.status = .refunded) : (refundSubscriptionPreConsume env requestId db).2 = db := by
  unfold refundSubscriptionPreConsume
  split
  · rfl
  split
  · rfl
  · simp only [hr, hstatus, if_true]

/-! ### Many attempts -/

variable (requestId : String)

/-- The store after one attempt. -/
def refundStep (db : DB) (env : RefundPreConsumeEnv) : DB :=
  (refundSubscriptionPreConsume env requestId db).2

/-- `refundWithRetry` around the refund: one attempt after the other, with the
answers in the list, until one succeeds or they are used up. -/
def retryRefund (requestId : String) : List RefundPreConsumeEnv → DB → Except Err Unit × DB
  | [], db => (.ok (), db)
  | [env], db => refundSubscriptionPreConsume env requestId db
  | env :: env' :: rest, db =>
    match refundSubscriptionPreConsume env requestId db with
    | (.ok u, db') => (.ok u, db')
    | (.error _, db') => retryRefund requestId (env' :: rest) db'

/-- The retries are a run of attempts. -/
theorem retryRefund_eq_exec (envs : List RefundPreConsumeEnv) (db : DB) :
    ∃ n, (retryRefund requestId envs db).2 = exec (refundStep requestId) db (envs.take n) := by
  induction envs generalizing db with
  | nil => exact ⟨0, rfl⟩
  | cons env rest ih =>
    cases rest with
    | nil => exact ⟨1, rfl⟩
    | cons =>
      rcases h : refundSubscriptionPreConsume env requestId db with ⟨e | u, db'⟩
      · obtain ⟨n, hn⟩ := ih db'
        refine ⟨n + 1, ?_⟩
        rw [take_succ_cons, exec_cons]
        simp only [retryRefund, refundStep, h]
        exact hn
      · refine ⟨1, ?_⟩
        simp only [retryRefund, h, take_succ_cons, take_zero, exec_cons, exec_nil, refundStep]

/-- If the attempt finds the record not refunded and the statements of the
correction go through, then so does the save of the record. -/
def MarkSucceeds (db : DB) (env : RefundPreConsumeEnv) : Prop :=
  ∀ r ∈ db.preConsumeRecords.find? requestId, r.status = .consumed →
    env.lockOk = true ∧ env.post.lockOk = true ∧ env.post.saveOk = true → env.saveOk = true
deriving Decidable

section Run

variable (requestId : String) (r : SubscriptionPreConsumeRecord) (used : Int)

/-- Either nothing has happened since the used amount was `used`, or the
record is refunded and the amount was lowered once. -/
def RefundedOnce (db : DB) : Prop :=
  (db.preConsumeRecords.find? requestId = some r ∧ db.amountUsed r.userSubscriptionId = used) ∨
    (db.preConsumeRecords.find? requestId = some r.refunded ∧
      used - db.amountUsed r.userSubscriptionId ≤ r.preConsumed.toInt ∧
      (r.preConsumed.toInt ≤ used →
        used - db.amountUsed r.userSubscriptionId = r.preConsumed.toInt))

variable {requestId r used}

theorem refundedOnce_step (hstatus : r.status = .consumed) (hpos : 0 < r.preConsumed)
    (hmark : MarkSucceeds requestId db env)
    (hdb : RefundedOnce requestId r used db) :
    RefundedOnce requestId r used (refundStep requestId db env) := by
  obtain ⟨hr, hused⟩ | hdone := hdb
  · obtain h | ⟨s, hs, hok, h⟩ := refund_cases env hr hstatus hpos
    · rw [refundStep, h]
      exact Or.inl ⟨hr, hused⟩
    -- the correction went through, so the record is marked with it
    have hsave : env.saveOk = true := hmark r hr hstatus hok
    have hkey : requestId = r.requestId := (Table.key_of_find? hr).symm
    have hold : used = s.amountUsed.toInt := by
      rw [← hused, DB.amountUsed, hs]
      rfl
    have hnew : (refundStep requestId db env).amountUsed r.userSubscriptionId
        = (s.corrected (-r.preConsumed)).amountUsed.toInt := by
      rw [refundStep, h, hsave]
      exact amountUsed_saveSubscription hs rfl
    right
    rw [hnew, hold]
    refine ⟨?_, lowered_corrected_le hpos, fun hle => ?_⟩
    · rw [refundStep, h, hsave]
      show (db.preConsumeRecords.save r.refunded).find? requestId = _
      rw [Table.find?_save, if_pos (show requestId = r.refunded.requestId from hkey), hr]
      rfl
    · have := toInt_corrected_of_le hpos hle
      omega
  · rw [refundStep, refund_of_refunded hdone.1 rfl]
    exact Or.inr hdone

/-- The used amount has gone down by the pre-consumed amount at most, and by exactly
that once the record is marked, if it was counted in at the start. -/
def SubscriptionPreConsumeRecord.Restores (r : SubscriptionPreConsumeRecord) (requestId : String)
    (db db' : DB) : Prop :=
  let lowered := db.amountUsed r.userSubscriptionId - db'.amountUsed r.userSubscriptionId
  lowered ≤ r.preConsumed.toInt ∧
    (r.preConsumed.toInt ≤ db.amountUsed r.userSubscriptionId →
      db'.preConsumeRecords.find? requestId = some r.refunded → lowered = r.preConsumed.toInt)

theorem restores_exec (hr : db.preConsumeRecords.find? requestId = some r) (hstatus : r.status = .consumed)
    (hpos : 0 < r.preConsumed) {attempts : List RefundPreConsumeEnv}
    (hmark : Along (refundStep requestId) (MarkSucceeds requestId) db attempts) :
    r.Restores requestId db (exec (refundStep requestId) db attempts) := by
  have hinv : RefundedOnce requestId r (db.amountUsed r.userSubscriptionId)
      (exec (refundStep requestId) db attempts) :=
    exec_inv_along (I := RefundedOnce requestId r _)
      (fun _ _ h hdb => refundedOnce_step hstatus hpos h hdb) (Or.inl ⟨hr, rfl⟩) hmark
  have hp := pos_iff_toInt.mp hpos
  obtain ⟨hr', hsame⟩ | ⟨-, hle, heq⟩ := hinv
  · refine ⟨by omega, fun _ h => ?_⟩
    -- the record still reads consumed
    rw [hr', Option.some.injEq] at h
    have := congrArg (·.status) h
    rw [hstatus] at this
    cases this
  · exact ⟨hle, fun hused _ => heq hused⟩

/-- **A refund restores the pre-consumed amount at most once**, however often it is
tried and whatever fails, in any run of attempts and in that of `refundWithRetry`,
provided no attempt fails to mark the record after it has corrected the amount.
(An amount that was reset below the pre-consumed one in the meantime is clamped
at zero.) -/
theorem refund_restores_at_most (hr : db.preConsumeRecords.find? requestId = some r)
    (hstatus : r.status = .consumed) (hpos : 0 < r.preConsumed) {attempts : List RefundPreConsumeEnv}
    (hmark : Along (refundStep requestId) (MarkSucceeds requestId) db attempts) :
    r.Restores requestId db (exec (refundStep requestId) db attempts) ∧
      r.Restores requestId db (retryRefund requestId attempts db).2 := by
  refine ⟨restores_exec hr hstatus hpos hmark, ?_⟩
  obtain ⟨n, hn⟩ := retryRefund_eq_exec requestId attempts db
  rw [← take_append_drop n attempts, along_append] at hmark
  rw [hn]
  exact restores_exec hr hstatus hpos hmark.1

end Run

/-- A request that took 40 of the 100 its subscription has used. -/
def demoPreConsume : SubscriptionPreConsumeRecord :=
  { requestId := "req", userId := 7, userSubscriptionId := 1, preConsumed := 40 }

def demoRefundDB : DB where
  userSubscriptions :=
    ⟨[{ id := 1, userId := 7, planId := 1, amountTotal := 500, amountUsed := 100,
        endTime := 9000 }], nodup_singleton _⟩
  preConsumeRecords := ⟨[demoPreConsume], nodup_singleton _⟩

/-- The first attempt cannot correct the amount, the second can. -/
theorem refund_restores_at_most_retried :
    let attempts : List RefundPreConsumeEnv := [{ post := { saveOk := false } }, {}]
    demoPreConsume.Restores "req" demoRefundDB (exec (refundStep "req") demoRefundDB attempts) ∧
      demoPreConsume.Restores "req" demoRefundDB (retryRefund "req" attempts demoRefundDB).2 ∧
      demoRefundDB.amountUsed 1 - (retryRefund "req" attempts demoRefundDB).2.amountUsed 1 = 40 := by
  intro attempts
  have hmark : Along (refundStep "req") (MarkSucceeds "req") demoRefundDB attempts := by decide +kernel
  obtain ⟨hrun, hretry⟩ := refund_restores_at_most (r := demoPreConsume) (by decide +kernel) rfl
    (by decide) hmark
  exact ⟨hrun, hretry, by decide +kernel⟩

/-- The first attempt corrects the amount and fails to save the record; the
second corrects it again. -/
theorem refund_restores_twice :
    let db' := exec (refundStep "req") demoRefundDB [{ saveOk := false }, {}]
    db'.preConsumeRecords.find? "req" = some demoPreConsume.refunded ∧
      demoRefundDB.amountUsed 1 - db'.amountUsed 1 = 80 ∧ demoPreConsume.preConsumed.toInt = 40 := by
  decide +kernel

end MicrossApi
