/-
MicrossApi/CommissionSettlement.lean

Commissions of settled requests.  `PostTextConsumeQuota`
(service/text_quota.go) calls `ProcessCommission` once for every settled text
request, always with consume log id 0, and `commission_records` has a unique
index whose only column is that id (model/commission.go).  So the table takes
one record and refuses every later one: `settleCommission` pays the first
settlement of a run and no other (`records_run`).

One commission per request therefore holds exactly for runs with at most one
distinct request (`one_commission_per_request_iff`).  What does hold in every
run is the other half of the property: the wallets agree with the records.
-/
import Mathlib.Data.List.Dedup
import MicrossApi.CommissionMargin

namespace MicrossApi

open StepSystem

variable (newFromString : String → Option ℚ) {db : DB}

/-! ### Settlements -/

/-- One execution of the settlement of a request: who made it, what it was
charged, the channel it went over, the operator's rate at that moment, and
what the database answers. -/
structure Settlement where
  requestId : String
  userId : Int
  quota : Int
  channelId : Int
  channel : Option (Option String)
  rate : String
  env : CommissionEnv

/-- The margin passed to `ProcessCommission`. -/
def Settlement.margin (s : Settlement) : Int :=
  calculateCommissionMargin newFromString s.quota s.channelId s.channel

/-- The consume log id passed to `ProcessCommission`. -/
def placeholderLogId : Int := 0

/-- The commission part of `PostTextConsumeQuota`. -/
def settleCommission (db : DB) (s : Settlement) : DB :=
  (processCommission newFromString s.env s.rate placeholderLogId s.userId s.quota
    (s.margin newFromString) db).2

/-- The settlement earns a commission: its user has an inviter, who is not
flagged; commissions are switched on; the capped amount is not zero; and the
database is willing, with a fresh id at hand. -/
structure EarnsCommission (db : DB) (s : Settlement) : Prop where
  user : s.userId ≠ 0
  inviter : ∃ u w, db.users.find? s.userId = some u ∧ 0 < u.inviterId ∧
    db.users.find? u.inviterId = some w ∧ inviterFlagged db u.inviterId = false
  enabled : s.rate ≠ "" ∧ s.rate ≠ "0" ∧ s.rate ≠ "0.000000"
  charged : 0 ≤ s.quota
  amount : cappedCommission newFromString s.quota s.rate (s.margin newFromString) ≠ 0
  fresh : ∃ id, s.env.create = some id ∧ 0 < id ∧ db.commissionRecords.find? id = none
  statements : s.env.walletOk = true ∧ s.env.balanceOk = true ∧ s.env.ledgerOk = true

/-- An amount that survives the cap comes from a raw amount and a rate. -/
theorem raw_of_cappedCommission {gross margin : Int} {rate : String} (hgross : 0 ≤ gross)
    (h : cappedCommission newFromString gross rate margin ≠ 0) :
    calculateCommission newFromString gross rate ≠ 0 ∧ ∃ ρ, newFromString rate = some ρ := by
  have hraw : calculateCommission newFromString gross rate ≠ 0 := by
    intro hzero
    apply h
    exact cappedCommission_of_raw_zero newFromString hgross hzero
  exact ⟨hraw, exists_rate_of_raw newFromString hraw⟩

/-! ### One record, ever -/

theorem EarnsCommission.first {s : Settlement} (h : EarnsCommission newFromString db s)
    (hempty : db.commissionRecords.rows = []) :
    ∃ r, (settleCommission newFromString db s).commissionRecords.rows = [r] ∧
      r.consumeLogId = placeholderLogId := by
  obtain ⟨hraw, ρ, hρ⟩ := raw_of_cappedCommission newFromString h.charged h.amount
  obtain ⟨id, hcreate, hid, hfree⟩ := h.fresh
  have hgo : CommissionGoesThrough newFromString s.env s.rate placeholderLogId s.userId ρ db :=
    ⟨h.user, h.inviter, h.enabled, hρ, ⟨id, hcreate, hid, hfree, by simp [hempty]⟩, h.statements⟩
  obtain ⟨created, hp, -, hlog, -, hnew⟩ := hgo.commits newFromString hraw (s.margin newFromString)
  have hbooks := processCommission_books newFromString db s.env s.rate placeholderLogId s.userId
    s.quota (s.margin newFromString)
  rw [hp, Option.elim_some] at hbooks
  refine ⟨created, ?_, hlog⟩
  show (processCommission newFromString s.env s.rate placeholderLogId s.userId s.quota
    (s.margin newFromString) db).2.commissionRecords.rows = _
  rw [hbooks.2.1, records_booked, Table.rows_insert hnew, hempty]
  rfl

theorem records_run (hempty : db.commissionRecords.rows = []) {ss : List Settlement}
    (hall : Along (settleCommission newFromString) (EarnsCommission newFromString) db ss) :
    (exec (settleCommission newFromString) db ss).commissionRecords.rows.length
      = if ss = [] then 0 else 1 := by
  cases ss with
  | nil => simp [hempty]
  | cons s ss =>
    obtain ⟨hearns, -⟩ := hall
    obtain ⟨r, hrows, hlog⟩ := hearns.first newFromString hempty
    have hkeep : (exec (settleCommission newFromString) (settleCommission newFromString db s)
        ss).commissionRecords.rows = [r] := by
      refine exec_inv (I := fun db' : DB => db'.commissionRecords.rows = [r]) ?_ hrows ss
      intro db' s' h'
      have hsame : db'.SameBooks (settleCommission newFromString db' s') :=
        processCommission_of_taken newFromString s'.env ⟨r, by rw [h']; exact List.mem_singleton_self r, hlog⟩
      rw [hsame.2.1, h']
    rw [exec_cons, hkeep]
    rfl

/-! ### One commission per request -/

/-- After the settlements `ss` from `db₀`, there is one record for each
distinct request, and every wallet has received the records of its user. -/
def OneCommissionPerRequest (db₀ db : DB) (ss : List Settlement) : Prop :=
  db.commissionRecords.rows.length = (ss.map (·.requestId)).dedup.length ∧
    ∀ u row₀, db₀.users.find? u = some row₀ →
      ∃ row, db.users.find? u = some row ∧
        row.affCommissionBalance = row₀.affCommissionBalance + liveCommission db u

/-- **One commission per request, exactly for one request.**  From a store
without commission records, over any run of settlements that each earn a
commission: there is one record per distinct request if and only if the run
has at most one distinct request. -/
theorem one_commission_per_request_iff (db₀ : DB) (h₀ : db₀.commissionRecords.rows = [])
    (ss : List Settlement)
    (hall : Along (settleCommission newFromString) (EarnsCommission newFromString) db₀ ss) :
    OneCommissionPerRequest db₀ (exec (settleCommission newFromString) db₀ ss) ss ↔
      (ss.map (·.requestId)).dedup.length ≤ 1 := by
  have hcount := records_run newFromString h₀ hall
  have hbal : Balanced db₀ (exec (settleCommission newFromString) db₀ ss) := by
    refine exec_inv (I := Balanced db₀) ?_ (Balanced.init h₀) ss
    intro db s h
    exact h.step newFromString (.process s.env s.rate placeholderLogId s.userId s.quota
      (s.margin newFromString))
  have hwallet : ∀ u row₀, db₀.users.find? u = some row₀ →
      ∃ row, (exec (settleCommission newFromString) db₀ ss).users.find? u = some row ∧
        row.affCommissionBalance = row₀.affCommissionBalance
          + liveCommission (exec (settleCommission newFromString) db₀ ss) u := by
    intro u row₀ hrow
    have hw := hbal.wallet u
    rw [hrow] at hw
    exact ⟨_, hw, rfl⟩
  -- what is left is a comparison of the two counts
  have hiff : OneCommissionPerRequest db₀ (exec (settleCommission newFromString) db₀ ss) ss ↔
      (if ss = [] then 0 else 1) = (ss.map (·.requestId)).dedup.length := by
    rw [OneCommissionPerRequest, hcount]
    exact ⟨And.left, fun h => ⟨h, hwallet⟩⟩
  rw [hiff]
  cases ss with
  | nil => simp
  | cons s ss =>
    have hpos : 0 < ((s :: ss).map (·.requestId)).dedup.length := by
      rw [List.length_pos_iff]
      intro hnil
      have hmem : s.requestId ∈ ((s :: ss).map (·.requestId)).dedup := by simp
      rw [hnil] at hmem
      cases hmem
    rw [if_neg (List.cons_ne_nil s ss)]
    omega

/-- A request of user 2, charged 1000 over a channel bought at half price. -/
def settlementOf (requestId : String) (recordId : Int) : Settlement :=
  { requestId, userId := 2, quota := 1000, channelId := 3, channel := some (some "0.5")
    rate := "0.1", env := { create := some recordId } }

theorem earnsCommission_settlementOf {requestId : String} {recordId : Int}
    (hid : 0 < recordId) (hfree : db.commissionRecords.find? recordId = none)
    (hinviter : ∃ u w, db.users.find? 2 = some u ∧ 0 < u.inviterId ∧
      db.users.find? u.inviterId = some w ∧ inviterFlagged db u.inviterId = false) :
    EarnsCommission twoDecimals db (settlementOf requestId recordId) where
  user := show (2 : Int) ≠ 0 by decide
  inviter := hinviter
  enabled := show "0.1" ≠ "" ∧ "0.1" ≠ "0" ∧ "0.1" ≠ "0.000000" by decide
  charged := show (0 : Int) ≤ 1000 by decide
  amount := show cappedCommission twoDecimals 1000 "0.1"
    (calculateCommissionMargin twoDecimals 1000 3 (some (some "0.5"))) ≠ 0 by decide +kernel
  fresh := ⟨recordId, rfl, hid, hfree⟩
  statements := ⟨rfl, rfl, rfl⟩

/-- One request whose settlement is executed twice. -/
theorem one_commission_per_request_iff_retried : OneCommissionPerRequest invitedPair
      (exec (settleCommission twoDecimals) invitedPair [settlementOf "a" 1, settlementOf "a" 2])
      [settlementOf "a" 1, settlementOf "a" 2] := by
  have hall : Along (settleCommission twoDecimals) (EarnsCommission twoDecimals) invitedPair
      [settlementOf "a" 1, settlementOf "a" 2] := by
    refine ⟨earnsCommission_settlementOf (by decide) (by decide) ?_,
      earnsCommission_settlementOf (by decide) (by decide +kernel) ?_, trivial⟩
    · exact ⟨_, _, rfl, by decide, rfl, by decide +kernel⟩
    · exact ⟨{ id := 2, inviterId := 1 }, { id := 1, affCommissionBalance := 130 },
        by decide +kernel, by decide, by decide +kernel, by decide +kernel⟩
  exact (one_commission_per_request_iff twoDecimals invitedPair rfl _ hall).mpr (by decide)

/-- Two distinct requests of one user leave a single record, so the second one
is not paid. -/
theorem second_request_unpaid : Along (settleCommission twoDecimals) (EarnsCommission twoDecimals) invitedPair
        [settlementOf "a" 1, settlementOf "b" 2] ∧ (exec (settleCommission twoDecimals) invitedPair
        [settlementOf "a" 1, settlementOf "b" 2]).commissionRecords.rows.length = 1 ∧
      ¬ OneCommissionPerRequest invitedPair
        (exec (settleCommission twoDecimals) invitedPair [settlementOf "a" 1, settlementOf "b" 2])
        [settlementOf "a" 1, settlementOf "b" 2] := by
  have hone : (exec (settleCommission twoDecimals) invitedPair
      [settlementOf "a" 1, settlementOf "b" 2]).commissionRecords.rows.length = 1 := by
    decide +kernel
  refine ⟨⟨earnsCommission_settlementOf (by decide) (by decide) ?_,
      earnsCommission_settlementOf (by decide) (by decide +kernel) ?_, trivial⟩, hone, ?_⟩
  · exact ⟨_, _, rfl, by decide, rfl, by decide +kernel⟩
  · exact ⟨{ id := 2, inviterId := 1 }, { id := 1, affCommissionBalance := 130 },
      by decide +kernel, by decide, by decide +kernel, by decide +kernel⟩
  · rintro ⟨hcount, -⟩
    rw [hone] at hcount
    exact absurd hcount (by decide)

end MicrossApi
