/-
MicrossApi/CommissionMargin.lean

The margin a commission is capped by.  `calculateCommissionMargin`
(service/text_quota.go) takes `(1 - r) · q` for the profit of a request, `q`
being the charged quota and `r` the channel's cost ratio.  But `r` is a
fraction of the official price `L`, not of the charged quota: the routing
filter compares it with the sell discount `s` (model/channel_cost_filter.go,
`LossRatio = r - s`), so the upstream cost is `L · r` and the profit is
`q - L · r`.  The two agree for `s = 1` only.

`commission_within_profit_iff` says exactly when the commission nevertheless
stays within the profit.
-/
import MicrossApi.CommissionBooks

namespace MicrossApi

open Rounding

variable (newFromString : String → Option ℚ) {r : ℚ} {rate : String} {inviteeId gross : Int}
  {db : DB} {margin : Int} {env : CommissionEnv} {consumeLogId : Int} {ρ : ℚ}

/-! ### The margin -/

/-- `calculateCommissionMargin`.  `channel` is what `CacheGetChannel` answers:
nothing, or the channel with its cost ratio if one was entered. -/
def calculateCommissionMargin (quota channelId : Int) (channel : Option (Option String)) : Int :=
  if quota ≤ 0 then 0
  else if channelId ≤ 0 then 0
  else
    match channel with
    | none => 0
    | some none => 0
    | some (some text) =>
      let raw := trimSpace text
      if raw = "" then 0
      else
        match newFromString raw with
        | none => 0
        | some costRatio =>
          if costRatio ≤ 0 then 0
          else if 1 < costRatio then 0
          else
            let margin := (1 - costRatio) * quota
            if margin < 0 then 0 else roundHalfAway margin

/-- The margin of a channel with cost ratio `r`. -/
def marginOf (quota : Int) (r : ℚ) : Int :=
  if 1 < r then 0 else roundHalfAway ((1 - r) * quota)

theorem calculateCommissionMargin_eq {quota channelId : Int} {text : String}
    (hq : 0 ≤ quota) (hchannel : 0 < channelId) (htext : trimSpace text ≠ "")
    (hparse : newFromString (trimSpace text) = some r) (hr : 0 < r) :
    calculateCommissionMargin newFromString quota channelId (some (some text)) = marginOf quota r := by
  rcases hq.eq_or_lt with rfl | hpos
  · simp [calculateCommissionMargin, marginOf]
  by_cases hone : 1 < r
  · simp [calculateCommissionMargin, marginOf, hparse, hone]
  have hmargin : ¬ (1 - r) * (quota : ℚ) < 0 := by
    have h1 : 0 ≤ 1 - r := by linarith
    have h2 : (0 : ℚ) ≤ quota := by exact_mod_cast hq
    exact not_lt.mpr (mul_nonneg h1 h2)
  simp [calculateCommissionMargin, marginOf, not_le.mpr hpos, not_le.mpr hchannel, htext,
    hparse, not_le.mpr hr, hmargin]

/-! ### The credited amount -/

/-- What `ProcessCommission` adds to the commission wallet of the invitee's
inviter. -/
def commissionCredited (env : CommissionEnv) (rate : String)
    (consumeLogId inviteeId gross margin : Int) (db : DB) : Int :=
  match db.users.find? inviteeId with
  | none => 0
  | some invitee =>
    (processCommission newFromString env rate consumeLogId inviteeId gross margin db).2.userColumn
        invitee.inviterId (·.affCommissionBalance)
      - db.userColumn invitee.inviterId (·.affCommissionBalance)

/-- Everything but the amount lets the commission through: the invitee has an
inviter, whose row exists and who is not flagged; the operator has switched
commissions on, at rate `ρ`; the database accepts the record and every
statement. -/
structure CommissionGoesThrough (env : CommissionEnv) (rate : String)
    (consumeLogId inviteeId : Int) (ρ : ℚ) (db : DB) : Prop where
  invitee : inviteeId ≠ 0
  inviter : ∃ u w, db.users.find? inviteeId = some u ∧ 0 < u.inviterId ∧
    db.users.find? u.inviterId = some w ∧ inviterFlagged db u.inviterId = false
  enabled : rate ≠ "" ∧ rate ≠ "0" ∧ rate ≠ "0.000000"
  parsed : newFromString rate = some ρ
  accepted : ∃ id, env.create = some id ∧ 0 < id ∧ db.commissionRecords.find? id = none ∧
    ∀ x ∈ db.commissionRecords.rows, x.consumeLogId ≠ consumeLogId
  statements : env.walletOk = true ∧ env.balanceOk = true ∧ env.ledgerOk = true

/-- The amount after the cap. -/
def cappedCommission (gross : Int) (rate : String) (margin : Int) : Int :=
  (assertNoLoss (calculateCommission newFromString gross rate) margin).1

theorem commissionInviter_eq_some {inviterId : Int}
    (h : commissionInviter newFromString rate inviteeId gross db = some inviterId) :
    inviteeId ≠ 0 ∧ (∃ u, db.users.find? inviteeId = some u ∧ u.inviterId = inviterId) ∧
      (rate ≠ "" ∧ rate ≠ "0" ∧ rate ≠ "0.000000") ∧ calculateCommission newFromString gross rate ≠ 0 := by
  unfold commissionInviter at h
  split at h
  · cases h
  rename_i hid
  split at h
  · cases h
  rename_i u hu
  split at h
  · cases h
  split at h
  · cases h
  rename_i hrate
  simp only [not_or] at hrate
  split at h
  · cases h
  rename_i hraw
  cases h
  exact ⟨hid, ⟨u, hu, rfl⟩, hrate, hraw⟩

/-- The wallet moves by the amount of the committed record, if the inviter's
row exists. -/
theorem commissionCredited_eq (env : CommissionEnv) (rate : String)
    (consumeLogId inviteeId gross margin : Int) (db : DB) :
    commissionCredited newFromString env rate consumeLogId inviteeId gross margin db
      = (paidRecord newFromString env rate consumeLogId inviteeId gross margin db).elim 0 fun c =>
          if (db.users.find? c.inviterId).isSome then c.amount else 0 := by
  have hbooks := processCommission_books newFromString db env rate consumeLogId inviteeId gross margin
  have husers := hbooks.1
  unfold commissionCredited
  rcases hp : paidRecord newFromString env rate consumeLogId inviteeId gross margin db
    with - | created
  · -- nothing is booked, the users are untouched
    rw [hp] at husers
    rcases hu : db.users.find? inviteeId with - | invitee
    · rfl
    · simp only [DB.userColumn, husers, Option.elim_none, sub_self]
  · rw [hp, Option.elim_some, users_booked] at husers
    obtain ⟨inviterId, hi, hc, -⟩ := paidRecord_eq_some newFromString hp
    obtain ⟨-, ⟨invitee, hinvitee, hinv⟩, -⟩ := commissionInviter_eq_some newFromString hi
    obtain ⟨id, -, -, hcreated, -⟩ := createCommissionRecord_eq_some hc
    have hinv' : invitee.inviterId = created.inviterId := by
      rw [hcreated]
      exact hinv
    simp only [hinvitee, DB.userColumn, husers, Option.elim_some, hinv', Table.find?_modify]
    rcases db.users.find? created.inviterId with - | w
    · rfl
    · simp

/-- A capped amount is never negative. -/
theorem cappedCommission_nonneg (rate : String) (hgross : 0 ≤ gross) :
    0 ≤ cappedCommission newFromString gross rate margin := by
  have hraw : 0 ≤ calculateCommission newFromString gross rate := by
    unfold calculateCommission
    split
    · exact le_rfl
    split
    · exact le_rfl
    split
    next hpos =>
      have hg : (0 : ℚ) ≤ gross := by exact_mod_cast hgross
      exact roundHalfAway_nonneg (mul_nonneg hg hpos.le)
    · exact le_rfl
  unfold cappedCommission assertNoLoss
  split
  · exact le_rfl
  rename_i hm
  dsimp only
  split
  · have hm' : (0 : ℚ) ≤ margin := by exact_mod_cast (not_le.mp hm).le
    exact roundHalfAway_nonneg (mul_nonneg hm' (by norm_num))
  · exact hraw

theorem exists_rate_of_raw
    (hraw : calculateCommission newFromString gross rate ≠ 0) : ∃ ρ, newFromString rate = some ρ := by
  rcases hr : newFromString rate with - | ρ
  · exfalso
    apply hraw
    simp [calculateCommission, hr]
  · exact ⟨ρ, rfl⟩

theorem cappedCommission_of_raw_zero (hgross : 0 ≤ gross)
    (hraw : calculateCommission newFromString gross rate = 0) :
    cappedCommission newFromString gross rate margin = 0 := by
  refine le_antisymm ?_ (cappedCommission_nonneg newFromString rate hgross)
  unfold cappedCommission assertNoLoss
  rw [hraw]
  split
  · exact le_rfl
  dsimp only
  split
  next hcap =>
    exact hcap.le
  · exact le_rfl

theorem CommissionGoesThrough.commits
    (h : CommissionGoesThrough newFromString env rate consumeLogId inviteeId ρ db)
    (hraw : calculateCommission newFromString gross rate ≠ 0) (margin : Int) : ∃ created,
      paidRecord newFromString env rate consumeLogId inviteeId gross margin db = some created ∧
      created.amount = cappedCommission newFromString gross rate margin ∧
      created.consumeLogId = consumeLogId ∧ (db.users.find? created.inviterId).isSome ∧
      db.commissionRecords.find? created.id = none := by
  obtain ⟨u, w, hu, hinv, hw, hflag⟩ := h.inviter
  obtain ⟨id, hcreate, hid, hfree, hlog⟩ := h.accepted
  obtain ⟨hr1, hr2, hr3⟩ := h.enabled
  obtain ⟨hwallet, hbalance, hledger⟩ := h.statements
  have hsome : commissionInviter newFromString rate inviteeId gross db = some u.inviterId := by
    simp [commissionInviter, h.invitee, hu, ne_of_gt hinv, hr1, hr2, hr3, hraw]
  have hcreated : ∀ r : CommissionRecord, r.consumeLogId = consumeLogId →
      createCommissionRecord db env.create r = some { r with id := id } := by
    intro r hr
    have hany : db.commissionRecords.rows.any (fun x => x.consumeLogId = r.consumeLogId)
        = false := by
      simpa [hr] using hlog
    simp [createCommissionRecord, hcreate, not_le.mpr hid, hfree, hany]
  simp only [paidRecord, hsome]
  rw [hcreated _ rfl]
  dsimp only
  rw [if_pos ⟨hwallet, fun _ => ⟨hbalance, hinv, hledger⟩⟩]
  refine ⟨_, rfl, ?_, rfl, ?_, hfree⟩
  · show (commissionVerdict db u.inviterId (calculateCommission newFromString gross rate)
      margin).1 = _
    rw [commissionVerdict, hflag]
    rfl
  · show (db.users.find? u.inviterId).isSome
    rw [hw]
    rfl

theorem CommissionGoesThrough.credited
    (h : CommissionGoesThrough newFromString env rate consumeLogId inviteeId ρ db) (hgross : 0 ≤ gross) :
    commissionCredited newFromString env rate consumeLogId inviteeId gross margin db
      = cappedCommission newFromString gross rate margin := by
  rw [commissionCredited_eq]
  by_cases hraw : calculateCommission newFromString gross rate = 0
  · -- a raw amount of zero ends the call early
    obtain ⟨u, w, hu, hinv, -⟩ := h.inviter
    have hnone : commissionInviter newFromString rate inviteeId gross db = none := by
      simp [commissionInviter, hu, hraw]
    simp [paidRecord, hnone, cappedCommission_of_raw_zero newFromString hgross hraw]
  · obtain ⟨created, hp, hamount, -, hw, -⟩ := h.commits newFromString hraw margin
    rw [hp, Option.elim_some, if_pos hw, hamount]

theorem CommissionGoesThrough.of_credited
    (h : commissionCredited newFromString env rate consumeLogId inviteeId gross margin db ≠ 0) :
    ∃ ρ, CommissionGoesThrough newFromString env rate consumeLogId inviteeId ρ db := by
  rw [commissionCredited_eq] at h
  rcases hp : paidRecord newFromString env rate consumeLogId inviteeId gross margin db
    with - | created
  · rw [hp] at h
    exact absurd rfl h
  rw [hp, Option.elim_some] at h
  obtain ⟨inviterId, hi, hc, hwallet, hrest⟩ := paidRecord_eq_some newFromString hp
  obtain ⟨hinvitee, ⟨u, hu, rfl⟩, hrate, hraw⟩ := commissionInviter_eq_some newFromString hi
  obtain ⟨id, hcreate, hid, rfl, hfree, hlog⟩ := createCommissionRecord_eq_some hc
  split at h
  next hsome =>
    obtain ⟨w, hw⟩ := Option.isSome_iff_exists.mp hsome
    obtain ⟨hbalance, hinv, hledger⟩ := hrest h
    have hflag : inviterFlagged db u.inviterId = false := by
      by_contra hne
      have htrue : inviterFlagged db u.inviterId = true := by simpa using hne
      apply h
      show (commissionVerdict db u.inviterId _ margin).1 = 0
      rw [commissionVerdict, htrue, if_pos rfl]
    obtain ⟨ρ, hρ⟩ := exists_rate_of_raw newFromString hraw
    exact ⟨ρ, hinvitee, ⟨u, w, hu, hinv, hw, hflag⟩, hrate, hρ, ⟨id, hcreate, hid, hfree, hlog⟩,
      hwallet, hbalance, hledger⟩
  · exact absurd rfl h

/-! ### When the cap is enough -/

variable {gross n : Int}

theorem calculateCommission_le_iff (hgross : 0 ≤ gross)
    (hn : 0 ≤ n) (hrate : rate ≠ "") (hρ : newFromString rate = some ρ) :
    calculateCommission newFromString gross rate ≤ n ↔ gross * ρ < (n : ℚ) + 1 / 2 := by
  have hg : (0 : ℚ) ≤ gross := by exact_mod_cast hgross
  have hn' : (0 : ℚ) ≤ n := by exact_mod_cast hn
  unfold calculateCommission
  rcases hgross.eq_or_lt with rfl | hpos
  · simp only [true_or, if_true, hn, true_iff]
    linarith
  simp only [ne_of_gt hpos, hrate, or_self, if_false, hρ]
  split
  next hρpos =>
    exact roundHalfAway_le_iff (mul_nonneg hg hρpos.le) n
  rename_i hρpos
  have : gross * ρ ≤ 0 := mul_nonpos_of_nonneg_of_nonpos hg (not_lt.mp hρpos)
  simp only [hn, true_iff]
  linarith

/-- Four fifths of the margin round to at most `n` exactly when the margin
itself is below `(5n + 2) / 4 + 1/2` before its own rounding. -/
theorem cap_le_iff (hgross : 0 ≤ gross) (hr : r ≤ 1) :
    roundHalfAway ((roundHalfAway ((1 - r) * gross) : ℚ) * (4 / 5)) ≤ n ↔
      (1 - r) * gross < (((5 * n + 2) / 4 : Int) : ℚ) + 1 / 2 := by
  have hg : (0 : ℚ) ≤ gross := by exact_mod_cast hgross
  have hmargin : 0 ≤ (1 - r) * (gross : ℚ) := mul_nonneg (by linarith) hg
  have hm := roundHalfAway_nonneg hmargin
  have hm' : (0 : ℚ) ≤ roundHalfAway ((1 - r) * gross) := by exact_mod_cast hm
  rw [roundHalfAway_le_iff (mul_nonneg hm' (by norm_num)), ← roundHalfAway_le_iff hmargin]
  generalize roundHalfAway ((1 - r) * gross) = m
  -- both sides are statements about integers now
  have hint : (m : ℚ) * (4 / 5) < (n : ℚ) + 1 / 2 ↔ 8 * m < 10 * n + 5 := by
    rw [← @Int.cast_lt ℚ]
    push_cast
    constructor <;> intro h <;> linarith
  rw [hint]
  omega

/-- The capped commission of a request is at most `n` exactly when the channel
costs more than the official price, or the rate is low enough, or the margin
is. -/
theorem cappedCommission_le_iff (hgross : 0 ≤ gross)
    (hn : 0 ≤ n) (hrate : rate ≠ "") (hρ : newFromString rate = some ρ) :
    cappedCommission newFromString gross rate (marginOf gross r) ≤ n ↔ 1 < r ∨ gross * ρ < (n : ℚ) + 1 / 2 ∨
        (1 - r) * gross < (((5 * n + 2) / 4 : Int) : ℚ) + 1 / 2 := by
  by_cases hr : 1 < r
  · have hzero : cappedCommission newFromString gross rate (marginOf gross r) = 0 := by
      simp [cappedCommission, assertNoLoss, marginOf, hr]
    rw [hzero]
    exact ⟨fun _ => Or.inl hr, fun _ => hn⟩
  rw [← calculateCommission_le_iff newFromString hgross hn hrate hρ,
    ← cap_le_iff hgross (not_lt.mp hr)]
  simp only [hr, false_or]
  unfold cappedCommission assertNoLoss marginOf
  rw [if_neg hr]
  split
  · -- no margin at all: the cap is zero, and so is the commission
    rename_i hm
    have hg : (0 : ℚ) ≤ gross := by exact_mod_cast hgross
    have hm0 : roundHalfAway ((1 - r) * gross) = 0 :=
      le_antisymm hm (roundHalfAway_nonneg (mul_nonneg (by linarith) hg))
    simp [hm0, hn]
  · dsimp only
    split
    next hcap =>
      refine ⟨Or.inr, ?_⟩
      rintro (hraw | hle)
      · exact (hcap.le).trans hraw
      · exact hle
    next hcap =>
      refine ⟨Or.inl, ?_⟩
      rintro (hraw | hle)
      · exact hraw
      · exact (not_lt.mp hcap).trans hle

/-! ### Commission and profit -/

/-- The charged quota of a request with official price `L` and discount `s`. -/
def chargedQuota (L s : ℚ) : Int := roundHalfAway (L * s)

/-- The real profit of the request: what is charged minus what the platform
pays, `r` being a fraction of the official price. -/
def realProfit (L s r : ℚ) : ℚ := chargedQuota L s - L * r

/-- An amount is within the profit: at most the profit if there is one, and
zero if there is none. -/
def WithinProfit (amount : Int) (profit : ℚ) : Prop :=
  (0 < profit → (amount : ℚ) ≤ profit) ∧ (profit ≤ 0 → amount = 0)

/-- The largest integer commission the profit allows. -/
def allowance (L s r : ℚ) : Int := ⌊max 0 (realProfit L s r)⌋

theorem withinProfit_iff {amount : Int} (h : 0 ≤ amount) (L s r : ℚ) :
    WithinProfit amount (realProfit L s r) ↔ amount ≤ allowance L s r := by
  rw [allowance, Int.le_floor, le_max_iff]
  have hz : (amount : ℚ) ≤ 0 ↔ amount = 0 := by
    rw [Int.cast_nonpos]
    omega
  rw [hz]
  rcases le_or_gt (realProfit L s r) 0 with hp | hp
  · refine ⟨fun hw => Or.inl (hw.2 hp), ?_⟩
    rintro (hzero | hle)
    · exact ⟨fun hpos => absurd hp (not_le.mpr hpos), fun _ => hzero⟩
    · exact ⟨fun hpos => absurd hp (not_le.mpr hpos), fun _ => hz.mp (hle.trans hp)⟩
  · refine ⟨fun hw => Or.inr (hw.1 hp), ?_⟩
    rintro (hzero | hle)
    · rw [hzero]
      exact ⟨fun _ => hp.le, fun _ => rfl⟩
    · exact ⟨fun _ => hle, fun hle' => absurd hle' (not_le.mpr hp)⟩

theorem allowance_nonneg (L s r : ℚ) : 0 ≤ allowance L s r :=
  Int.floor_nonneg.mpr (le_max_left _ _)

/-- **When a commission stays within the profit.**  For every request with
official price `L`, discount `s` and cost ratio `r`, every rate and every
store: the commission `ProcessCommission` credits, given the margin
`calculateCommissionMargin` computes, is within the real profit exactly when
no commission goes through at all, or the channel costs more than the official
price (the margin is then zero), or the rate is so low that the raw commission
fits the allowance, or `(1 - r) · q` is so low that four fifths of it do. -/
theorem commission_within_profit_iff (env : CommissionEnv) (rate : String)
    (consumeLogId inviteeId channelId : Int) (text : String) (db : DB) (L s r : ℚ) (hL : 0 < L)
    (hs : 0 < s ∧ s ≤ 1) (hr : 0 < r) (hchannel : 0 < channelId) (htext : trimSpace text ≠ "")
    (hparse : newFromString (trimSpace text) = some r) : WithinProfit
        (commissionCredited newFromString env rate consumeLogId inviteeId (chargedQuota L s)
          (calculateCommissionMargin newFromString (chargedQuota L s) channelId (some (some text))) db)
        (realProfit L s r) ↔ ∀ ρ, CommissionGoesThrough newFromString env rate consumeLogId inviteeId ρ db →
        1 < r ∨ chargedQuota L s * ρ < (allowance L s r : ℚ) + 1 / 2 ∨
          (1 - r) * chargedQuota L s < (((5 * allowance L s r + 2) / 4 : Int) : ℚ) + 1 / 2 := by
  have hq : 0 ≤ chargedQuota L s := roundHalfAway_nonneg (mul_nonneg hL.le hs.1.le)
  have hn := allowance_nonneg L s r
  rw [calculateCommissionMargin_eq newFromString hq hchannel htext hparse hr]
  constructor
  · intro hwithin ρ hgo
    rw [hgo.credited newFromString hq] at hwithin
    rw [← cappedCommission_le_iff newFromString hq hn hgo.enabled.1 hgo.parsed]
    exact (withinProfit_iff (cappedCommission_nonneg newFromString rate hq) L s r).mp hwithin
  · intro hcond
    by_cases hzero : commissionCredited newFromString env rate consumeLogId inviteeId
        (chargedQuota L s) (marginOf (chargedQuota L s) r) db = 0
    · rw [hzero, withinProfit_iff le_rfl]
      exact hn
    obtain ⟨ρ, hgo⟩ := CommissionGoesThrough.of_credited newFromString hzero
    rw [hgo.credited newFromString hq,
      withinProfit_iff (cappedCommission_nonneg newFromString rate hq),
      cappedCommission_le_iff newFromString hq hn hgo.enabled.1 hgo.parsed]
    exact hcond ρ hgo

/-- Decimals as the library reads them, for two texts. -/
def twoDecimals (t : String) : Option ℚ :=
  if t = "0.5" then some (1 / 2) else if t = "0.1" then some (1 / 10) else none

/-- At full price the margin is the profit, and the commission fits. -/
theorem commission_within_profit_iff_fullPrice :
    commissionCredited twoDecimals { create := some 1 } "0.1" 7 2 (chargedQuota 1000 1)
        (calculateCommissionMargin twoDecimals (chargedQuota 1000 1) 3 (some (some " 0.5 ")))
        invitedPair = 100 ∧
      WithinProfit
        (commissionCredited twoDecimals { create := some 1 } "0.1" 7 2 (chargedQuota 1000 1)
          (calculateCommissionMargin twoDecimals (chargedQuota 1000 1) 3 (some (some " 0.5 ")))
          invitedPair)
        (realProfit 1000 1 (1 / 2)) := by
  refine ⟨by decide +kernel, ?_⟩
  refine (commission_within_profit_iff twoDecimals { create := some 1 } "0.1" 7 2 3 " 0.5 "
    invitedPair 1000 1 (1 / 2) (by norm_num) (by norm_num) (by norm_num) (by norm_num)
    (by decide +kernel) (by decide +kernel)).mpr ?_
  intro ρ _
  right
  right
  decide +kernel

/-- A request sold at half price over a channel bought at half price makes no
profit, and yet a commission of 50 is credited for it. -/
theorem commission_exceeds_profit : realProfit 1000 (1 / 2) (1 / 2) = 0 ∧
      commissionCredited twoDecimals { create := some 1 } "0.1" 7 2 (chargedQuota 1000 (1 / 2))
        (calculateCommissionMargin twoDecimals (chargedQuota 1000 (1 / 2)) 3 (some (some "0.5")))
        invitedPair = 50 ∧
      ¬ WithinProfit
        (commissionCredited twoDecimals { create := some 1 } "0.1" 7 2 (chargedQuota 1000 (1 / 2))
          (calculateCommissionMargin twoDecimals (chargedQuota 1000 (1 / 2)) 3 (some (some "0.5")))
          invitedPair)
        (realProfit 1000 (1 / 2) (1 / 2)) := by
  have hprofit : realProfit 1000 (1 / 2) (1 / 2) = 0 := by decide +kernel
  have hcredited : commissionCredited twoDecimals { create := some 1 } "0.1" 7 2
      (chargedQuota 1000 (1 / 2))
      (calculateCommissionMargin twoDecimals (chargedQuota 1000 (1 / 2)) 3 (some (some "0.5")))
      invitedPair = 50 := by decide +kernel
  refine ⟨hprofit, hcredited, ?_⟩
  rw [hprofit, hcredited]
  rintro ⟨-, h⟩
  exact absurd (h le_rfl) (by decide)

/-! ### Commission and refund -/

theorem calculateCommission_neg (gross : Int) (rate : String) :
    calculateCommission newFromString (-gross) rate = -calculateCommission newFromString gross rate := by
  simp only [calculateCommission, neg_eq_zero, Int.cast_neg, neg_mul, roundHalfAway_neg]
  split
  · rfl
  rcases newFromString rate with - | ρ
  · rfl
  dsimp only
  split <;> rfl

/-- With a margin the cap leaves something of every raw amount. -/
theorem cappedCommission_ne_zero (hmargin : 0 < margin)
    (hraw : calculateCommission newFromString gross rate ≠ 0) :
    cappedCommission newFromString gross rate margin ≠ 0 := by
  have hm : (1 : ℚ) ≤ margin := by exact_mod_cast hmargin
  have hcap : ¬ roundHalfAway ((margin : ℚ) * (4 / 5)) ≤ 0 := by
    rw [roundHalfAway_le_iff (by linarith)]
    linarith
  unfold cappedCommission assertNoLoss
  rw [if_neg (not_le.mpr hmargin)]
  dsimp only
  split
  · exact fun hzero => hcap hzero.le
  · exact hraw

/-- **When a refund takes the commission back.**  A commission followed by the
same call with the opposite gross leaves the wallet of an unflagged inviter as
it was exactly when the first call had nothing to pay: commissions are off, the
raw amount rounds to zero, or the consumption has a record already.  What the
first call pays stays, since the index refuses the second record. -/
theorem commission_refund_iff (env' : CommissionEnv) (consumeLogId inviteeId margin id : Int) (db : DB)
    (u w : User) (hid : inviteeId ≠ 0) (hu : db.users.find? inviteeId = some u)
    (hinv : 0 < u.inviterId) (hw : db.users.find? u.inviterId = some w)
    (hflag : inviterFlagged db u.inviterId = false) (hgross : 0 < gross) (hmargin : 0 < margin)
    (hfree : env.create = some id ∧ 0 < id ∧ db.commissionRecords.find? id = none)
    (hok : env.walletOk = true ∧ env.balanceOk = true ∧ env.ledgerOk = true) :
    (processCommission newFromString env' rate consumeLogId inviteeId (-gross) margin
        (processCommission newFromString env rate consumeLogId inviteeId gross margin db).2).2.userColumn
          u.inviterId (·.affCommissionBalance) = db.userColumn u.inviterId (·.affCommissionBalance) ↔
      (rate = "" ∨ rate = "0" ∨ rate = "0.000000") ∨ calculateCommission newFromString gross rate = 0 ∨
        ∃ r ∈ db.commissionRecords.rows, r.consumeLogId = consumeLogId := by
  set first := (processCommission newFromString env rate consumeLogId inviteeId gross margin db).2
    with hfirst
  have hrefused : (∃ r ∈ first.commissionRecords.rows, r.consumeLogId = consumeLogId) → first.SameBooks
      (processCommission newFromString env' rate consumeLogId inviteeId (-gross) margin first).2 :=
    processCommission_of_taken newFromString env'
  by_cases hlog : ∃ r ∈ db.commissionRecords.rows, r.consumeLogId = consumeLogId
  · -- the index refuses both calls
    have hsame : db.SameBooks first := processCommission_of_taken newFromString env hlog
    have hback := hrefused (by rwa [hsame.2.1])
    simp only [DB.userColumn, hback.1, hsame.1, hlog, or_true]
  by_cases hdue : (rate = "" ∨ rate = "0" ∨ rate = "0.000000") ∨
      calculateCommission newFromString gross rate = 0
  · -- neither call has an amount to pay
    have hnone : ∀ g, (rate = "" ∨ rate = "0" ∨ rate = "0.000000") ∨
        calculateCommission newFromString g rate = 0 →
        commissionInviter newFromString rate inviteeId g db = none := by
      intro g hg
      rcases hg with hg | hg <;> simp [commissionInviter, hu, hg]
    have hneg := hnone (-gross) (by rwa [calculateCommission_neg, neg_eq_zero])
    have hidle : first = db := by simp [hfirst, processCommission, hnone gross hdue]
    simp only [hidle, processCommission, hneg]
    tauto
  obtain ⟨hrate, hraw⟩ := not_or.mp hdue
  obtain ⟨ρ, hρ⟩ := exists_rate_of_raw newFromString hraw
  have hgo : CommissionGoesThrough newFromString env rate consumeLogId inviteeId ρ db :=
    ⟨hid, ⟨u, w, hu, hinv, hw, hflag⟩, by simpa using hrate, hρ,
      ⟨id, hfree.1, hfree.2.1, hfree.2.2, by simpa using hlog⟩, hok⟩
  obtain ⟨created, hp, -, hlog', -, hnew⟩ := hgo.commits newFromString hraw margin
  have hbooks := processCommission_books newFromString db env rate consumeLogId inviteeId gross margin
  rw [hp, Option.elim_some] at hbooks
  have hmem : created ∈ first.commissionRecords.rows := by
    rw [hbooks.2.1, records_booked, Table.rows_insert hnew]
    simp
  have hback := hrefused ⟨created, hmem, hlog'⟩
  have hcredited : commissionCredited newFromString env rate consumeLogId inviteeId gross margin db
      = cappedCommission newFromString gross rate margin := hgo.credited newFromString hgross.le
  have hpaid := cappedCommission_ne_zero newFromString hmargin hraw
  simp only [commissionCredited, hu] at hcredited
  have hcolumn : (processCommission newFromString env' rate consumeLogId inviteeId (-gross) margin
      first).2.userColumn u.inviterId (·.affCommissionBalance)
        = first.userColumn u.inviterId (·.affCommissionBalance) := by
    simp only [DB.userColumn, hback.1]
  simp only [hcolumn, hrate, hraw, hlog, or_self, iff_false]
  intro hkept
  rw [hkept, sub_self] at hcredited
  exact hpaid hcredited.symm

/-- A rate whose commission rounds to zero. -/
theorem commission_refund_iff_small : commissionCredited twoDecimals { create := some 1 } "0.1" 7 2 4 3
      invitedPair = 0 ∧
    (processCommission twoDecimals { create := some 2 } "0.1" 7 2 (-4) 3
      (processCommission twoDecimals { create := some 1 } "0.1" 7 2 4 3 invitedPair).2).2.userColumn 1
        (·.affCommissionBalance) = 30 :=
  ⟨by decide +kernel, (commission_refund_iff twoDecimals { create := some 2 } 7 2 3 1 invitedPair _ _
    (by decide) rfl (by decide) rfl (by decide +kernel) (by decide) (by decide) ⟨rfl, by decide, rfl⟩
    ⟨rfl, rfl, rfl⟩).mpr (Or.inr (Or.inl (by decide +kernel)))⟩

/-- A commission of 100 is paid for a request and kept after its refund. -/
theorem commission_kept_after_refund :
    (processCommission twoDecimals { create := some 2 } "0.1" 7 2 (-1000) 500
      (processCommission twoDecimals { create := some 1 } "0.1" 7 2 1000 500 invitedPair).2).2.userColumn 1
        (·.affCommissionBalance) = 130 ∧
      invitedPair.userColumn 1 (·.affCommissionBalance) = 30 := by
  decide +kernel

end MicrossApi
