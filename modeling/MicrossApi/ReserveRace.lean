/-
MicrossApi/ReserveRace.lean

Concurrent reservations on one wallet (model/quota_reserve.go,
model/user_cache.go, model/utils.go).  `TryReserveUserQuota` is a sequence of
atomic parts: the Lua script; after a miss the read of the row, the script
that fills the hash, and the first script again; then the UPDATE of the row or
the entry in the batch store; or the conditional UPDATE when Redis is of no
use.  Between the parts of one call the parts of others run, the hash expires,
other readers fill it, and the batch updater swaps and applies its store.
`advance` is one part of a call; run to the end without interruption it is
`tryReserveUserQuota` (`advance_iterate_eq_tryReserve`).

The hash pays before the row does.  What may still be handed out is therefore
`free`: the row with the queued deltas, less the amounts that the hash has
paid and the row has not.  A fill installs a row that may be older than that,
and the conditional UPDATE does not look at the queue at all: then more is
granted than there was.  `Fits` says that this does not happen, and
`reservations_within_balance` that nothing else can overdraw the wallet.
-/
import MicrossApi.WalletMoves

namespace MicrossApi

open List StepSystem

/-! ### One reservation -/

/-- How far a call of `TryReserveUserQuota` has come. -/
inductive Phase where
  | start
  | missed
  | snapshot (quota : Int)
  | retry
  | fallback
  | persist
  | compensate
  | done (granted : Bool)
deriving DecidableEq, Repr

/-- What the parts of a call share: the row, the batch store and the hash. -/
structure Purse where
  quota : Int
  pending : Int := 0
  cache : Option Int := none
deriving DecidableEq, Repr

/-- The purse of a user. -/
def Wallet.purse (w : Wallet) (id : Int) : Purse :=
  ⟨w.db.userColumn id (·.quota), w.pending id, w.cache id⟩

/-- The reserve script; `onMiss` is what follows a miss. -/
def reserveScript (amount : Int) (onMiss : Phase) (p : Purse) : Phase × Purse :=
  match p.cache with
  | none => (onMiss, p)
  | some c => if c < amount then (.done false, p) else (.persist, { p with cache := some (c - amount) })

/-- The fill script: a quota that is there already stays. -/
def Purse.fill (p : Purse) (quota : Int) : Purse := { p with cache := some (p.cache.getD quota) }

/-- The next part of a call. -/
def advance (batch : Bool) (env : ReserveEnv) (amount : Int) : Phase × Purse → Phase × Purse
  | (.start, p) => if env.firstAnswers then reserveScript amount .missed p else (.fallback, p)
  | (.missed, p) =>
    match env.hydration with
    | .failed => (.fallback, p)
    | .unfilled => (.retry, p)
    | .filled => (.snapshot p.quota, p)
  | (.snapshot quota, p) =>
    match env.hydration with
    | .failed => (.fallback, p)
    | .unfilled => (.retry, p)
    | .filled => (.retry, p.fill quota)
  | (.retry, p) => if env.secondAnswers then reserveScript amount .fallback p else (.fallback, p)
  | (.fallback, p) =>
    if env.dbOk = true ∧ amount ≤ p.quota then
      (.done true, { p with quota := p.quota - amount })
    else (.done false, p)
  | (.persist, p) =>
    if batch then (.done true, { p with pending := p.pending - amount })
    else if env.dbOk then (.done true, { p with quota := p.quota - amount })
    else (.compensate, p)
  | (.compensate, p) =>
    (.done false,
      if env.compensationAnswers then { p with cache := p.cache.map (· + amount) } else p)
  | (.done granted, p) => (.done granted, p)

/-! ### A reservation on its own -/

section Alone

variable {cfg : WalletConfig} {env : ReserveEnv} {id quota : Int} {w : Wallet}

theorem purse_setCache (w : Wallet) (id quota : Int) :
    (w.setCache id quota).purse id = { w.purse id with cache := some quota } := by
  simp [Wallet.purse, Wallet.setCache]

variable {u : User} (batch : Bool) (hu : w.db.users.find? id = some u)

include hu

theorem purse_addQuota (delta : Int) :
    (w.addQuota id delta).purse id = { w.purse id with quota := u.quota + delta } := by
  simp [Wallet.purse, Wallet.addQuota, DB.addQuota, DB.updateUser, DB.userColumn, hu]

/-- How a call that ended so shows in the purse. -/
def ended (id : Int) (r : Except Err Bool × Wallet) : Phase × Purse :=
  (.done (decide (r.1 = .ok true)), r.2.purse id)

omit hu in
theorem iterate_done (n : Nat) (granted : Bool) (p : Purse) :
    (advance batch env quota)^[n] (.done granted, p) = (.done granted, p) := by
  induction n with
  | zero => rfl
  | succ n ih =>
    exact ih

/-- The conditional UPDATE is the last part. -/
theorem advance_fallback :
    advance batch env quota (.fallback, w.purse id) = ended id (reserveUserQuotaDB env.dbOk id quota w) := by
  have hq : (w.purse id).quota = u.quota := by simp [Wallet.purse, DB.userColumn, hu]
  unfold ended reserveUserQuotaDB
  simp only [advance, hq]
  rcases hdb : env.dbOk with - | -
  · simp
  by_cases hle : quota ≤ u.quota
  · simp [hu, hle, purse_addQuota hu, sub_eq_add_neg]
  · simp [hu, hle]

theorem iterate_fallback (n : Nat) :
    (advance batch env quota)^[n + 1] (.fallback, w.purse id)
      = ended id (reserveUserQuotaDB env.dbOk id quota w) := by
  rw [Function.iterate_succ_apply, advance_fallback batch hu]
  exact iterate_done ..

/-- What follows the scripts: the conditional UPDATE, a refusal, or the row
and the batch. -/
def afterScripts (cfg : WalletConfig) (env : ReserveEnv) (id quota : Int) :
    Except Err CacheQuotaResult × Wallet → Except Err Bool × Wallet
  | (.error _, w) => reserveUserQuotaDB env.dbOk id quota w
  | (.ok .miss, w) => reserveUserQuotaDB env.dbOk id quota w
  | (.ok .insufficient, w) => (.ok false, w)
  | (.ok .ok, w) =>
    match persistUserQuotaDelta cfg env.dbOk id (-quota) w with
    | (.ok _, w) => (.ok true, w)
    | (.error e, w) => (.error e, (cacheApplyUserQuotaDelta env.compensationAnswers id quota w).2)

omit hu in
theorem tryReserve_eq_afterScripts (hredis : cfg.redisEnabled = true) (hpos : 0 < quota) :
    tryReserveUserQuota cfg env id quota w
      = afterScripts cfg env id quota (reserveInCache env id quota w) := by
  unfold tryReserveUserQuota
  rw [if_neg (by omega), if_neg (by omega), if_neg (by rw [hredis]; decide)]
  rfl

/-- Once the hash has paid, one part or two remain. -/
theorem advance_persist :
    (advance cfg.batchUpdateEnabled env quota)^[2] (.persist, w.purse id)
      = ended id (afterScripts cfg env id quota (.ok .ok, w)) := by
  have hq : (w.purse id).quota = u.quota := by simp [Wallet.purse, DB.userColumn, hu]
  unfold ended afterScripts persistUserQuotaDelta
  rcases hbatch : cfg.batchUpdateEnabled with - | -
  · rcases hdb : env.dbOk with - | -
    · rcases hcomp : env.compensationAnswers with - | -
      · simp [advance, hdb, hcomp, cacheApplyUserQuotaDelta]
      rcases hc : w.cache id with - | c
      · simp [advance, hdb, cacheApplyUserQuotaDelta, hc, Wallet.purse]
      · simp [advance, hdb, hcomp, cacheApplyUserQuotaDelta, hc, Wallet.purse, Wallet.setCache]
    · simp [advance, hdb, hu, hq, purse_addQuota hu, sub_eq_add_neg]
  · simp [advance, Wallet.purse, Wallet.addNewRecord, sub_eq_add_neg]

theorem iterate_persist (n : Nat) :
    (advance cfg.batchUpdateEnabled env quota)^[n + 2] (.persist, w.purse id)
      = ended id (afterScripts cfg env id quota (.ok .ok, w)) := by
  rw [Function.iterate_add_apply, advance_persist hu]
  exact iterate_done ..

/-- A script that answers a hash that is there needs two parts more at
most. -/
theorem iterate_script {c : Int} (hc : w.cache id = some c) (onMiss : Phase) (n : Nat) :
    (advance cfg.batchUpdateEnabled env quota)^[n + 2] (reserveScript quota onMiss (w.purse id))
      = ended id (afterScripts cfg env id quota (cacheTryReserveUserQuota true id quota w)) := by
  have hcache : (w.purse id).cache = some c := hc
  unfold reserveScript cacheTryReserveUserQuota
  simp only [hcache, hc]
  by_cases hlow : c < quota
  · simp only [hlow]
    exact iterate_done ..
  simp only [hlow]
  rw [← purse_setCache]
  exact iterate_persist (w := w.setCache id (c - quota)) hu n

theorem iterate_retry (n : Nat) :
    (advance cfg.batchUpdateEnabled env quota)^[n + 3] (.retry, w.purse id) = ended id
          (afterScripts cfg env id quota (cacheTryReserveUserQuota env.secondAnswers id quota w)) := by
  rw [Function.iterate_succ_apply]
  rcases hsecond : env.secondAnswers with - | -
  · simp only [advance, hsecond]
    exact iterate_fallback _ hu (n + 1)
  simp only [advance, hsecond]
  rcases hc : w.cache id with - | c
  · have hcache : (w.purse id).cache = none := hc
    simp only [reserveScript, hcache, cacheTryReserveUserQuota, hc, Bool.true_eq_false]
    exact iterate_fallback _ hu (n + 1)
  · exact iterate_script hu hc .fallback n

omit hu in
/-- **Uninterrupted, the parts of a call make up `TryReserveUserQuota`.** -/
theorem advance_iterate_eq_tryReserve (hredis : cfg.redisEnabled = true) (hpos : 0 < quota)
    {u : User} (hu : w.db.users.find? id = some u) :
    (advance cfg.batchUpdateEnabled env quota)^[6] (.start, w.purse id)
      = ended id (tryReserveUserQuota cfg env id quota w) := by
  rw [tryReserve_eq_afterScripts hredis hpos, Function.iterate_succ_apply]
  have hq : (w.purse id).quota = u.quota := by simp [Wallet.purse, DB.userColumn, hu]
  rcases hfirst : env.firstAnswers with - | -
  · simp only [advance, reserveInCache, hfirst]
    exact iterate_fallback _ hu 4
  simp only [advance, hfirst, if_true]
  rcases hc : w.cache id with - | c
  · -- a miss: the row is read, and the hash is filled or not
    have hcache : (w.purse id).cache = none := hc
    have hmiss : cacheTryReserveUserQuota true id quota w = (.ok .miss, w) := by
      simp [cacheTryReserveUserQuota, hc]
    simp only [reserveScript, reserveInCache, hfirst, hcache, hmiss]
    rw [Function.iterate_succ_apply]
    rcases hhyd : env.hydration with - | - | -
    · simp only [advance, hhyd, getUserCache, hu]
      exact iterate_fallback _ hu 3
    · simp only [advance, hhyd, getUserCache, hu]
      exact iterate_retry hu 1
    simp only [getUserCache, hu]
    rw [Function.iterate_succ_apply]
    simp only [advance, hhyd]
    have hfill : (w.purse id).fill (w.purse id).quota = (w.setCache id u.quota).purse id := by
      simp [Purse.fill, purse_setCache, hcache, hq]
    rw [hfill]
    exact iterate_retry (w := w.setCache id u.quota) hu 0
  · have hlive : reserveInCache env id quota w = cacheTryReserveUserQuota true id quota w := by
      rw [reserveInCache_live hc hfirst]
      simp [cacheTryReserveUserQuota, hc]
    rw [hlive]
    exact iterate_script hu hc .missed 3

end Alone

/-! ### The race -/

/-- A call under way. -/
structure Reservation where
  id : Int
  amount : Int
  phase : Phase := .start
deriving DecidableEq, Repr

/-- The wallet of one user with all that is under way on it. -/
structure Race where
  purse : Purse
  /-- the delta the batch updater has swapped out and not applied yet -/
  inflight : Option Int := none
  calls : Table Reservation.id
  /-- rows other readers have read and not filled in yet -/
  snapshots : List Int := []

/-- What may happen next. -/
inductive RaceOp where
  | call (id : Int) (env : ReserveEnv)
  | expire
  | read
  | fill (reader : Nat)
  | swap
  | apply (dbOk : Bool)
deriving DecidableEq, Repr

/-- The next part of call `c`. -/
def Race.callStep (s : Race) (batch : Bool) (env : ReserveEnv) (c : Reservation) : Race :=
  let r := advance batch env c.amount (c.phase, s.purse)
  { s with purse := r.2, calls := s.calls.save { c with phase := r.1 } }

/-- One step of the race. -/
def raceStep (batch : Bool) (s : Race) : RaceOp → Race
  | .call id env =>
    match s.calls.find? id with
    | none => s
    | some c => s.callStep batch env c
  | .expire => { s with purse := { s.purse with cache := none } }
  | .read => { s with snapshots := s.snapshots ++ [s.purse.quota] }
  | .fill reader =>
    match s.snapshots[reader]? with
    | none => s
    | some quota =>
      { s with purse := s.purse.fill quota, snapshots := s.snapshots.eraseIdx reader }
  | .swap =>
    match s.inflight with
    | some _ => s
    | none =>
      { s with purse := { s.purse with pending := 0 }, inflight := some s.purse.pending }
  | .apply dbOk =>
    match s.inflight with
    | none => s
    | some delta =>
      { s with
        purse := if dbOk then { s.purse with quota := s.purse.quota + delta } else s.purse
        inflight := none }

/-- The amount a call has taken from the hash and not from the row. -/
def Phase.taken (amount : Int) : Phase → Int
  | .persist | .compensate => amount
  | _ => 0

/-- The amount a call has reported as reserved. -/
def Phase.granted (amount : Int) : Phase → Int
  | .done true => amount
  | _ => 0

namespace Race

variable (s : Race)

/-- The row with the queued deltas. -/
def stored : Int := s.purse.quota + s.purse.pending + s.inflight.getD 0

/-- What the hash has paid and the row has not. -/
def taken : Int := s.calls.total fun c => c.phase.taken c.amount

/-- The sum of the amounts of the calls that report success. -/
def granted : Int := s.calls.total fun c => c.phase.granted c.amount

/-- What may still be handed out. -/
def free : Int := s.stored - s.taken

end Race

/-- A part that fills the hash fills in no more than is free, and a
conditional UPDATE takes no more than is free beside what the hash offers. -/
def PartFits (env : ReserveEnv) (amount free : Int) : Phase → Purse → Prop
  | .snapshot quota, p => env.hydration = .filled → p.cache = none → quota ≤ free
  | .fallback, p =>
    env.dbOk = true → amount ≤ p.quota → amount ≤ free ∧ ∀ c ∈ p.cache, c + amount ≤ free
  | _, _ => True

instance (env amount free ph p) : Decidable (PartFits env amount free ph p) := by
  unfold PartFits
  split <;> infer_instance

/-- The condition on a step: as above, also for other readers; and no batch
is lost. -/
def Race.Fits (s : Race) : RaceOp → Prop
  | .call id env => ∀ c ∈ s.calls.find? id, PartFits env c.amount s.free c.phase s.purse
  | .fill reader => ∀ quota ∈ s.snapshots[reader]?, s.purse.cache = none → quota ≤ s.free
  | .apply dbOk => dbOk = true ∨ ∀ delta ∈ s.inflight, delta = 0
  | .expire | .read | .swap => True

instance (s : Race) (op) : Decidable (s.Fits op) := by
  unfold Race.Fits
  split <;> infer_instance

/-! ### One part of a call -/

theorem advance_stored (batch : Bool) (env : ReserveEnv) (amount : Int) (ph : Phase) (p : Purse) :
    (advance batch env amount (ph, p)).2.quota + (advance batch env amount (ph, p)).2.pending
        + (advance batch env amount (ph, p)).1.granted amount = p.quota + p.pending + ph.granted amount := by
  have hscript : ∀ onMiss : Phase, onMiss.granted amount = 0 →
      (reserveScript amount onMiss p).2.quota + (reserveScript amount onMiss p).2.pending
          + (reserveScript amount onMiss p).1.granted amount
        = p.quota + p.pending := by
    intro onMiss hmiss
    unfold reserveScript
    split
    · simp [hmiss]
    split <;> simp [Phase.granted]
  cases ph with
  | start =>
    simp only [advance]
    split
    · rw [hscript .missed rfl]
      simp [Phase.granted]
    · rfl
  | missed | snapshot | compensate =>
    simp only [advance]
    split <;> rfl
  | retry =>
    simp only [advance]
    split
    · rw [hscript .fallback rfl]
      simp [Phase.granted]
    · rfl
  | fallback =>
    simp only [advance]
    split
    · simp only [Phase.granted]
      omega
    · rfl
  | persist =>
    simp only [advance]
    split
    · simp only [Phase.granted]
      omega
    split
    · simp only [Phase.granted]
      omega
    · rfl
  | done => rfl

/-- The hash offers no more than is free, and that is not negative. -/
def Purse.Offers (p : Purse) (free : Int) : Prop := 0 ≤ free ∧ ∀ c ∈ p.cache, c ≤ free

/-- What a part leaves free. -/
def freeAfter (amount free : Int) (ph ph' : Phase) : Int :=
  free + (ph.taken amount + ph.granted amount) - (ph'.taken amount + ph'.granted amount)

variable {amount free : Int} {p : Purse} {s : Race} {balance : Int}

theorem offers_reserveScript (h : p.Offers free) (ph : Phase)
    (hph : ph.taken amount + ph.granted amount = 0) {onMiss : Phase}
    (hmiss : onMiss.taken amount + onMiss.granted amount = 0) : (reserveScript amount onMiss p).2.Offers
      (freeAfter amount free ph (reserveScript amount onMiss p).1) := by
  unfold reserveScript freeAfter
  rw [hph, add_zero]
  rcases hc : p.cache with - | c
  · simp only [hmiss, sub_zero]
    exact h
  obtain ⟨hfree, hcache⟩ := h
  have hle : c ≤ free := hcache c hc
  by_cases hlow : c < amount
  · simp only [hlow, if_true, Phase.taken, Phase.granted, add_zero, sub_zero]
    exact ⟨hfree, hcache⟩
  -- the hash pays, and as much is no longer free
  simp only [hlow, if_false, Phase.taken, Phase.granted]
  refine ⟨by omega, ?_⟩
  intro x hx
  obtain rfl : c - amount = x := Option.some.inj hx
  omega

/-- Filling an absent hash keeps the offer covered exactly when the snapshot is
no more than is free; a live hash keeps its value. -/
theorem offers_fill_iff {quota : Int} (h : p.Offers free) :
    (p.fill quota).Offers free ↔ (p.cache = none → quota ≤ free) := by
  rcases hc : p.cache with - | c
  · simp [Purse.Offers, Purse.fill, hc, h.1]
  · have hle : c ≤ free := h.2 c hc
    simp [Purse.Offers, Purse.fill, hc, h.1, hle]

/-- The UPDATE of the fallback takes `amount` past the hash. -/
theorem offers_sub_iff {p' : Purse} (hcache : p'.cache = p.cache) :
    p'.Offers (free - amount) ↔ amount ≤ free ∧ ∀ c ∈ p.cache, c + amount ≤ free := by
  unfold Purse.Offers
  rw [hcache]
  constructor
  · rintro ⟨hfree, hle⟩
    refine ⟨by omega, fun c hc => ?_⟩
    have := hle c hc
    omega
  · rintro ⟨hfree, hle⟩
    refine ⟨by omega, fun c hc => ?_⟩
    have := hle c hc
    omega

theorem offers_advance_iff {batch : Bool} {env : ReserveEnv} (ph : Phase)
    (h : p.Offers free) (ha : 0 < amount) : (advance batch env amount (ph, p)).2.Offers
        (freeAfter amount free ph (advance batch env amount (ph, p)).1) ↔ PartFits env amount free ph p := by
  have hsame : ∀ ph' : Phase, ph.taken amount + ph.granted amount
      = ph'.taken amount + ph'.granted amount → p.Offers (freeAfter amount free ph ph') := by
    intro ph' heq
    unfold freeAfter
    rw [heq, add_sub_cancel_right]
    exact h
  cases ph with
  | start =>
    simp only [PartFits, iff_true, advance]
    split
    · exact offers_reserveScript h .start rfl rfl
    · exact hsame _ rfl
  | missed =>
    simp only [PartFits, iff_true, advance]
    split <;> exact hsame _ rfl
  | snapshot =>
    simp only [PartFits, advance]
    split
    next hhyd =>
      simp only [hhyd, reduceCtorEq, false_implies, iff_true]
      exact hsame _ rfl
    next hhyd =>
      simp only [hhyd, reduceCtorEq, false_implies, iff_true]
      exact hsame _ rfl
    next hhyd =>
      simp only [hhyd, true_implies, freeAfter, Phase.taken, Phase.granted, add_zero, sub_zero]
      exact offers_fill_iff h
  | retry =>
    simp only [PartFits, iff_true, advance]
    split
    · exact offers_reserveScript h .retry rfl rfl
    · exact hsame _ rfl
  | fallback =>
    simp only [PartFits, advance]
    by_cases hok : env.dbOk = true ∧ amount ≤ p.quota
    · obtain ⟨hdb, hle⟩ := hok
      simp only [hdb, hle, and_self, if_true, true_implies, freeAfter, Phase.taken,
        Phase.granted, add_zero, zero_add]
      exact offers_sub_iff rfl
    simp only [hok]
    constructor
    · intro _ hdb hle
      exact absurd ⟨hdb, hle⟩ hok
    · intro _
      exact hsame _ rfl
  | persist =>
    -- from taken to granted, or to be given back: free stays the same
    simp only [PartFits, iff_true, advance]
    split
    · exact hsame _ (by simp [Phase.taken, Phase.granted])
    split
    · exact hsame _ (by simp [Phase.taken, Phase.granted])
    · exact hsame _ rfl
  | compensate =>
    -- what the call had taken is free again, whether the hash gets it back or not
    simp only [PartFits, iff_true, advance, freeAfter, Phase.taken, Phase.granted, add_zero]
    obtain ⟨hfree, hcache⟩ := h
    split
    · refine ⟨by omega, fun c hc => ?_⟩
      obtain ⟨x, hx, rfl⟩ := Option.map_eq_some_iff.mp hc
      have := hcache x hx
      omega
    · refine ⟨by omega, fun c hc => ?_⟩
      have := hcache c hc
      omega
  | done =>
    simp only [PartFits, iff_true]
    exact hsame _ rfl

/-! ### Steps of the race -/

/-- The invariant: the books balance with the grants, and the offer is
covered. -/
structure Race.Sound (balance : Int) (s : Race) : Prop where
  books : s.stored + s.granted = balance
  offers : s.purse.Offers s.free
  amounts : ∀ c ∈ s.calls.rows, 0 < c.amount

section CallStep

variable {s : Race} {batch : Bool} {env : ReserveEnv} {c : Reservation}

theorem total_callStep (hc : s.calls.find? c.id = some c) (f : Int → Phase → Int) :
    (s.callStep batch env c).calls.total (fun x => f x.amount x.phase)
      = s.calls.total (fun x => f x.amount x.phase) - f c.amount c.phase
        + f c.amount (advance batch env c.amount (c.phase, s.purse)).1 := by
  have h := Table.total_save (t := s.calls)
    (r := { c with phase := (advance batch env c.amount (c.phase, s.purse)).1 }) hc
    (fun x => f x.amount x.phase)
  exact h

theorem stored_callStep (s : Race) (batch : Bool) (env : ReserveEnv) (c : Reservation) :
    (s.callStep batch env c).stored + (advance batch env c.amount (c.phase, s.purse)).1.granted c.amount
      = s.stored + c.phase.granted c.amount := by
  have h := advance_stored batch env c.amount c.phase s.purse
  unfold Race.stored Race.callStep
  dsimp only
  omega

theorem free_callStep (hc : s.calls.find? c.id = some c) : (s.callStep batch env c).free
      = freeAfter c.amount s.free c.phase (advance batch env c.amount (c.phase, s.purse)).1 := by
  have hstored := stored_callStep s batch env c
  have htaken : (s.callStep batch env c).taken = _ := total_callStep hc fun a ph => ph.taken a
  unfold Race.free freeAfter
  rw [htaken]
  show _ - (s.taken - c.phase.taken c.amount + _) = _
  omega

theorem amounts_callStep (hc : s.calls.find? c.id = some c) (h : ∀ x ∈ s.calls.rows, 0 < x.amount) :
    ∀ x ∈ (s.callStep batch env c).calls.rows, 0 < x.amount := by
  intro x hx
  obtain ⟨y, hy, rfl⟩ := mem_map.mp hx
  by_cases hk : y.id = c.id
  · rw [if_pos hk]
    exact h c (Table.mem_of_find? hc)
  · rw [if_neg hk]
    exact h y hy

end CallStep

theorem Race.taken_nonneg (h : ∀ c ∈ s.calls.rows, 0 < c.amount) : 0 ≤ s.taken := by
  apply sum_nonneg
  intro x hx
  obtain ⟨c, hc, rfl⟩ := mem_map.mp hx
  have := h c hc
  cases c.phase with
  | persist | compensate => exact le_of_lt this
  | _ => exact le_refl 0

/-- A change that shows in neither the store, the offer nor the calls. -/
theorem Race.Sound.congr {s s' : Race} (h : s.Sound balance)
    (hstored : s'.stored = s.stored) (hcalls : s'.calls = s.calls)
    (hcache : ∀ c ∈ s'.purse.cache, c ≤ s.free) : s'.Sound balance := by
  have hfree : s'.free = s.free := by
    unfold Race.free Race.taken
    rw [hstored, hcalls]
  refine ⟨?_, ⟨?_, ?_⟩, ?_⟩
  · unfold Race.granted
    rw [hstored, hcalls]
    exact h.books
  · rw [hfree]
    exact h.offers.1
  · rw [hfree]
    exact hcache
  · rw [hcalls]
    exact h.amounts

theorem sound_callStep_iff (h : s.Sound balance) (batch : Bool)
    (env : ReserveEnv) {c : Reservation} (hc : s.calls.find? c.id = some c) :
    (s.callStep batch env c).Sound balance ↔ PartFits env c.amount s.free c.phase s.purse := by
  have ha : 0 < c.amount := h.amounts c (Table.mem_of_find? hc)
  have hiff : (s.callStep batch env c).purse.Offers (s.callStep batch env c).free ↔
      PartFits env c.amount s.free c.phase s.purse := by
    rw [free_callStep hc]
    exact offers_advance_iff c.phase h.offers ha
  rw [← hiff]
  constructor
  · intro hs
    exact hs.offers
  · intro hs
    refine ⟨?_, hs, amounts_callStep hc h.amounts⟩
    -- what the row gives is what the call is granted
    have hgranted : (s.callStep batch env c).granted = _ :=
      total_callStep hc fun a ph => ph.granted a
    have hstored := stored_callStep s batch env c
    have hbooks := h.books
    rw [hgranted]
    show _ + (s.granted - c.phase.granted c.amount + _) = balance
    omega

theorem sound_fill_iff (h : s.Sound balance) (quota : Int) (snapshots : List Int) :
    ({ s with purse := s.purse.fill quota, snapshots := snapshots } : Race).Sound balance ↔
      (s.purse.cache = none → quota ≤ s.free) := by
  constructor
  · intro hs
    exact (offers_fill_iff h.offers).mp hs.offers
  · intro hle
    exact h.congr rfl rfl ((offers_fill_iff h.offers).mpr hle).2

theorem sound_apply_iff (h : s.Sound balance) {delta : Int}
    (hin : s.inflight = some delta) (batch dbOk : Bool) :
    (raceStep batch s (.apply dbOk)).Sound balance ↔ dbOk = true ∨ delta = 0 := by
  cases dbOk with
  | true =>
    simp only [true_or, iff_true]
    refine h.congr ?_ (by simp [raceStep, hin]) ?_
    · simp only [raceStep, hin, Race.stored, if_true, Option.getD_none, Option.getD_some]
      omega
    · simpa [raceStep, hin] using h.offers.2
  | false =>
    -- the delta is lost, and the books show it
    have hstored : (raceStep batch s (.apply false)).stored = s.stored - delta := by
      simp only [raceStep, hin, Race.stored, Bool.false_eq_true, if_false, Option.getD_none,
        Option.getD_some]
      omega
    simp only [Bool.false_eq_true, false_or]
    constructor
    · intro hs
      have hbooks := h.books
      have hbooks' := hs.books
      have hgranted : (raceStep batch s (.apply false)).granted = s.granted := by
        simp [raceStep, hin, Race.granted]
      omega
    · intro hzero
      refine h.congr ?_ (by simp [raceStep, hin]) ?_
      · rw [hstored, hzero, sub_zero]
      · simpa [raceStep, hin] using h.offers.2

/-- **A step keeps the wallet sound exactly when it fits.** -/
theorem sound_step_iff (h : s.Sound balance) (batch : Bool)
    (op : RaceOp) : (raceStep batch s op).Sound balance ↔ s.Fits op := by
  cases op with
  | call id env =>
    simp only [raceStep, Race.Fits]
    rcases hfind : s.calls.find? id with - | c
    · simpa using h
    have hc : s.calls.find? c.id = some c := by
      rw [Table.key_of_find? hfind]
      exact hfind
    simp only [Option.mem_def, Option.some.injEq, forall_eq']
    exact sound_callStep_iff h batch env hc
  | expire =>
    simp only [Race.Fits, iff_true]
    exact h.congr rfl rfl (fun c hc => by cases hc)
  | read =>
    simp only [Race.Fits, iff_true]
    exact h.congr rfl rfl h.offers.2
  | fill reader =>
    simp only [raceStep, Race.Fits]
    rcases hread : s.snapshots[reader]? with - | quota
    · simpa using h
    · simp only [Option.mem_def, Option.some.injEq, forall_eq']
      exact sound_fill_iff h ..
  | swap =>
    simp only [raceStep, Race.Fits, iff_true]
    rcases hin : s.inflight with - | d
    · refine h.congr ?_ rfl h.offers.2
      simp [Race.stored, hin]
    · exact h
  | apply =>
    simp only [Race.Fits]
    rcases hin : s.inflight with - | delta
    · simp only [raceStep, hin]
      simpa using h
    · simp only [Option.mem_def, Option.some.injEq, forall_eq']
      exact sound_apply_iff h hin ..

/-! ### Runs -/

/-- Calls for positive amounts that have not begun, on a wallet that holds
`balance` with nothing queued; its hash is gone or agrees with the row. -/
structure Race.Starts (balance : Int) (s : Race) : Prop where
  quota : s.purse.quota = balance
  pending : s.purse.pending = 0
  inflight : s.inflight = none
  cache : s.purse.cache = none ∨ s.purse.cache = some balance
  calls : ∀ c ∈ s.calls.rows, 0 < c.amount ∧ c.phase = .start

theorem Race.Starts.sound (h : s.Starts balance) (hb : 0 ≤ balance) : s.Sound balance := by
  have hzero : ∀ f : Int → Phase → Int, (∀ a, f a .start = 0) →
      s.calls.total (fun c => f c.amount c.phase) = 0 := by
    intro f hf
    apply sum_eq_zero
    intro x hx
    obtain ⟨c, hc, rfl⟩ := mem_map.mp hx
    rw [(h.calls c hc).2]
    exact hf c.amount
  have hgranted : s.granted = 0 := hzero (fun a ph => ph.granted a) fun _ => rfl
  have htaken : s.taken = 0 := hzero (fun a ph => ph.taken a) fun _ => rfl
  have hstored : s.stored = balance := by
    simp [Race.stored, h.quota, h.pending, h.inflight]
  have hfree : s.free = balance := by
    unfold Race.free
    rw [hstored, htaken, sub_zero]
  refine ⟨by rw [hstored, hgranted, add_zero], ?_, fun c hc => (h.calls c hc).1⟩
  rw [hfree]
  refine ⟨hb, fun c hc => ?_⟩
  rcases h.cache with hnone | hsome
  · rw [hnone] at hc
    cases hc
  rw [hsome] at hc
  cases hc
  exact le_refl _

/-- **No double spending** in any run whose steps all fit: whatever the calls,
their interleaving, the expiries, the fills and the batches, the amounts of
the calls that report success add up to at most the balance. -/
theorem reservations_within_balance (batch : Bool) (balance : Int) (hb : 0 ≤ balance) (s : Race)
    (hs : s.Starts balance) (ops : List RaceOp) (hfits : Along (raceStep batch) Race.Fits s ops) :
    (exec (raceStep batch) s ops).granted ≤ balance := by
  have hsound : (exec (raceStep batch) s ops).Sound balance := by
    apply exec_inv_along (I := Race.Sound balance) _ (hs.sound hb) hfits
    intro x op hfit hx
    exact (sound_step_iff hx batch op).mpr hfit
  -- the store covers what is taken and what is free, so it is not negative
  have hfree := hsound.offers.1
  have htaken := Race.taken_nonneg hsound.amounts
  have hbooks := hsound.books
  unfold Race.free at hfree
  omega

/-- Ten units and two calls. -/
def twoCalls (first second : Int) : Race where
  purse := { quota := 10 }
  calls :=
    { rows := [{ id := 1, amount := first }, { id := 2, amount := second }]
      nodup := by simp }

/-- The next part of call `id`, everything going well. -/
def go (id : Int) : RaceOp := .call id {}

/-- Calls for 6 and 3 whose parts alternate, with an expiry after both are in
the row: both succeed. -/
theorem reservations_within_balance_alternating :
    let ops := [go 1, go 2, go 1, go 1, go 1, go 1, go 2, go 2, go 2, go 2, .expire, .read, .fill 0]
    (twoCalls 6 3).Starts 10 ∧ Along (raceStep false) Race.Fits (twoCalls 6 3) ops ∧
      (exec (raceStep false) (twoCalls 6 3) ops).granted = 9 ∧
      (exec (raceStep false) (twoCalls 6 3) ops).granted ≤ 10 := by
  intro ops
  have hs : (twoCalls 6 3).Starts 10 := ⟨rfl, rfl, rfl, Or.inl rfl, by decide⟩
  have hfits : Along (raceStep false) Race.Fits (twoCalls 6 3) ops := by decide
  exact ⟨hs, hfits, by decide, reservations_within_balance false 10 (by decide) _ hs ops hfits⟩

/-- In batch mode the hash expires before the batch is applied and is filled
again from the row: ten units are spent twice. -/
theorem ten_units_spent_twice : (twoCalls 10 10).Starts 10 ∧ ¬ (exec (raceStep true) (twoCalls 10 10)
          [go 1, go 1, go 1, go 1, go 1, .expire, go 2, go 2, go 2, go 2, go 2]).granted ≤ 10 :=
  ⟨⟨rfl, rfl, rfl, Or.inl rfl, by decide⟩, by decide⟩

end MicrossApi
