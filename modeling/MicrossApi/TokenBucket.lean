/-
MicrossApi/TokenBucket.lean

The token bucket of the total request limit (`redisRateLimitHandler`,
middleware/model-rate-limit.go; `RedisLimiter.Allow`, common/limiter/limiter.go;
rate_limit.lua).  A script run is atomic and reads the clock of the server in
whole seconds.  What a bucket gives out is bounded by what it held and what
came in since (`run_spends`).
-/
import MicrossApi.Transducer
import Mathlib.Tactic.Linarith
import Mathlib.Tactic.Ring

namespace MicrossApi

open List Transducer

/-- The options of `Allow`, with its defaults. -/
structure BucketConfig where
  capacity : Int := 10
  rate : Int := 1
  requested : Int := 1
deriving DecidableEq, Repr

/-- The hash of a bucket. -/
structure Bucket where
  tokens : Int
  lastTime : Int
deriving DecidableEq, Repr

variable (cfg : BucketConfig)

/-- The tokens of a bucket at a time; a bucket that is not there is full. -/
def BucketConfig.available (now : Int) : Option Bucket → Int
  | none => cfg.capacity
  | some bucket => min cfg.capacity (bucket.tokens + (now - bucket.lastTime) * cfg.rate)

/-- rate_limit.lua. -/
def rateLimit (bucket : Option Bucket) (now : Int) : Option Bucket × List Bool :=
  let tokens := cfg.available now bucket
  if cfg.requested ≤ tokens then (some ⟨tokens - cfg.requested, now⟩, [true])
  else (some ⟨tokens, now⟩, [false])

/-- The bucket of `redisRateLimitHandler`. -/
def totalLimit (totalMaxCount duration : Int) : BucketConfig where
  capacity := totalMaxCount * duration
  rate := totalMaxCount
  requested := duration

/-! ### Tokens over time -/

/-- What requests up to a time leave. -/
def BucketConfig.Reached (t : Int) (bucket : Option Bucket) : Prop :=
  ∀ b ∈ bucket, 0 ≤ b.tokens ∧ b.tokens ≤ cfg.capacity ∧ b.lastTime ≤ t

section Tokens

variable {cfg} {bucket : Option Bucket} {t t' now : Int} {times : List Int} (hrate : 0 ≤ cfg.rate)
  (hrequested : 0 ≤ cfg.requested) (hcapacity : 0 ≤ cfg.capacity)

include hrate

/-- A bucket fills up, and not faster than its rate. -/
theorem available_later (h : t ≤ t') (bucket : Option Bucket) :
    cfg.available t bucket ≤ cfg.available t' bucket ∧
    cfg.available t' bucket ≤ cfg.available t bucket + (t' - t) * cfg.rate := by
  have hmore : 0 ≤ (t' - t) * cfg.rate := mul_nonneg (sub_nonneg.mpr h) hrate
  rcases bucket with - | b
  · exact ⟨le_rfl, le_add_of_nonneg_right hmore⟩
  · have hsplit : (t' - b.lastTime) * cfg.rate = (t - b.lastTime) * cfg.rate + (t' - t) * cfg.rate := by ring
    simp only [BucketConfig.available, hsplit]
    omega

include hcapacity

theorem available_mem (h : cfg.Reached t bucket) :
    0 ≤ cfg.available t bucket ∧ cfg.available t bucket ≤ cfg.capacity := by
  rcases bucket with - | b
  · exact ⟨hcapacity, le_rfl⟩
  · obtain ⟨htokens, -, hlast⟩ := h b rfl
    exact ⟨le_min hcapacity (add_nonneg htokens (mul_nonneg (sub_nonneg.mpr hlast) hrate)), min_le_left _ _⟩

include hrequested

/-- A request takes its tokens or none. -/
theorem rateLimit_spends (h : cfg.Reached t bucket) (hnow : t ≤ now) :
    cfg.Reached now (rateLimit cfg bucket now).1 ∧ cfg.available now bucket =
      cfg.available now (rateLimit cfg bucket now).1 + cfg.requested *
        (rateLimit cfg bucket now).2.count true := by
  obtain ⟨hnonneg, hle⟩ := available_mem hrate hcapacity
    fun b hb => ⟨(h b hb).1, (h b hb).2.1, (h b hb).2.2.trans hnow⟩
  dsimp only [rateLimit]
  generalize cfg.available now bucket = x at *
  split_ifs
  · refine ⟨?_, ?_⟩
    · rintro _ ⟨⟩
      exact ⟨by dsimp only; omega, by dsimp only; omega, le_rfl⟩
    · simp only [BucketConfig.available, sub_self, zero_mul, add_zero, count_singleton_self]
      omega
  · refine ⟨?_, ?_⟩
    · rintro _ ⟨⟩
      exact ⟨hnonneg, hle, le_rfl⟩
    · simp [BucketConfig.available, hle]

/-- **What is given out** was there or has come in since. -/
theorem run_spends (hsorted : times.Pairwise (· ≤ ·)) (htimes : ∀ x ∈ times, t ≤ x ∧ x ≤ t') (h : t ≤ t')
    (hbucket : cfg.Reached t bucket) : cfg.Reached t' (run (rateLimit cfg) bucket times).1 ∧
      cfg.requested * ((run (rateLimit cfg) bucket times).2.count true : Int) +
        cfg.available t' (run (rateLimit cfg) bucket times).1 ≤ cfg.available t bucket +
          (t' - t) * cfg.rate := by
  induction times generalizing t bucket with
  | nil =>
    refine ⟨fun b hb => ⟨(hbucket b hb).1, (hbucket b hb).2.1, (hbucket b hb).2.2.trans h⟩, ?_⟩
    simpa using (available_later hrate h bucket).2
  | cons now times ih =>
    obtain ⟨hnow, htimes⟩ := forall_mem_cons.mp htimes
    obtain ⟨hfirst, hsorted⟩ := pairwise_cons.mp hsorted
    obtain ⟨hreached, hstep⟩ := rateLimit_spends hrate hrequested hcapacity hbucket hnow.1
    obtain ⟨hend, hrest⟩ := ih hsorted (fun x hx => ⟨hfirst x hx, (htimes x hx).2⟩) hnow.2 hreached
    have hlater := (available_later hrate hnow.1 bucket).2
    refine ⟨hend, ?_⟩
    rw [run_cons, count_append]
    push_cast
    linarith

/-- While there is enough, requests are allowed. -/
theorem run_allowed (hsorted : times.Pairwise (· ≤ ·)) (htimes : ∀ x ∈ times, t ≤ x)
    (hbucket : cfg.Reached t bucket)
    (henough : cfg.requested * times.length ≤ cfg.available t bucket) :
    (run (rateLimit cfg) bucket times).2 = replicate times.length true := by
  induction times generalizing t bucket with
  | nil => rfl
  | cons now times ih =>
    obtain ⟨hfirst, hsorted⟩ := pairwise_cons.mp hsorted
    have hlater := (available_later hrate (htimes now mem_cons_self) bucket).1
    obtain ⟨hreached, hstep⟩ := rateLimit_spends hrate hrequested hcapacity hbucket (htimes now mem_cons_self)
    have hlength := mul_nonneg hrequested (Int.natCast_nonneg times.length)
    rw [length_cons, Nat.cast_succ, mul_add_one] at henough
    have hallowed : (rateLimit cfg bucket now).2 = [true] := by
      dsimp only [rateLimit]
      rw [if_pos (by omega)]
    rw [hallowed, count_singleton_self, Nat.cast_one, mul_one] at hstep
    rw [run_cons, hallowed, ih hsorted hfirst hreached (by omega)]
    rfl

end Tokens

/-- **The bucket bounds the rate.**  Whatever requests came up to a time, the
tokens are within the capacity, the requests of the next `T` seconds are
bounded, a request is refused when its tokens are not there, and after `D`
seconds of rest `N` requests are allowed. -/
theorem totalLimit_bounds {N D t : Int} (hN : 1 ≤ N) (hD : 1 ≤ D) {before times : List Int}
    (hbefore : before.Pairwise (· ≤ ·)) (hpast : ∀ x ∈ before, x ≤ t) (htimes : times.Pairwise (· ≤ ·))
    (hnext : ∀ x ∈ times, t ≤ x) :
    let cfg := totalLimit N D
    let bucket := (run (rateLimit cfg) none before).1
    (∀ b ∈ bucket, 0 ≤ b.tokens ∧ b.tokens ≤ N * D) ∧
    (∀ T : Nat, (∀ x ∈ times, x ≤ t + T) →
      ((run (rateLimit cfg) bucket times).2.count true : Int) ≤ N + N * T / D) ∧
    (∀ now, (rateLimit cfg bucket now).2 = [false] ↔ cfg.available now bucket < D) ∧
    ((∀ b ∈ bucket, b.lastTime + D ≤ t) → times.length ≤ N →
      (run (rateLimit cfg) bucket times).2 = replicate times.length true) := by
  intro cfg bucket
  have hrate : 0 ≤ cfg.rate := Int.le_of_lt hN
  have hrequested : 0 ≤ cfg.requested := Int.le_of_lt hD
  have hcapacity : 0 ≤ cfg.capacity := mul_nonneg hrate hrequested
  have hreached : cfg.Reached t bucket := by
    rcases before with - | ⟨x, before⟩
    · exact nofun
    · have hnone : cfg.Reached x none := nofun
      refine (run_spends hrate hrequested hcapacity hbefore (fun y hy => ⟨?_, hpast y hy⟩)
        (hpast x mem_cons_self) hnone).1
      rcases mem_cons.mp hy with rfl | hy
      · exact le_rfl
      · exact rel_of_pairwise_cons hbefore hy
  refine ⟨fun b hb => ⟨(hreached b hb).1, (hreached b hb).2.1⟩, fun T hT => ?_, fun now => ?_,
    fun hrest hlength => ?_⟩
  · obtain ⟨hend, hspent⟩ := run_spends hrate hrequested hcapacity htimes (fun x hx => ⟨hnext x hx, hT x hx⟩)
      (by omega) hreached
    have hfull : cfg.available t bucket ≤ N * D := (available_mem hrate hcapacity hreached).2
    have hleft := (available_mem hrate hcapacity hend).1
    rw [← sub_le_iff_le_add', Int.le_ediv_iff_mul_le (by omega)]
    have hN' : cfg.rate = N := rfl
    have hD' : cfg.requested = D := rfl
    rw [hN', hD', add_sub_cancel_left] at hspent
    linarith
  · show (if D ≤ _ then _ else _ : Option Bucket × List Bool).2 = _ ↔ _
    split_ifs with h
    · simpa using h
    · simpa using not_le.mp h
  · refine run_allowed hrate hrequested hcapacity htimes hnext hreached ?_
    have hfull : N * D ≤ cfg.available t bucket := by
      rcases hb : bucket with - | b
      · exact le_rfl
      · have hwait : D ≤ t - b.lastTime := by
          have := hrest b hb
          omega
        have hfilled := mul_le_mul_of_nonneg_right hwait hrate
        exact le_min le_rfl ((mul_comm N D).le.trans (hfilled.trans (le_add_of_nonneg_left (hreached b hb).1)))
    refine le_trans ?_ hfull
    rw [mul_comm]
    exact mul_le_mul_of_nonneg_right hlength hrequested

theorem totalLimit_bounds_demo : ((1 : Int) ≤ 2 ∧ (1 : Int) ≤ 60 ∧
    [0, 30].Pairwise ((· ≤ ·) : Int → Int → Prop)) ∧
    ((run (rateLimit (totalLimit 2 60)) (run (rateLimit (totalLimit 2 60)) none [0, 30]).1
      [95, 100]).2.count true : Int)
      ≤ 2 + 2 * 10 / 60 := by
  refine ⟨by decide, ?_⟩
  exact (totalLimit_bounds (t := 95) (by decide) (by decide) (by decide) (by decide) (by decide)
    (by decide)).2.1 10
    (by decide)

end MicrossApi
