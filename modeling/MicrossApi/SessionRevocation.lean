/-
MicrossApi/SessionRevocation.lean

Revoked sessions stay revoked.  An active entry is written to the key with a
deadline taken before the row was read, so that once the row is revoked no such
entry outlives the revocation by more than the lifetime of the cache; a
tombstone lives as long, counted from a later time, and is not overwritten by
an active entry.  Hence a tombstone that is let in denies the session until no
active entry can come any more (`SessionStore.Sealed`).

`SessionStore.Grows` says once what a step of a call may do to the store, and
everything a call knows about the store survives the steps of the others
(`Call.Ok.mono`).

The bulk revocation and the one by refresh token make their tombstone of the
row they have locked, which is of the newest version.  `RevokeUserSession` makes
it of the row it read before its fence: if the version was advanced since, and
the fence has expired, the script refuses the tombstone
(`revoked_session_returned`).
-/
import MicrossApi.UserSession
import MicrossApi.Interleaving
import Mathlib.Algebra.Order.Group.Int

namespace MicrossApi

open StepSystem
open Interleaving (getElem?_set_cases getElem?_concat_cases)

-- a row and the row as it is read are compared field by field
attribute [local irreducible] trimSpace

variable {cfg : SessionConfig} {s s' : SessionStore} {j k : Nat} {x : UserSession} {goal : DenyGoal}
  {c : Call} {r : UserSession} {lock : Option Nat}

/-! ### What the store keeps to -/

/-- The row is revoked. -/
def SessionStore.Revoked (s : SessionStore) : Prop := ∃ r, s.row = some r ∧ r.status ≠ .active

/-- The row has, or had, this version and expiry. -/
def SessionStore.Saw (s : SessionStore) (version expiresAt : Int) : Prop :=
  0 < version ∧ ∃ r, s.row = some r ∧ expiresAt = r.expiresAt ∧ version ≤ r.version

/-- A time an active entry may live to: no longer than one lifetime of the
cache from now, and from the revocation. -/
structure SessionStore.Bounds (cfg : SessionConfig) (s : SessionStore) (t : Int) : Prop where
  clock : t ≤ s.clock + cfg.cacheMillis
  revoked : s.Revoked → t ≤ s.revokedClock + cfg.cacheMillis

/-- Past this time no active entry of the revoked row `r` lives. -/
def SessionStore.horizon (cfg : SessionConfig) (s : SessionStore) (r : UserSession) : Int :=
  min (1000 * r.expiresAt) (s.revokedClock + cfg.cacheMillis)

/-- The row is revoked, and up to the horizon the key denies it. -/
def SessionStore.Sealed (cfg : SessionConfig) (s : SessionStore) : Prop :=
  s.Revoked ∧ ∀ r, s.row = some r → s.clock < s.horizon cfg r →
    ∃ key, s.key = some key ∧ key.entry.status ≠ .active ∧ s.horizon cfg r ≤ key.expireAt

/-- The invariant of the store. -/
structure SessionStore.Ok (cfg : SessionConfig) (s : SessionStore) : Prop where
  version : ∀ r, s.row = some r → 0 < r.version
  past : s.Revoked → s.revokedClock ≤ s.clock
  saw : ∀ key, s.key = some key → s.Saw key.entry.version key.entry.expiresAt
  active : ∀ key, s.key = some key → key.entry.status = .active →
    key.expireAt ≤ 1000 * key.entry.expiresAt ∧ s.Bounds cfg key.expireAt

/-- What a step of call `k` may do to the store. -/
structure SessionStore.Grows (cfg : SessionConfig) (k : Nat) (s s' : SessionStore) : Prop where
  clock : s.clock ≤ s'.clock
  row : ∀ r, s.row = some r → ∃ r', s'.row = some r' ∧ r'.expiresAt = r.expiresAt ∧
    r.version ≤ r'.version
  revoked : s.Revoked → s'.row = s.row ∧ s'.revokedClock = s.revokedClock
  revokes : ¬ s.Revoked → s'.Revoked → s.clock ≤ s'.revokedClock
  /-- a row that is locked by another call stays -/
  lock : ∀ j, j ≠ k → s.lock = some j → s'.lock = some j ∧ ∀ r, s.row = some r → s'.row = some r
  isSealed : s.Sealed cfg → s'.Sealed cfg

section Monotone

theorem SessionStore.Grows.refl (k : Nat) (s : SessionStore) : s.Grows cfg k s where
  clock := le_rfl
  row r hr := ⟨r, hr, rfl, le_rfl⟩
  revoked _ := ⟨rfl, rfl⟩
  revokes hn h := absurd h hn
  lock _ _ h := ⟨h, fun _ hr => hr⟩
  isSealed h := h

theorem SessionStore.Revoked.mono (h : s.Revoked) (hg : s.Grows cfg k s') : s'.Revoked := by
  obtain ⟨r, hr, hstatus⟩ := h
  exact ⟨r, (hg.revoked ⟨r, hr, hstatus⟩).1.trans hr, hstatus⟩

theorem SessionStore.Saw.mono {version expiresAt : Int} (h : s.Saw version expiresAt)
    (hg : s.Grows cfg k s') : s'.Saw version expiresAt := by
  obtain ⟨hpos, r, hr, hexp, hle⟩ := h
  obtain ⟨r', hr', hexp', hle'⟩ := hg.row r hr
  exact ⟨hpos, r', hr', hexp.trans hexp'.symm, hle.trans hle'⟩

variable {t : Int}

theorem SessionStore.Bounds.mono (h : s.Bounds cfg t) (hg : s.Grows cfg k s') :
    s'.Bounds cfg t where
  clock := by
    have hclock := hg.clock
    have ht := h.clock
    omega
  revoked hr' := by
    by_cases hr : s.Revoked
    · rw [(hg.revoked hr).2]
      exact h.revoked hr
    have hclock := hg.revokes hr hr'
    have ht := h.clock
    omega

theorem SessionStore.Bounds.le {t' : Int} (h : s.Bounds cfg t) (ht : t' ≤ t) : s.Bounds cfg t' :=
  ⟨ht.trans h.clock, fun hr => ht.trans (h.revoked hr)⟩

/-- A deadline taken now. -/
theorem bounds_now (hs : ¬ s.Revoked) (ht : t ≤ s.clock + cfg.cacheMillis) : s.Bounds cfg t :=
  ⟨ht, fun hr => absurd hr hs⟩

end Monotone

/-! ### What a call knows -/

/-- Call `k` holds the row, which is active and of the version of `x`. -/
def SessionStore.Holds (s : SessionStore) (k : Nat) (x : UserSession) : Prop :=
  s.lock = some k ∧ ∃ r, s.row = some r ∧ r.status = .active ∧ x.version = r.version

/-- A tombstone is made of a row that is revoked, and by those who lock it of
the newest version. -/
def DenyGoal.Ok (s : SessionStore) (k : Nat) (x : UserSession) : DenyGoal → Prop
  | .observed => True
  | .fence by_ _ _ => by_ = .byHash → s.Holds k x
  | .tombstone by_ => x.status = .revoked ∧ s.Revoked ∧
      (by_ = .byHash ∨ by_ = .all → ∃ r, s.row = some r ∧ x.version = r.version)

/-- An active entry that is published for a call that starts late is not to be
returned. -/
def Publisher.Ok (late : Prop) (by_ : Publisher) : Prop := by_ = .get → ¬ late

/-- What call `k` knows at each step; a call that starts late, with the store
sealed, is never on its way to return the session. -/
def Call.Ok (cfg : SessionConfig) (s : SessionStore) (k : Nat) (late : Prop) : Call → Prop
  | .getRow deadline => deadline ≤ s.clock + cfg.cacheMillis
  | .getFound deadline x => s.Saw x.version x.expiresAt ∧
      (x.status = .active → ¬ late ∧ s.Bounds cfg deadline)
  | .create x => 0 < x.version ∧ x.status = .active
  | .createRow deadline x => deadline ≤ s.clock + cfg.cacheMillis ∧ 0 < x.version ∧ x.status = .active
  | .rotateRow _ _ deadline => deadline ≤ s.clock + cfg.cacheMillis
  | .rotateSwap _ _ deadline x => s.Saw x.version x.expiresAt ∧ x.status = .active ∧
      deadline ≤ s.clock + cfg.cacheMillis
  | .advanceTx _ deadline _ => deadline ≤ s.clock + cfg.cacheMillis
  | .publish by_ deadline x => by_.Ok late ∧ s.Saw x.version x.expiresAt ∧ x.status = .active ∧
      s.Bounds cfg deadline
  | .publishScript by_ _ expireAt x => by_.Ok late ∧ s.Saw x.version x.expiresAt ∧ x.status = .active ∧
      expireAt ≤ 1000 * x.expiresAt ∧ s.Bounds cfg expireAt
  | .published by_ _ _ | .confirm by_ _ => by_.Ok late
  | .deny goal x => s.Saw x.version x.expiresAt ∧ goal.Ok s k x
  | .denyScript goal ttl x => s.Saw x.version x.expiresAt ∧ goal.Ok s k x ∧ 0 < ttl ∧
      min (1000 * x.expiresAt - s.clock) cfg.cacheMillis ≤ ttl
  | .revokeTx by_ _ _ x => s.Saw x.version x.expiresAt ∧ (by_ = .byHash → s.Holds k x)
  | .ended .revoked => s.Sealed cfg
  | .ended (.got _) => ¬ late
  | _ => True

variable {late : Prop}

theorem SessionStore.Holds.mono (h : s.Holds j x) (hj : j ≠ k) (hg : s.Grows cfg k s') : s'.Holds j x := by
  obtain ⟨hlock, r, hr, hx⟩ := h
  obtain ⟨hlock', hrow'⟩ := hg.lock j hj hlock
  exact ⟨hlock', r, hrow' r hr, hx⟩

theorem DenyGoal.Ok.mono (h : goal.Ok s j x) (hj : j ≠ k) (hg : s.Grows cfg k s') : goal.Ok s' j x := by
  cases goal with
  | observed => trivial
  | fence => exact fun hby => (h hby).mono hj hg
  | tombstone =>
    obtain ⟨hstatus, hrevoked, hversion⟩ := h
    refine ⟨hstatus, hrevoked.mono hg, fun hby => ?_⟩
    rw [(hg.revoked hrevoked).1]
    exact hversion hby

/-- What a call knows survives the steps of the others. -/
theorem Call.Ok.mono (h : c.Ok cfg s j late) (hj : j ≠ k) (hg : s.Grows cfg k s') : c.Ok cfg s' j late := by
  have hclock := hg.clock
  cases c with
  | getRow deadline | rotateRow args left deadline | advanceTx args deadline =>
    have hle : deadline ≤ s.clock + cfg.cacheMillis := h
    show deadline ≤ s'.clock + cfg.cacheMillis
    omega
  | getFound => exact ⟨h.1.mono hg, fun hx => (h.2 hx).imp_right (·.mono hg)⟩
  | createRow =>
    have hle := h.1
    exact ⟨by omega, h.2⟩
  | rotateSwap =>
    have hle := h.2.2
    exact ⟨h.1.mono hg, h.2.1, by omega⟩
  | publish => exact ⟨h.1, h.2.1.mono hg, h.2.2.1, h.2.2.2.mono hg⟩
  | publishScript => exact ⟨h.1, h.2.1.mono hg, h.2.2.1, h.2.2.2.1, h.2.2.2.2.mono hg⟩
  | deny => exact ⟨h.1.mono hg, h.2.mono hj hg⟩
  | denyScript =>
    obtain ⟨hsaw, hgoal, hpos, httl⟩ := h
    exact ⟨hsaw.mono hg, hgoal.mono hj hg, hpos, by omega⟩
  | revokeTx => exact ⟨h.1.mono hg, fun hby => (h.2 hby).mono hj hg⟩
  | ended result =>
    cases result with
    | revoked => exact hg.isSealed h
    | got => exact h
    | _ => trivial
  | create | published | confirm => exact h
  | _ => trivial

/-! ### What the store does -/

theorem SessionStore.Grows.trans {s'' : SessionStore} (h : s.Grows cfg k s')
    (h' : s'.Grows cfg k s'') : s.Grows cfg k s'' where
  clock := h.clock.trans h'.clock
  row r hr := by
    obtain ⟨r', hr', hexp, hle⟩ := h.row r hr
    obtain ⟨r'', hr'', hexp', hle'⟩ := h'.row r' hr'
    exact ⟨r'', hr'', hexp'.trans hexp, hle.trans hle'⟩
  revoked hr := by
    obtain ⟨hrow, hclock⟩ := h.revoked hr
    obtain ⟨hrow', hclock'⟩ := h'.revoked (hr.mono h)
    exact ⟨hrow'.trans hrow, hclock'.trans hclock⟩
  revokes hn hr := by
    by_cases hr' : s'.Revoked
    · rw [(h'.revoked hr').2]
      exact h.revokes hn hr'
    · exact h.clock.trans (h'.revokes hr' hr)
  lock j hj hl := by
    obtain ⟨hl', hrow⟩ := h.lock j hj hl
    obtain ⟨hl'', hrow'⟩ := h'.lock j hj hl'
    exact ⟨hl'', fun r hr => hrow' r (hrow r hr)⟩
  isSealed hs := h'.isSealed (h.isSealed hs)

/-- A step that leaves the key keeps the invariant if the row allows it. -/
theorem SessionStore.Ok.grow (hs : s.Ok cfg) (hg : s.Grows cfg k s') (hkey : s'.key = s.key)
    (hversion : ∀ r, s'.row = some r → 0 < r.version)
    (hpast : s'.Revoked → s'.revokedClock ≤ s'.clock) : s'.Ok cfg where
  version := hversion
  past := hpast
  saw key h := (hs.saw key (hkey ▸ h)).mono hg
  active key h hactive := by
    obtain ⟨hexp, hbounds⟩ := hs.active key (hkey ▸ h) hactive
    exact ⟨hexp, hbounds.mono hg⟩

theorem not_revoked (hr : s.row = some r) (hactive : r.status = .active) : ¬ s.Revoked := by
  rintro ⟨r', hr', hstatus⟩
  rw [hr] at hr'
  cases hr'
  exact hstatus hactive

theorem not_locked_by_other (hfree : s.Free k) (hj : j ≠ k) : s.lock ≠ some j := by
  rcases hfree with h | h
  · rw [h]
    exact fun h' => nomatch h'
  · rw [h]
    exact fun h' => hj (Option.some.inj h').symm

theorem grows_tick (k : Nat) (s : SessionStore) (millis : Nat) :
    s.Grows cfg k { s with clock := s.clock + millis } :=
  { (SessionStore.Grows.refl k s : s.Grows cfg k s) with
    clock := Int.le_add_of_nonneg_right (Int.natCast_nonneg millis)
    isSealed := by
      refine fun ⟨hr, hkey⟩ => ⟨hr, fun r hr hlt => hkey r hr ?_⟩
      have hlt' : s.clock + millis < s.horizon cfg r := hlt
      omega }

theorem ok_tick (hs : s.Ok cfg) (millis : Nat) : ({ s with clock := s.clock + millis }).Ok cfg := by
  refine hs.grow (grows_tick 0 s millis) rfl hs.version fun hr => ?_
  have hpast := hs.past hr
  show s.revokedClock ≤ s.clock + millis
  omega

/-- Only the lock is taken or given back. -/
theorem grows_lock (h : ∀ j, j ≠ k → s.lock = some j → lock = some j) :
    s.Grows cfg k { s with lock := lock } :=
  { SessionStore.Grows.refl k s with
    lock := fun j hj hl => ⟨h j hj hl, fun _ hr => hr⟩ }

theorem ok_lock (hs : s.Ok cfg) (hg : s.Grows cfg k { s with lock := lock }) :
    ({ s with lock := lock }).Ok cfg :=
  hs.grow hg rfl hs.version hs.past

theorem grows_unlock (k : Nat) (s : SessionStore) : s.Grows cfg k (s.unlock k) := by
  refine grows_lock fun j hj hl => ?_
  rw [if_neg (fun h => hj (Option.some.inj (hl.symm.trans h)))]
  exact hl

/-- A row is put in the place of one that is active, or of none. -/
theorem grows_put {t : Int} (hs : s.Ok cfg) (hn : ¬ s.Revoked) (hversion : 0 < r.version)
    (hrow : ∀ x, s.row = some x → s.Free k ∧ r.expiresAt = x.expiresAt ∧ x.version ≤ r.version)
    (ht : r.status ≠ .active → t = s.clock) :
    s.Grows cfg k { s with row := some r, revokedClock := t } ∧
      ({ s with row := some r, revokedClock := t }).Ok cfg := by
  have hclock : ({ s with row := some r, revokedClock := t } : SessionStore).Revoked → t = s.clock := by
    rintro ⟨x, hx, hstatus⟩
    cases hx
    exact ht hstatus
  have hg : s.Grows cfg k { s with row := some r, revokedClock := t } :=
    { clock := le_rfl
      row := fun x hx => ⟨r, rfl, (hrow x hx).2⟩
      revoked := fun h => absurd h hn
      revokes := fun _ h => (hclock h).ge
      lock := fun j hj hl => ⟨hl, fun x hx => absurd hl (not_locked_by_other (hrow x hx).1 hj)⟩
      isSealed := fun h => absurd h.1 hn }
  refine ⟨hg, hs.grow hg rfl ?_ fun h => (hclock h).le⟩
  intro y hy
  cases hy
  exact hversion

/-! ### What the scripts do -/

/-- The key is all a script changes. -/
theorem grows_key {key : Option SessionKey}
    (h : s.Sealed cfg → ({ s with key := key }).Sealed cfg) : s.Grows cfg k { s with key := key } :=
  { (SessionStore.Grows.refl k s : s.Grows cfg k s) with isSealed := h }

variable {e : SessionEntry}

theorem SessionStore.Sealed.exists_cached (h : s.Sealed cfg) (hr : s.row = some r)
    (hlt : s.clock < s.horizon cfg r) : ∃ e, s.cached = some e ∧ e.status ≠ .active := by
  obtain ⟨key, hkey, hdeny, hle⟩ := h.2 r hr hlt
  refine ⟨key.entry, ?_, hdeny⟩
  unfold SessionStore.cached
  rw [hkey]
  exact if_pos (lt_of_lt_of_le hlt hle)

theorem write_active {expireAt : Int} (hs : s.Ok cfg)
    (hsaw : s.Saw e.version e.expiresAt) (hactive : e.status = .active)
    (hexp : expireAt ≤ 1000 * e.expiresAt) (hbounds : s.Bounds cfg expireAt) :
    s.Grows cfg k (s.write e expireAt) ∧ (s.write e expireAt).Ok cfg := by
  unfold SessionStore.write
  split
  next hadmits =>
    refine ⟨grows_key fun hsealed => ?_, ?_⟩
    · -- the horizon has passed, or the script would have refused
      refine ⟨hsealed.1, fun r hr hlt => ?_⟩
      obtain ⟨current, hcached, hdeny⟩ := hsealed.exists_cached hr hlt
      unfold SessionStore.Admits at hadmits
      rw [hcached] at hadmits
      exact absurd ⟨hactive, hdeny⟩ hadmits.1
    · refine ⟨hs.version, hs.past, fun key hkey => ?_, fun key hkey _ => ?_⟩
      all_goals
        obtain ⟨-, rfl⟩ : ¬ expireAt ≤ s.clock ∧ { entry := e, expireAt := expireAt } = key := by
          simpa using hkey
      · exact hsaw
      · exact ⟨hexp, hbounds.clock, hbounds.revoked⟩
  · exact ⟨.refl k s, hs⟩

variable {ttl : Int}

/-- A script that lets an entry in that denies. -/
theorem write_deny (hs : s.Ok cfg)
    (hsaw : s.Saw e.version e.expiresAt) (hdeny : e.status ≠ .active) (hpos : 0 < ttl)
    (httl : min (1000 * e.expiresAt - s.clock) cfg.cacheMillis ≤ ttl) (hadmits : s.Admits e) :
    s.Grows cfg k (s.write e (s.clock + ttl)) ∧ (s.write e (s.clock + ttl)).Ok cfg ∧
      (s.Revoked → (s.write e (s.clock + ttl)).Sealed cfg) := by
  have hwrite : s.write e (s.clock + ttl) =
      { s with key := some { entry := e, expireAt := s.clock + ttl } } := by
    unfold SessionStore.write
    rw [if_pos hadmits, if_neg (by omega)]
  have hsealed : s.Revoked →
      ({ s with key := some { entry := e, expireAt := s.clock + ttl } }).Sealed cfg := by
    refine fun hrevoked => ⟨hrevoked, fun r hr _ => ⟨_, rfl, hdeny, ?_⟩⟩
    obtain ⟨-, r', hr', hexp, -⟩ := hsaw
    obtain rfl : r = r' := Option.mem_unique hr hr'
    have hpast := hs.past hrevoked
    show min (1000 * r.expiresAt) (s.revokedClock + cfg.cacheMillis) ≤ s.clock + ttl
    omega
  rw [hwrite]
  refine ⟨grows_key fun h => hsealed h.1, ⟨hs.version, hs.past, ?_, ?_⟩, hsealed⟩
  · intro key hkey
    cases hkey
    exact hsaw
  · intro key hkey hactive
    cases hkey
    exact absurd hactive hdeny

/-- An entry as new as the row, or newer than what is cached, gets in. -/
theorem admits_deny (hpos : 0 < e.version) (hdeny : e.status ≠ .active)
    (hle : ∀ current ∈ s.cached, current.version ≤ e.version) : s.Admits e := by
  unfold SessionStore.Admits
  rcases hcached : s.cached with - | current
  · exact le_of_lt hpos
  · exact ⟨fun h => hdeny h.1, hle current hcached⟩

theorem cached_eq_some (h : s.cached = some e) :
    ∃ key, s.key = some key ∧ key.entry = e ∧ s.clock < key.expireAt := by
  unfold SessionStore.cached at h
  rcases hkey : s.key with - | key
  · rw [hkey] at h
    cases h
  rw [hkey] at h
  obtain ⟨hlt, hentry⟩ : s.clock < key.expireAt ∧ key.entry = e := by simpa using h
  exact ⟨key, rfl, hentry, hlt⟩

theorem cached_le_row (hs : s.Ok cfg) (hr : s.row = some r) :
    ∀ current ∈ s.cached, current.version ≤ r.version := by
  intro current hcurrent
  obtain ⟨key, hkey, rfl, -⟩ := cached_eq_some hcurrent
  obtain ⟨-, r', hr', -, hle⟩ := hs.saw key hkey
  obtain rfl : r = r' := Option.mem_unique hr hr'
  exact hle

/-! ### Steps of a call -/

/-- The tombstone of `RevokeUserSession` meets nothing newer in the cache. -/
def Call.Unopposed (s : SessionStore) : Call → Prop
  | .denyScript (.tombstone .single) _ x => ∀ e ∈ s.cached, e.version ≤ x.version
  | _ => True

instance Call.decidableUnopposed : Decidable (c.Unopposed s) := by
  unfold Call.Unopposed
  split <;> infer_instance

/-- A step of call `k` to the store and the call in `p`. -/
structure Steps (cfg : SessionConfig) (k : Nat) (late : Prop) (s : SessionStore)
    (p : SessionStore × Call) : Prop where
  grows : s.Grows cfg k p.1
  ok : p.1.Ok cfg
  call : p.2.Ok cfg p.1 k late

theorem steps_stay (hs : s.Ok cfg) (hc : c.Ok cfg s k late) : Steps cfg k late s (s, c) :=
  ⟨.refl k s, hs, hc⟩

theorem steps_unlock (hs : s.Ok cfg) (hc : c.Ok cfg (s.unlock k) k late) :
    Steps cfg k late s (s.unlock k, c) :=
  ⟨grows_unlock k s, ok_lock hs (grows_unlock k s), hc⟩

theorem saw_afterFind (hs : s.Ok cfg) (hr : s.row = some r) :
    s.Saw r.afterFind.version r.afterFind.expiresAt :=
  ⟨hs.version r hr, r, hr, rfl, le_refl r.version⟩

theorem find_eq_some (h : s.find = some x) : ∃ r, s.row = some r ∧ r.afterFind = x := by
  exact Option.map_eq_some_iff.mp h

theorem findOf_eq_some {userId : Int} (h : s.findOf userId = some x) :
    ∃ r, s.row = some r ∧ r.afterFind = x := by
  exact find_eq_some (Option.filter_eq_some_iff.mp h).1

variable {deadline : Int}

theorem activeExpiry_le {clock expireAt : Int} (h : activeExpiry deadline e clock = .ok (some expireAt)) :
    expireAt ≤ 1000 * e.expiresAt ∧ expireAt ≤ deadline := by
  unfold activeExpiry at h
  dsimp only at h
  split_ifs at h
  all_goals cases h
  all_goals omega

variable (cfg e goal x) (clock : Int)

theorem denyMillis_pos :
    0 < denyMillis cfg e clock := by
  unfold denyMillis
  dsimp only
  split <;> omega

theorem le_denyMillis :
    min (1000 * e.expiresAt - clock) cfg.cacheMillis ≤ denyMillis cfg e clock := by
  unfold denyMillis
  dsimp only
  split <;> omega

@[simp] theorem DenyGoal.version_entry :
    (goal.entry x).version = x.version := by
  cases goal <;> rfl

@[simp] theorem DenyGoal.expiresAt_entry :
    (goal.entry x).expiresAt = x.expiresAt := by
  cases goal <;> rfl

variable {cfg e goal x}

variable {by_ : Revoker} {now : Int} {reason : String}

theorem DenyGoal.ok_fence (h : by_ ≠ .byHash) : (DenyGoal.fence by_ now reason).Ok s k x :=
  fun hby => absurd hby h

theorem DenyGoal.fence_denies (by_ : Revoker) (now : Int) (reason : String) (x : UserSession) :
    ((DenyGoal.fence by_ now reason).entry x).status ≠ .active := by
  show SessionStatus.revoking ≠ .active
  decide

theorem DenyGoal.Ok.entry_denies (h : goal.Ok s k x) : (goal.entry x).status ≠ .active := by
  cases goal with
  | observed => exact nofun
  | fence by_ now reason => exact DenyGoal.fence_denies by_ now reason x
  | tombstone =>
    show x.status ≠ .active
    rw [h.1]
    exact nofun

@[simp] theorem row_write (e : SessionEntry) (expireAt : Int) : (s.write e expireAt).row = s.row := by
  unfold SessionStore.write
  split <;> rfl

@[simp] theorem lock_write (e : SessionEntry) (expireAt : Int) : (s.write e expireAt).lock = s.lock := by
  unfold SessionStore.write
  split <;> rfl

/-- **A tombstone of a version the cache does not exceed is let in.** -/
theorem tombstone_admitted (hs : s.Ok cfg) (hc : (Call.denyScript (.tombstone by_) ttl x).Ok cfg s k late)
    (hunopposed : (Call.denyScript (.tombstone by_) ttl x).Unopposed s) (hby : by_ ≠ .reuse) :
    s.Admits (DenyGoal.entry x (.tombstone by_)) := by
  obtain ⟨hsaw, hgoal, -, -⟩ := hc
  refine admits_deny hsaw.1 hgoal.entry_denies ?_
  have hlocked : by_ = .byHash ∨ by_ = .all → ∀ e ∈ s.cached, e.version ≤ x.version := by
    intro hby
    obtain ⟨r, hr, hversion⟩ := hgoal.2.2 hby
    rw [hversion]
    exact cached_le_row hs hr
  cases by_ with
  | single => exact hunopposed
  | byHash => exact hlocked (.inl rfl)
  | all => exact hlocked (.inr rfl)
  | reuse => exact absurd rfl hby

variable (ok : Bool)

theorem steps_denyScript (hs : s.Ok cfg)
    (hc : (Call.denyScript goal ttl x).Ok cfg s k late)
    (hunopposed : (Call.denyScript goal ttl x).Unopposed s) :
    Steps cfg k late s ((Call.denyScript goal ttl x).next cfg k ok s) := by
  have ⟨hsaw, hgoal, hpos, httl⟩ := hc
  dsimp only [Call.next]
  split
  next hadmits =>
    obtain ⟨hg, hok, hsealed⟩ :=
      write_deny (k := k) hs (by simpa using hsaw) hgoal.entry_denies hpos (by simpa using httl) hadmits
    refine ⟨hg, hok, ?_⟩
    cases goal with
    | observed => trivial
    | fence =>
      refine ⟨hsaw.mono hg, fun hby => ?_⟩
      obtain ⟨hlock, hrow⟩ := hgoal hby
      exact ⟨(lock_write _ _).trans hlock, (row_write _ _).symm ▸ hrow⟩
    | tombstone by_ =>
      cases by_ with
      | reuse => trivial
      | _ => exact hsealed hgoal.2.1
  next hrefused =>
    refine steps_unlock hs ?_
    cases goal with
    | observed | fence => trivial
    | tombstone by_ =>
      cases by_ with
      | reuse => trivial
      | _ => exact absurd (tombstone_admitted hs hc hunopposed nofun) hrefused

theorem steps_revokeRow (hs : s.Ok cfg) (hr : s.row = some r) (hactive : r.status = .active) (hfree : s.Free k)
    (hsaw : s.Saw x.version x.expiresAt) (hversion : by_ = .byHash ∨ by_ = .all → x.version = r.version) :
    Steps cfg k late s (s.revokeRow r now reason, .deny (.tombstone by_) (x.revoke now reason)) := by
  obtain ⟨hg, hok⟩ : s.Grows cfg k (s.revokeRow r now reason) ∧ (s.revokeRow r now reason).Ok cfg := by
    refine grows_put hs (not_revoked hr hactive) (hs.version r hr) (fun y hy => ?_) fun _ => rfl
    obtain rfl : y = r := Option.mem_unique hy hr
    exact ⟨hfree, rfl, le_rfl⟩
  exact ⟨hg, hok, hsaw.mono hg, rfl, ⟨r.revoke now reason, rfl, nofun⟩,
    fun hby => ⟨r.revoke now reason, rfl, hversion hby⟩⟩

/-- The transaction of a revocation. -/
theorem steps_revokeTx (now : Int) (reason : String)
    (hs : s.Ok cfg) (hr : s.row = some r) (hfree : s.Free k) (hsaw : s.Saw x.version x.expiresAt)
    (hholds : by_ = .byHash → s.Holds k x) : Steps cfg k late s (s.revokeTx k now reason x r by_) := by
  cases by_ with
  | single | reuse =>
    dsimp only [SessionStore.revokeTx]
    split
    next hactive =>
      exact steps_revokeRow hs hr hactive.1 hfree hsaw (by simp)
    · exact steps_stay hs trivial
  | byHash =>
    dsimp only [SessionStore.revokeTx]
    split
    next hactive =>
      obtain ⟨-, r', hr', -, hversion⟩ := hholds rfl
      obtain rfl : r = r' := Option.mem_unique hr hr'
      have hrevoke : Steps cfg k late s
          (s.revokeRow r now reason, .deny (.tombstone .byHash) (x.revoke now reason)) :=
        steps_revokeRow hs hr hactive hfree hsaw (fun _ => hversion)
      have hg : (s.revokeRow r now reason).Grows cfg k ((s.revokeRow r now reason).unlock k) :=
        grows_unlock k _
      exact ⟨hrevoke.grows.trans hg, ok_lock hrevoke.ok hg, hrevoke.call⟩
    · exact steps_unlock hs trivial
  | all =>
    dsimp only [SessionStore.revokeTx]
    split
    next hactive =>
      exact steps_revokeRow hs hr hactive hfree (saw_afterFind hs hr) (fun _ => rfl)
    · exact steps_stay hs trivial

theorem steps_publish {by_ : Publisher} (hs : s.Ok cfg) (hn : ¬ s.Revoked) (hversion : 0 < r.version)
    (hrow : ∀ x, s.row = some x → s.Free k ∧ r.expiresAt = x.expiresAt ∧ x.version ≤ r.version)
    (hactive : r.status = .active) (hsaw : s.Grows cfg k { s with row := some r } →
      ({ s with row := some r }).Saw x.version x.expiresAt) (hx : x.status = .active)
    (hby : by_ ≠ .get) (hdeadline : deadline ≤ s.clock + cfg.cacheMillis) :
    Steps cfg k late s ({ s with row := some r }, .publish by_ deadline x) := by
  obtain ⟨hg, hok⟩ := grows_put (k := k) hs hn hversion hrow fun h => absurd hactive h
  exact ⟨hg, hok, fun h => absurd h hby, hsaw hg, hx, bounds_now (not_revoked rfl hactive) hdeadline⟩

theorem steps_createRow (hs : s.Ok cfg) (hc : (Call.createRow deadline x).Ok cfg s k late) :
    Steps cfg k late s ((Call.createRow deadline x).next cfg k ok s) := by
  obtain ⟨hdeadline, hversion, hactive⟩ := hc
  dsimp only [Call.next]
  split
  next hrow =>
    have hnone : ∀ y, s.row ≠ some y := by simp [hrow.2]
    exact steps_publish hs (fun ⟨y, hy, _⟩ => hnone y hy) hversion (fun y hy => absurd hy (hnone y)) hactive
      (fun _ => ⟨hversion, x, rfl, rfl, le_rfl⟩) hactive nofun hdeadline
  · exact steps_stay hs trivial

variable {args : RotateArgs} {left : Nat}

theorem afterRotateRow_ok
    (hsaw : s.Saw x.version x.expiresAt) (hdeadline : deadline ≤ s.clock + cfg.cacheMillis) :
    (Call.afterRotateRow args left deadline x).Ok cfg s k late := by
  unfold Call.afterRotateRow
  split_ifs with hactive
  · exact ⟨hsaw, hactive.1, hdeadline⟩
  · trivial
  · trivial
  · exact ⟨hsaw, DenyGoal.ok_fence (by decide)⟩
  · trivial

theorem steps_rotateSwap (hs : s.Ok cfg) (hc : (Call.rotateSwap args left deadline x).Ok cfg s k late) :
    Steps cfg k late s ((Call.rotateSwap args left deadline x).next cfg k ok s) := by
  have ⟨hsaw, hx, hdeadline⟩ := hc
  dsimp only [Call.next]
  split
  · exact steps_stay hs hc
  rename_i hfree
  split
  · exact steps_stay hs trivial
  split
  · exact steps_stay hs trivial
  rename_i r hr
  split
  next hguard =>
    have hactive : r.status = .active := hguard.2.1.1
    refine steps_publish hs (not_revoked hr hactive) (hs.version r hr) (fun y hy => ?_) hactive
      (fun hg => hsaw.mono hg) hx nofun hdeadline
    obtain rfl : y = r := Option.mem_unique hy hr
    exact ⟨not_not.mp hfree, rfl, le_rfl⟩
  · exact steps_stay hs trivial

theorem steps_advanceTx {args : AdvanceArgs} (hs : s.Ok cfg)
    (hc : (Call.advanceTx args deadline now).Ok cfg s k late) :
    Steps cfg k late s ((Call.advanceTx args deadline now).next cfg k ok s) := by
  dsimp only [Call.next]
  split
  · exact steps_stay hs hc
  rename_i hfree
  split
  · exact steps_stay hs trivial
  split
  · exact steps_stay hs trivial
  rename_i r hr
  split
  · exact steps_stay hs trivial
  split
  next haccepts =>
    have hactive : r.status = .active := haccepts.1
    have hversion : 0 < (r.advanced args now).version :=
      Int.lt_add_one_of_le (le_of_lt (hs.version r hr))
    refine steps_publish hs (not_revoked hr hactive) hversion (fun y hy => ?_) hactive
      (fun _ => ⟨hversion, r.advanced args now, rfl, rfl,
        le_refl (r.advanced args now).version⟩) hactive nofun hc
    obtain rfl : y = r := Option.mem_unique hy hr
    exact ⟨not_not.mp hfree, rfl, Int.le_add_one (le_refl y.version)⟩
  · exact steps_stay hs trivial

theorem steps_revokeByHash {presentedHash : String} (hs : s.Ok cfg) :
    Steps cfg k late s ((Call.revokeByHash presentedHash reason now).next cfg k ok s) := by
  dsimp only [Call.next]
  split
  · exact steps_stay hs trivial
  rename_i hfree
  split
  · exact steps_stay hs trivial
  split
  · exact steps_stay hs trivial
  rename_i x hx
  obtain ⟨r, hr, rfl⟩ := find_eq_some hx
  split
  next hguard =>
    have hg : s.Grows cfg k { s with lock := some k } :=
      grows_lock fun j hj hl => absurd hl (not_locked_by_other (not_not.mp hfree) hj)
    have hsaw := (saw_afterFind hs hr).mono hg
    exact ⟨hg, ok_lock hs hg, hsaw, fun _ => ⟨rfl, r, hr, hguard.1.1, rfl⟩⟩
  · exact steps_stay hs trivial

theorem SessionStore.Sealed.cached_denies (h : s.Sealed cfg) (hs : s.Ok cfg)
    (he : s.cached = some e) : e.status ≠ .active := by
  intro hactive
  obtain ⟨key, hkey, rfl, hlt⟩ := cached_eq_some he
  obtain ⟨hexp, hbounds⟩ := hs.active key hkey hactive
  obtain ⟨-, r, hr, hr', -⟩ := hs.saw key hkey
  have hrevoked := hbounds.revoked h.1
  have hhorizon : s.clock < s.horizon cfg r := by
    unfold SessionStore.horizon
    omega
  obtain ⟨e, he', hdeny⟩ := h.exists_cached hr hhorizon
  exact hdeny (Option.mem_unique he he' ▸ hactive)

theorem Publisher.ok_result {by_ : Publisher} (h : by_.Ok late) (x : UserSession) :
    (Call.ended (by_.result x)).Ok cfg s k late := by
  cases by_ with
  | get => exact h rfl
  | _ => trivial

/-- **What one step of a call preserves.** -/
theorem next_steps (hs : s.Ok cfg) (hlate : late → s.Sealed cfg) (hc : c.Ok cfg s k late)
    (hunopposed : c.Unopposed s) : Steps cfg k late s (c.next cfg k ok s) := by
  cases c with
  | get =>
    refine steps_stay hs ?_
    unfold Call.afterKey
    split
    · split
      · trivial
      rename_i e he
      split_ifs with _ hdenied
      · trivial
      · trivial
      · exact fun h => hdenied (.inl ((hlate h).cached_denies hs he))
    · trivial
  | getMiss => exact steps_stay hs (le_refl (s.clock + cfg.cacheMillis))
  | getRow =>
    dsimp only [Call.next]
    split
    · exact steps_stay hs trivial
    split
    · exact steps_stay hs trivial
    rename_i x hx
    obtain ⟨r, hr, rfl⟩ := find_eq_some hx
    refine steps_stay hs ⟨saw_afterFind hs hr, fun hactive => ?_⟩
    have hn := not_revoked hr hactive
    exact ⟨fun h => hn (hlate h).1, bounds_now hn hc⟩
  | getFound =>
    refine steps_stay hs ?_
    split
    next hactive =>
      exact ⟨fun _ => (hc.2 hactive.1).1, hc.1, hactive.1, (hc.2 hactive.1).2⟩
    · exact ⟨hc.1, trivial⟩
  | create => exact steps_stay hs ⟨le_rfl, hc⟩
  | createRow => exact steps_createRow ok hs hc
  | rotate args left =>
    cases left with
    | zero => exact steps_stay hs trivial
    | succ => exact steps_stay hs (le_refl (s.clock + cfg.cacheMillis))
  | rotateRow =>
    dsimp only [Call.next]
    split
    · exact steps_stay hs trivial
    split
    · exact steps_stay hs trivial
    rename_i x hx
    obtain ⟨r, hr, rfl⟩ := findOf_eq_some hx
    exact steps_stay hs (afterRotateRow_ok (saw_afterFind hs hr) hc)
  | rotateSwap => exact steps_rotateSwap ok hs hc
  | advanceTx => exact steps_advanceTx ok hs hc
  | publish =>
    dsimp only [Call.next]
    split
    · exact steps_stay hs hc.1
    next expireAt hexpiry =>
      obtain ⟨hexp, hle⟩ := activeExpiry_le hexpiry
      exact steps_stay hs ⟨hc.1, hc.2.1, hc.2.2.1, hexp, hc.2.2.2.le hle⟩
    · exact steps_stay hs trivial
  | publishScript by_ deadline expireAt x =>
    obtain ⟨hby, hsaw, hactive, hexp, hbounds⟩ := hc
    obtain ⟨hg, hok⟩ := write_active (k := k) hs (e := x.cacheEntry) hsaw hactive hexp hbounds
    refine ⟨hg, hok, ?_⟩
    dsimp only [Call.next]
    split
    · exact hby
    · trivial
  | published by_ | confirm by_ =>
    refine steps_stay hs ?_
    split_ifs
    all_goals first | trivial | exact hc | exact Publisher.ok_result hc _
  | revoke | revokeAll =>
    dsimp only [Call.next]
    split
    · exact steps_stay hs trivial
    split
    · exact steps_stay hs trivial
    rename_i x hx
    obtain ⟨r, hr, rfl⟩ := findOf_eq_some hx
    refine steps_stay hs ?_
    split
    · exact ⟨saw_afterFind hs hr, DenyGoal.ok_fence (by decide)⟩
    · trivial
  | revokeByHash => exact steps_revokeByHash ok hs
  | deny goal x =>
    refine steps_stay hs ⟨hc.1, hc.2, denyMillis_pos cfg _ _, ?_⟩
    simpa using le_denyMillis cfg (goal.entry x) s.clock
  | denyScript => exact steps_denyScript ok hs hc hunopposed
  | revokeTx by_ now reason =>
    dsimp only [Call.next]
    split
    · exact steps_stay hs hc
    rename_i hfree
    split
    · exact steps_unlock hs trivial
    split
    · exact steps_unlock hs trivial
    next r hr =>
      exact steps_revokeTx now reason hs hr (not_not.mp hfree) hc.1 hc.2
  | ended => exact steps_stay hs hc

/-! ### Runs -/

/-- The store keeps to its invariant, and every call knows what it knows. -/
structure Sessions.Ok (cfg : SessionConfig) (late : Nat → Prop) (s : Sessions) : Prop where
  store : s.store.Ok cfg
  isSealed : ∀ j, late j → s.store.Sealed cfg
  call : ∀ (j : Nat) (c : Call), s.calls[j]? = some c → c.Ok cfg s.store j (late j)

/-- In this step no tombstone of `RevokeUserSession` meets a newer entry. -/
def TombstoneUnopposed (s : Sessions) : SessionOp → Prop
  | .advance k _ => ∀ c ∈ s.calls[k]?, c.Unopposed s.store
  | _ => True

instance decidableTombstoneUnopposed (s op) : Decidable (TombstoneUnopposed s op) := by
  unfold TombstoneUnopposed
  split <;> infer_instance

variable (call : SessionCall)

theorem begin_ok : (call.begin cfg s).Ok cfg s k late := by
  cases call with
  | getUserSessionCached => trivial
  | createUserSession x =>
    dsimp only [SessionCall.begin]
    split
    · trivial
    split
    · trivial
    rename_i hstatus
    refine ⟨?_, not_not.mp fun h => hstatus (.inl h)⟩
    show 0 < if x.version ≤ 0 then 1 else x.version
    split <;> omega
  | rotateUserSessionRefresh | revokeUserSession | revokeUserSessionByRefreshHash
    | revokeUserSessions =>
    dsimp only [SessionCall.begin]
    split <;> trivial
  | advanceUserSessionAuthVersion =>
    dsimp only [SessionCall.begin]
    split
    · trivial
    · exact le_refl (s.clock + cfg.cacheMillis)

/-- What a step does to the calls: one that starts comes last, and one that
goes on takes its next step. -/
theorem sessionStep_advance {s : Sessions} (hc : s.calls[k]? = some c) :
    sessionStep cfg s (.advance k ok) =
      { store := (c.next cfg k ok s.store).1, calls := s.calls.set k (c.next cfg k ok s.store).2 } := by
  dsimp only [sessionStep]
  rw [hc]

theorem sessionStep_advance_none {s : Sessions} (hc : s.calls[k]? = none) :
    sessionStep cfg s (.advance k ok) = s := by
  dsimp only [sessionStep]
  rw [hc]

/-- **What one step of anybody preserves.** -/
theorem sessionStep_ok {late : Nat → Prop} {s : Sessions} {op : SessionOp} (hop : TombstoneUnopposed s op)
    (hs : s.Ok cfg late) : (sessionStep cfg s op).Ok cfg late := by
  cases op with
  | tick millis =>
    have hg : ∀ k, s.store.Grows cfg k { s.store with clock := s.store.clock + millis } :=
      fun k => grows_tick k s.store millis
    refine ⟨ok_tick hs.store millis, fun j hj => (hg 0).isSealed (hs.isSealed j hj), fun j c hc => ?_⟩
    exact (hs.call j c hc).mono (Nat.ne_of_lt (Nat.lt_succ_self j)) (hg (j + 1))
  | start call =>
    refine ⟨hs.store, hs.isSealed, fun j c hc => ?_⟩
    rcases getElem?_concat_cases hc with hc | ⟨rfl, rfl⟩
    · exact hs.call j c hc
    · exact begin_ok call
  | advance k ok =>
    rcases hk : s.calls[k]? with - | c
    · rw [sessionStep_advance_none ok hk]
      exact hs
    rw [sessionStep_advance ok hk]
    obtain ⟨hg, hok, hcall⟩ := next_steps ok hs.store (hs.isSealed k) (hs.call k c hk) (hop c hk)
    refine ⟨hok, fun j hj => hg.isSealed (hs.isSealed j hj), fun j c' hc' => ?_⟩
    rcases getElem?_set_cases hc' with ⟨rfl, rfl⟩ | ⟨hj, hc'⟩
    · exact hcall
    · exact (hs.call j c' hc').mono hj hg

/-- Before any call. -/
theorem ok_start (cfg : SessionConfig) (clock : Int) :
    Sessions.Ok cfg (fun _ => False) { store := { clock := clock } } where
  store :=
    { version := by simp
      past := by rintro ⟨r, hr, -⟩; cases hr
      saw := by simp
      active := by simp }
  isSealed := fun _ h => h.elim
  call := by simp

/-- **Revoked sessions stay revoked.**  In every interleaving in which no
tombstone of `RevokeUserSession` meets a newer entry in the cache: once a
revocation has returned success, no `GetUserSessionCached` that starts later
returns the session. -/
theorem revoked_sessions_stay_revoked (cfg : SessionConfig) (clock : Int) (before after : List SessionOp)
    (hops : Along (sessionStep cfg) TombstoneUnopposed { store := { clock := clock } }
      (before ++ after))
    (hrevoked : ∃ k : Nat, (exec (sessionStep cfg) { store := { clock := clock } } before).calls[k]?
      = some (.ended .revoked)) (j : Nat) (x : UserSession)
    (hj : (exec (sessionStep cfg) { store := { clock := clock } } before).calls.length ≤ j) :
    (exec (sessionStep cfg) { store := { clock := clock } } (before ++ after)).calls[j]?
      ≠ some (.ended (.got x)) := by
  obtain ⟨hbefore, hafter⟩ := along_append.mp hops
  have hok := exec_inv_along (fun _ _ hop hs => sessionStep_ok hop hs) (ok_start cfg clock) hbefore
  obtain ⟨k, hk⟩ := hrevoked
  have hstart : (exec (sessionStep cfg) { store := { clock := clock } } before).Ok cfg
      ((exec (sessionStep cfg) { store := { clock := clock } } before).calls.length ≤ ·) := by
    refine ⟨hok.store, fun _ _ => hok.call k _ hk, fun i c hc => ?_⟩
    have hearly : ¬ _ ≤ i := not_le.mpr (List.getElem?_eq_some_iff.mp hc).1
    rw [show (_ ≤ i) = False from eq_false hearly]
    exact hok.call i c hc
  rw [exec_append]
  intro hgot
  exact (exec_inv_along (fun _ _ hop hs => sessionStep_ok hop hs) hstart hafter).call j _ hgot hj

/-- A session, as the login creates it. -/
def demoSession : UserSession where
  userId := 1
  userAuthVersion := 1
  refreshHash := "hash"
  expiresAt := 9000

/-- The session is created at second 1000 and revoked a second later. -/
def revokeSchedule : List SessionOp :=
  [.start (.createUserSession demoSession), .advance 0 true, .advance 0 true, .advance 0 true,
    .advance 0 true, .advance 0 true, .tick 1000, .start (.revokeUserSession 1 "logout"),
    .advance 1 true, .advance 1 true, .advance 1 true, .advance 1 true, .advance 1 true,
    .advance 1 true]

/-- After that a call finds the tombstone, and one two minutes later the row. -/
def readSchedule : List SessionOp :=
  [.start .getUserSessionCached, .advance 2 true, .tick 120000, .start .getUserSessionCached,
    .advance 3 true, .advance 3 true, .advance 3 true, .advance 3 true, .advance 3 true,
    .advance 3 true]

theorem revoked_sessions_stay_revoked_demo :
    (exec (sessionStep {}) { store := { clock := 1000000 } } revokeSchedule).calls[1]?
        = some (.ended .revoked) ∧
      ∀ x, (exec (sessionStep {}) { store := { clock := 1000000 } }
        (revokeSchedule ++ readSchedule)).calls[3]? ≠ some (.ended (.got x)) :=
  ⟨by decide +kernel, fun x =>
    revoked_sessions_stay_revoked {} 1000000 revokeSchedule readSchedule (by decide +kernel)
      ⟨1, by decide +kernel⟩ 3 x (by decide +kernel)⟩

/-- The session is revoked, but the transaction comes after the fence has
expired and the version was advanced meanwhile. -/
def lateTransactionSchedule : List SessionOp :=
  [.start (.createUserSession demoSession), .advance 0 true, .advance 0 true, .advance 0 true,
    .advance 0 true, .advance 0 true, .start (.revokeUserSession 1 "admin"), .advance 1 true,
    .advance 1 true, .advance 1 true, .tick 61000, .start (.advanceUserSessionAuthVersion 1 1 1 2),
    .advance 2 true, .advance 2 true, .advance 2 true, .advance 2 true, .tick 1000,
    .advance 1 true, .advance 1 true, .advance 1 true]

/-- `RevokeUserSession` returns success and the session is returned after that:
its tombstone, of version 1, is refused for the active entry of version 2. -/
theorem revoked_session_returned :
    (exec (sessionStep {}) { store := { clock := 1000000 } } lateTransactionSchedule).calls[1]?
        = some (.ended .revoked) ∧
      (exec (sessionStep {}) { store := { clock := 1000000 } } lateTransactionSchedule).calls.length
        = 3 ∧
      (exec (sessionStep {}) { store := { clock := 1000000 } } (lateTransactionSchedule ++
          [.tick 1000, .start .getUserSessionCached, .advance 3 true])).calls[3]?
        = some (.ended (.got
            { userId := 1, version := 2, userAuthVersion := 2, refreshHash := "", createdAt := 1000
              lastActiveAt := 1061, expiresAt := 9000 })) := by
  decide +kernel

end MicrossApi
