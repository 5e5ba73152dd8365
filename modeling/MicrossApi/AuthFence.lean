/-
MicrossApi/AuthFence.lean

Auth-version fencing (model/user_auth_cache.go, model/user_cache.go).  Redis
holds three keys per user: the cached user hash, a pending fence published
before a restrictive transaction, and the committed version floor.  Every
script and every database commit is one atomic step; a reader takes several
(`GetUserCache`: hash, floor, database row, floor again, fill), and any other
step may fall in between.

The model is of one user.  `π` is the type of the profile (group, email,
status, role, username, setting): the scripts move it as a whole.  A missing
key reads as zero, and versions written are positive.

Every script keeps `committed` from falling, and all but the expiry of the
fence keep the effective floor, the larger of fence and committed version,
from falling (`grows_…`).  A reader checks the version it is about to return
against a floor it reads after the version, so a version it returns is at
least every floor published before that check.
-/
import Mathlib.Algebra.Order.Group.Int
import MicrossApi.Database
import MicrossApi.StepSystem

namespace MicrossApi

open StepSystem

variable {π : Type}

/-! ### Keys and scripts -/

/-- `UserBase`, or the row of the user it is read from. -/
structure UserBase (π : Type) where
  profile : π
  quota : Int
  authVersion : Int

/-- The cached user hash. -/
structure UserHash (π : Type) where
  profile : π
  quota : Option Int
  authVersion : Int
  cacheSchema : Int

/-- The three Redis keys of one user; zero stands for a missing version. -/
structure AuthKeys (π : Type) where
  hash : Option (UserHash π) := none
  pending : Int := 0
  committed : Int := 0

/-- `userCacheSchemaVersion`. -/
def userCacheSchemaVersion : Int := 2

variable (k : AuthKeys π)

/-- The `AuthVersion` field of the hash. -/
def AuthKeys.current : Int := ((k.hash.map (·.authVersion)).getD 0)

/-- `getUserAuthVersionFloor`. -/
def AuthKeys.floor : Int := max 0 (max k.pending k.committed)

/-- The lines all writing scripts share: raise the committed version to
`incoming` and drop a fence it has reached. -/
def AuthKeys.promote (incoming : Int) : AuthKeys π :=
  { k with
    committed := if k.committed < incoming then incoming else k.committed
    pending := if 0 < k.pending ∧ k.pending ≤ incoming then 0 else k.pending }

/-- The cached hash after `HSET` of a whole user: the quota is only filled in,
never overwritten. -/
def UserHash.written (old : Option (UserHash π)) (u : UserBase π) (includeQuota : Bool) : UserHash π :=
  { profile := u.profile
    authVersion := u.authVersion
    cacheSchema := userCacheSchemaVersion
    quota :=
      match old.bind (·.quota) with
      | some q => some q
      | none => if includeQuota then some u.quota else none }

/-- `writeUserCache`. -/
def writeUserCache (u : UserBase π) (includeQuota : Bool) (k : AuthKeys π) : Except Err Unit × AuthKeys π :=
  let incoming := u.authVersion
  if incoming ≤ 0 then (.error (.text "invalid user auth version"), k)
  else if incoming < k.pending ∨ incoming < k.committed ∨ incoming < k.current then
    (.error .userAuthCachePending, k)
  else
    let k' := k.promote incoming
    if includeQuota = false ∧ k.hash.isNone then (.ok (), k')
    else (.ok (), { k' with hash := some (UserHash.written k.hash u includeQuota) })

/-- `updateUserCacheFieldAtVersion`: one field, and only in a hash of the same
version. -/
def updateUserCacheFieldAtVersion (set : π → π) (authVersion : Int) (k : AuthKeys π) :
    Except Err Unit × AuthKeys π :=
  if authVersion ≤ 0 then (.error (.text "invalid user auth version"), k)
  else if authVersion < k.pending ∨ authVersion < k.committed ∨ authVersion < k.current then
    (.error .userAuthCachePending, k)
  else
    let k' := k.promote authVersion
    match k.hash with
    | none => (.ok (), k')
    | some h =>
      if h.authVersion ≠ authVersion then (.ok (), k')
      else
        (.ok (), { k' with
          hash := some { h with profile := set h.profile, cacheSchema := userCacheSchemaVersion } })

/-- `SetUserAuthVersionFence`; the time to live is left to `expireFence`. -/
def setUserAuthVersionFence (authVersion : Int) (k : AuthKeys π) : Except Err Unit × AuthKeys π :=
  if authVersion ≤ 0 then (.error (.text "invalid user auth fence"), k)
  else if k.pending < authVersion then (.ok (), { k with pending := authVersion })
  else (.ok (), k)

/-- `publishCommittedUserAuthVersion`. -/
def publishCommittedUserAuthVersion (authVersion : Int) (k : AuthKeys π) : Except Err Unit × AuthKeys π :=
  if authVersion ≤ 0 then (.error (.text "invalid committed user auth version"), k)
  else (.ok (), k.promote authVersion)

/-! ### Readers -/

/-- How far a `GetUserCache` has come, with the floors it has seen, the latest
first. -/
inductive CacheRead (π : Type) where
  | idle
  /-- the hash is read and well formed, its version is still to be checked -/
  | hashed (u : UserBase π)
  /-- the cache has nothing to offer, the database is next -/
  | missed (seen : List Int)
  | fetched (u : UserBase π) (seen : List Int)
  /-- the row's version is checked, the cache is still to be filled -/
  | checked (u : UserBase π) (seen : List Int)
  | returned (u : UserBase π) (seen : List Int)
  | refused (e : Err) (seen : List Int)

/-- What `cacheGetUserBase` makes of the hash before the floor is read. -/
def AuthKeys.readHash : CacheRead π :=
  match k.hash with
  | none => .missed []
  | some h =>
    if h.cacheSchema ≠ userCacheSchemaVersion ∨ h.authVersion ≤ 0 then .missed []
    else .hashed ⟨h.profile, h.quota.getD 0, h.authVersion⟩

/-- The next step of a `GetUserCache`, with the keys it leaves.  `row` is the
user in the database, `found` whether `GetUserById` succeeds. -/
def CacheRead.next (k : AuthKeys π) (row : UserBase π) (found : Bool) : CacheRead π → CacheRead π × AuthKeys π
  | .idle => (k.readHash, k)
  | .hashed u =>
    if u.authVersion < k.floor then (.missed [k.floor], k) else (.returned u [k.floor], k)
  | .missed seen => (if found then .fetched row seen else .refused .recordNotFound seen, k)
  | .fetched u seen =>
    if u.authVersion < k.floor then (.refused .userAuthCachePending (k.floor :: seen), k)
    else (.checked u (k.floor :: seen), k)
  | .checked u seen =>
    match writeUserCache u true k with
    | (.error .userAuthCachePending, k') => (.refused .userAuthCachePending seen, k')
    | (_, k') => (.returned u seen, k') -- any other error is only logged
  | .returned _ _ => (.idle, k)
  | .refused _ _ => (.idle, k)

/-! ### The system -/

/-- Redis, the row in the database, the bump in flight (its transaction holds
the row lock, so there is one at most), the snapshots handed to cache fills
that have not arrived yet, and the readers. -/
structure AuthState (π : Type) where
  keys : AuthKeys π := {}
  row : UserBase π
  bump : Option Int := none
  snapshots : List (UserBase π) := []
  reads : Nat → CacheRead π := fun _ => .idle

/-- The atomic steps. -/
inductive AuthOp (π : Type) where
  /-- some process reads the row, to fill the cache with it later -/
  | snapshot
  /-- `populateUserCache` or `updateUserCache` with the `i`-th snapshot -/
  | fill (i : Nat) (includeQuota : Bool)
  /-- `updateUserCacheFieldAtVersion` at the version of the `i`-th snapshot -/
  | fillField (i : Nat) (set : π → π)
  | fence (authVersion : Int)
  /-- `IncrementUserAuthVersionWithTx` up to the decision of the transaction -/
  | beginBump
  | commitBump (profile : π)
  | rollbackBump
  /-- a commit that leaves the version alone -/
  | update (profile : π) (quota : Int)
  | publish (authVersion : Int)
  /-- expiry or deletion of the user hash -/
  | expireHash
  | expireFence
  | read (r : Nat) (found : Bool)

variable (st : AuthState π)

/-- The state after one step. -/
def authStep : AuthOp π → AuthState π
  | .snapshot => { st with snapshots := st.snapshots ++ [st.row] }
  | .fill i includeQuota =>
    match st.snapshots[i]? with
    | none => st
    | some u => { st with keys := (writeUserCache u includeQuota st.keys).2 }
  | .fillField i set =>
    match st.snapshots[i]? with
    | none => st
    | some u => { st with keys := (updateUserCacheFieldAtVersion set u.authVersion st.keys).2 }
  | .fence v => { st with keys := (setUserAuthVersionFence v st.keys).2 }
  | .beginBump =>
    match st.bump with
    | some _ => st -- the row is locked
    | none =>
      let next := max 1 st.row.authVersion + 1
      { st with keys := (setUserAuthVersionFence next st.keys).2, bump := some next }
  | .commitBump profile =>
    match st.bump with
    | none => st
    | some next => { st with row := { st.row with authVersion := next, profile }, bump := none }
  | .rollbackBump => { st with bump := none }
  | .update profile quota => { st with row := { st.row with profile, quota } }
  | .publish v =>
    -- only a version the database has committed is published
    if v ≤ st.row.authVersion then
      { st with keys := (publishCommittedUserAuthVersion v st.keys).2 }
    else st
  | .expireHash => { st with keys := { st.keys with hash := none } }
  | .expireFence => { st with keys := { st.keys with pending := 0 } }
  | .read r found =>
    let n := (st.reads r).next st.keys st.row found
    { st with keys := n.2, reads := Function.update st.reads r n.1 }

/-! ### Floors never fall -/

/-- From one state of the keys to the next neither the committed version nor
the effective floor falls. -/
structure AuthKeys.Grows (k k' : AuthKeys π) : Prop where
  committed : k.committed ≤ k'.committed
  floor : k.floor ≤ k'.floor

theorem AuthKeys.Grows.refl : k.Grows k := ⟨le_rfl, le_rfl⟩

variable (v : Int)

/-- A fence is dropped only where the committed version has reached it. -/
theorem grows_promote : k.Grows (k.promote v) := by
  refine ⟨?_, ?_⟩
  · show k.committed ≤ if k.committed < v then v else k.committed
    split <;> omega
  · show max 0 (max k.pending k.committed)
      ≤ max 0 (max (if 0 < k.pending ∧ k.pending ≤ v then 0 else k.pending)
          (if k.committed < v then v else k.committed))
    split <;> split <;> omega

/-- The hash does not enter the floors. -/
theorem AuthKeys.Grows.hash {k k' : AuthKeys π} (h : k.Grows k') (x : Option (UserHash π)) :
    k.Grows { k' with hash := x } := ⟨h.committed, h.floor⟩

theorem grows_writeUserCache (u : UserBase π) (includeQuota : Bool) :
    k.Grows (writeUserCache u includeQuota k).2 := by
  unfold writeUserCache
  dsimp only
  split
  · exact .refl k
  split
  · exact .refl k
  split
  · exact grows_promote k _
  · exact (grows_promote k _).hash _

theorem grows_updateUserCacheFieldAtVersion (set : π → π) (v : Int) :
    k.Grows (updateUserCacheFieldAtVersion set v k).2 := by
  unfold updateUserCacheFieldAtVersion
  split
  · exact .refl k
  split
  · exact .refl k
  split
  · exact grows_promote k v
  split
  · exact grows_promote k v
  · exact (grows_promote k v).hash _

theorem grows_setUserAuthVersionFence :
    k.Grows (setUserAuthVersionFence v k).2 := by
  unfold setUserAuthVersionFence
  split
  · exact .refl k
  split
  · refine ⟨le_rfl, ?_⟩
    show max 0 (max k.pending k.committed) ≤ max 0 (max v k.committed)
    omega
  · exact .refl k

theorem grows_publishCommittedUserAuthVersion :
    k.Grows (publishCommittedUserAuthVersion v k).2 := by
  unfold publishCommittedUserAuthVersion
  split
  · exact .refl k
  · exact grows_promote k v

/-- A reader writes to Redis in its last step only. -/
theorem grows_next (row : UserBase π) (found : Bool) (c : CacheRead π) : k.Grows (c.next k row found).2 := by
  cases c with
  | idle | missed | returned | refused => exact .refl k
  | hashed | fetched =>
    simp only [CacheRead.next]
    split <;> exact .refl k
  | checked u =>
    have h := grows_writeUserCache k u true
    simp only [CacheRead.next]
    split
    next hw =>
      rw [hw] at h
      exact h
    next hw =>
      rw [hw] at h
      exact h

theorem grows_authStep {op : AuthOp π} (hop : op ≠ .expireFence) : st.keys.Grows (authStep st op).keys := by
  cases op with
  | snapshot => exact .refl _
  | fill =>
    simp only [authStep]
    split
    · exact .refl _
    · exact grows_writeUserCache ..
  | fillField =>
    simp only [authStep]
    split
    · exact .refl _
    · exact grows_updateUserCacheFieldAtVersion ..
  | fence => exact grows_setUserAuthVersionFence _ _
  | beginBump =>
    simp only [authStep]
    split
    · exact .refl _
    · exact grows_setUserAuthVersionFence _ _
  | commitBump =>
    simp only [authStep]
    split <;> exact .refl _
  | rollbackBump | update => exact .refl _
  | publish =>
    simp only [authStep]
    split
    · exact grows_publishCommittedUserAuthVersion _ _
    · exact .refl _
  | expireHash => exact (AuthKeys.Grows.refl _).hash none
  | expireFence => exact absurd rfl hop
  | read => exact grows_next ..

/-- The committed version never falls, whatever expires. -/
theorem committed_le_authStep (op : AuthOp π) : st.keys.committed ≤ (authStep st op).keys.committed := by
  by_cases hop : op = .expireFence
  · subst hop
    exact le_rfl
  · exact (grows_authStep st hop).committed

theorem committed_le_floor : k.committed ≤ k.floor :=
  (le_max_right _ _).trans (le_max_right _ _)

/-! ### What a reader returns -/

/-- The version the reader has settled on, if it has. -/
def CacheRead.settledOn : CacheRead π → Option Int
  | .checked u _ => some u.authVersion
  | .returned u _ => some u.authVersion
  | _ => none

/-- The floors the reader has seen, the latest first. -/
def CacheRead.seen : CacheRead π → List Int
  | .missed seen => seen
  | .fetched _ seen => seen
  | .checked _ seen => seen
  | .returned _ seen => seen
  | .refused _ seen => seen
  | _ => []

variable {c : CacheRead π} {v : Int}

/-- The step in which a reader settles on a version is the one in which it
reads the floor, and the floor is not above that version; otherwise it keeps
the version it had settled on. -/
theorem settledOn_next {k : AuthKeys π} {row : UserBase π} {found : Bool}
    (h : (c.next k row found).1.settledOn = some v) :
    (k.floor ≤ v ∧ (c.next k row found).1.seen = k.floor :: c.seen) ∨
      (c.settledOn = some v ∧ (c.next k row found).1.seen = c.seen) := by
  cases c with
  | idle =>
    simp only [CacheRead.next, AuthKeys.readHash] at h
    split at h
    · cases h
    · split at h <;> cases h
  | hashed | fetched =>
    simp only [CacheRead.next] at h ⊢
    split at h
    · cases h
    rename_i hfloor
    rw [if_neg hfloor]
    cases h
    exact Or.inl ⟨not_lt.mp hfloor, rfl⟩
  | missed =>
    simp only [CacheRead.next] at h
    split at h <;> cases h
  | checked =>
    simp only [CacheRead.next] at h ⊢
    split at h
    · cases h
    · exact Or.inr ⟨h, rfl⟩
  | returned | refused => cases h

/-- Before it settles, a reader has seen no floor above the present one;
afterwards none above its version. -/
def CacheRead.Respects (k : AuthKeys π) : CacheRead π → Prop
  | .missed seen => ∀ f ∈ seen, f ≤ k.floor
  | .fetched _ seen => ∀ f ∈ seen, f ≤ k.floor
  | .checked u seen => ∀ f ∈ seen, f ≤ u.authVersion
  | .returned u seen => ∀ f ∈ seen, f ≤ u.authVersion
  | _ => True

theorem CacheRead.Respects.mono {k k' : AuthKeys π} (h : c.Respects k)
    (hk : k.floor ≤ k'.floor) : c.Respects k' := by
  cases c with
  | missed | fetched => exact fun f hf => (h f hf).trans hk
  | checked | returned => exact h
  | _ => exact trivial

theorem CacheRead.Respects.next {k : AuthKeys π} (h : c.Respects k)
    (row : UserBase π) (found : Bool) : (c.next k row found).1.Respects k := by
  cases c with
  | idle =>
    simp only [CacheRead.next, AuthKeys.readHash]
    split
    · rintro f ⟨⟩
    split
    · rintro f ⟨⟩
    · exact trivial
  | hashed =>
    simp only [CacheRead.next]
    split
    · intro f hf
      rw [List.mem_singleton.mp hf]
    rename_i hfloor
    intro f hf
    rw [List.mem_singleton.mp hf]
    exact not_lt.mp hfloor
  | missed =>
    simp only [CacheRead.next]
    split
    · exact h
    · exact trivial
  | fetched =>
    simp only [CacheRead.next]
    split
    · exact trivial
    rename_i hfloor
    -- the floor has only grown since the earlier reading
    intro f hf
    rcases List.mem_cons.mp hf with rfl | hmem
    · exact not_lt.mp hfloor
    · exact (h f hmem).trans (not_lt.mp hfloor)
  | checked =>
    simp only [CacheRead.next]
    split
    · exact trivial
    · exact h
  | returned | refused => exact trivial

/-- The latest floor a settled reader has seen is not above its version. -/
def CacheRead.LastRespected (c : CacheRead π) : Prop :=
  ∀ v, c.settledOn = some v → ∃ f rest, c.seen = f :: rest ∧ f ≤ v

theorem CacheRead.LastRespected.next {k : AuthKeys π} (h : c.LastRespected)
    (row : UserBase π) (found : Bool) : (c.next k row found).1.LastRespected := by
  intro v hv
  obtain ⟨hfloor, hseen⟩ | ⟨hold, hseen⟩ := settledOn_next hv
  · exact ⟨k.floor, c.seen, hseen, hfloor⟩
  · rw [hseen]
    exact h v hold

/-- A settled reader's version is at least `v`. -/
def CacheRead.AtLeast (v : Int) (c : CacheRead π) : Prop :=
  ∀ w, c.settledOn = some w → v ≤ w

theorem CacheRead.AtLeast.next {k : AuthKeys π}
    (h : c.AtLeast v) (hv : v ≤ k.committed) (row : UserBase π) (found : Bool) :
    (c.next k row found).1.AtLeast v := by
  intro w hw
  obtain ⟨hfloor, -⟩ | ⟨hold, -⟩ := settledOn_next hw
  · exact (hv.trans (committed_le_floor k)).trans hfloor
  · exact h w hold

/-! ### Steps and runs -/

theorem reads_authStep (op : AuthOp π) (r : Nat) : (authStep st op).reads r = st.reads r ∨
      ∃ found, op = .read r found ∧
        (authStep st op).reads r = ((st.reads r).next st.keys st.row found).1 := by
  cases op with
  | read r' found =>
    by_cases hr : r = r'
    · subst hr
      exact Or.inr ⟨found, rfl, Function.update_self _ _ _⟩
    · exact Or.inl (Function.update_of_ne hr _ _)
  | fill | fillField | beginBump | commitBump | publish =>
    left
    simp only [authStep]
    split <;> rfl
  | _ => exact Or.inl rfl

theorem reads_authStep_inv {P : CacheRead π → Prop} {st : AuthState π} {r : Nat} (h : P (st.reads r))
    (hnext : ∀ found, P ((st.reads r).next st.keys st.row found).1) (op : AuthOp π) :
    P ((authStep st op).reads r) := by
  obtain e | ⟨found, -, e⟩ := reads_authStep st op r
  · rw [e]
    exact h
  · rw [e]
    exact hnext found

variable {st : AuthState π} {r : Nat}

theorem lastRespected_run (h : (st.reads r).LastRespected)
    (ops : List (AuthOp π)) : ((exec authStep st ops).reads r).LastRespected := by
  refine exec_inv (I := fun st : AuthState π => (st.reads r).LastRespected) ?_ h ops
  intro st op hst
  exact reads_authStep_inv hst (fun found => hst.next st.row found) op

theorem respects_run (h : (st.reads r).Respects st.keys)
    {ops : List (AuthOp π)} (hops : ∀ op ∈ ops, op ≠ .expireFence) :
    ((exec authStep st ops).reads r).Respects (exec authStep st ops).keys := by
  induction ops generalizing st with
  | nil => exact h
  | cons op ops ih =>
    have hop := hops op (List.mem_cons_self ..)
    refine ih ?_ fun op' hop' => hops op' (List.mem_cons_of_mem _ hop')
    have hstep : ((authStep st op).reads r).Respects st.keys :=
      reads_authStep_inv h (fun found => h.next st.row found) op
    exact hstep.mono (grows_authStep st hop).floor

theorem atLeast_run (hv : v ≤ st.keys.committed) (h : (st.reads r).AtLeast v) (ops : List (AuthOp π)) :
    v ≤ (exec authStep st ops).keys.committed ∧ ((exec authStep st ops).reads r).AtLeast v := by
  refine exec_inv
    (I := fun st : AuthState π => v ≤ st.keys.committed ∧ (st.reads r).AtLeast v) ?_ ⟨hv, h⟩ ops
  rintro st op ⟨hv, h⟩
  exact ⟨hv.trans (committed_le_authStep st op),
    reads_authStep_inv h (fun found => h.next hv st.row found) op⟩

theorem committed_publish (hpos : 0 < v)
    (hv : v ≤ st.row.authVersion) : v ≤ (authStep st (.publish v)).keys.committed := by
  simp only [authStep, hv, publishCommittedUserAuthVersion, not_le.mpr hpos]
  show v ≤ if st.keys.committed < v then v else st.keys.committed
  split <;> omega

/-! ### Fencing -/

/-- **Auth-version fencing.**  From any state without reads in flight and over
every interleaving of fills, fences, bumps, publications, expiries and the
steps of any number of readers: the committed floor never falls; a reader
returns a version not below the floor it checked it against, nor, while no
fence expires, below any floor it saw before; and a read that starts when `v`
has been published as committed returns a version of at least `v`, however
late a stale fill arrives.  Publishing a version the database has committed
raises the floor to it. -/
theorem auth_version_fencing (st₀ : AuthState π) (hidle : ∀ r, st₀.reads r = .idle) (ops : List (AuthOp π)) :
    (∀ before after, ops = before ++ after →
      (exec authStep st₀ before).keys.committed ≤ (exec authStep st₀ ops).keys.committed) ∧
    (∀ r u seen, (exec authStep st₀ ops).reads r = .returned u seen →
      (∃ f rest, seen = f :: rest ∧ f ≤ u.authVersion) ∧
      ((∀ op ∈ ops, op ≠ .expireFence) → ∀ f ∈ seen, f ≤ u.authVersion)) ∧
    (∀ before after v, ops = before ++ after → v ≤ (exec authStep st₀ before).keys.committed →
      ∀ r, (exec authStep st₀ before).reads r = .idle →
      ∀ u seen, (exec authStep st₀ ops).reads r = .returned u seen → v ≤ u.authVersion) ∧
    ∀ (st : AuthState π) v, 0 < v → v ≤ st.row.authVersion →
      v ≤ (authStep st (.publish v)).keys.committed := by
  refine ⟨?_, ?_, ?_, fun st v hpos hv => committed_publish hpos hv⟩
  · rintro before after rfl
    rw [exec_append]
    refine exec_inv (I := fun st : AuthState π =>
      (exec authStep st₀ before).keys.committed ≤ st.keys.committed) ?_ le_rfl after
    intro st op h
    exact h.trans (committed_le_authStep st op)
  · intro r u seen hret
    refine ⟨?_, fun hops => ?_⟩
    · have hlast : (st₀.reads r).LastRespected := by
        intro v hv
        rw [hidle r] at hv
        cases hv
      have h := lastRespected_run hlast ops u.authVersion (by rw [hret]; rfl)
      rw [hret] at h
      exact h
    · have hresp : (st₀.reads r).Respects st₀.keys := by
        rw [hidle r]
        exact trivial
      have h := respects_run hresp hops
      rw [hret] at h
      exact h
  · rintro before after v rfl hv r hr u seen hret
    rw [exec_append] at hret
    have hleast : ((exec authStep st₀ before).reads r).AtLeast v := by
      intro w hw
      rw [hr] at hw
      cases hw
    exact (atLeast_run hv hleast after).2 u.authVersion (by rw [hret]; rfl)

/-- A user at version 1, and a bump whose publication is followed by the fill
of a snapshot taken before it. -/
def versionOne : AuthState Unit := { row := ⟨(), 100, 1⟩ }

def lateFill : List (AuthOp Unit) :=
  [.snapshot, .beginBump, .commitBump (), .publish 2, .fill 0 true, .read 0 true, .read 0 true,
    .read 0 true, .read 0 true]

theorem auth_version_fencing_lateFill :
    (exec authStep versionOne lateFill).reads 0 = .returned ⟨(), 100, 2⟩ [2] ∧
      (2 : Int) ≤ (⟨(), 100, 2⟩ : UserBase Unit).authVersion := by
  have hret : (exec authStep versionOne lateFill).reads 0 = .returned ⟨(), 100, 2⟩ [2] := by
    rfl
  have h := auth_version_fencing versionOne (fun _ => rfl) lateFill
  exact ⟨hret, h.2.2.1 (lateFill.take 4) (lateFill.drop 4) 2 rfl (by decide) 0 rfl _ _ hret⟩

end MicrossApi
