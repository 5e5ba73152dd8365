/-
MicrossApi/GroupCache.lean

The cached group of a user (`RefreshUserGroupCache`, model/user_cache.go).  A
change of the group leaves the auth version alone, so a refresh that has read
an older group passes the fence like any other and may overwrite a newer one.
Each refresh therefore reads the group again after it has written it, up to
three times.

The model is of one user: the row, the Redis keys of `AuthFence`, and the
refreshes as threads; every read, every script and every second read is a step.
The store remembers, as a ghost, whether the group has changed since the last
refresh started.

Whoever wrote the group in the hash either finds it confirmed or writes again,
so a wrong group is always answered for: a refresh is still owed, or one of
them is not done (`Answered`).
-/
import MicrossApi.AuthFence
import MicrossApi.Interleaving

namespace MicrossApi

open List StepSystem Interleaving

variable {ρ : Type}

/-! ### The refresh -/

/-- The cached profile: the group, and the fields a refresh does not touch. -/
structure CachedProfile (ρ : Type) where
  group : String
  rest : ρ

/-- The keys, the row, and whether a refresh is owed since the group changed. -/
structure GroupStore (ρ : Type) where
  keys : AuthKeys (CachedProfile ρ) := {}
  group : String
  authVersion : Int
  owed : Bool := true

/-- What `cacheGetUserBase` offers as the group. -/
def GroupStore.cachedGroup (s : GroupStore ρ) : Option String :=
  match s.keys.readHash with
  | .hashed u => if u.authVersion < s.keys.floor then none else some u.profile.group
  | _ => none

/-- Where a `RefreshUserGroupCache` is, with what it has read last and how
often it may still try. -/
inductive GroupRefresh where
  | read
  | write (group : String) (authVersion : Int) (left : Nat)
  | verify (group : String) (authVersion : Int) (left : Nat)
  /-- the write after the last try -/
  | lastWrite (group : String) (authVersion : Int)
  | ended (result : Except Err Unit)

/-- `updateUserCacheFieldAtVersion` with the group. -/
def GroupStore.writeGroup (s : GroupStore ρ) (group : String) (authVersion : Int) :
    Except Err Unit × GroupStore ρ :=
  let r := updateUserCacheFieldAtVersion (fun c => { c with group := group }) authVersion s.keys
  (r.1, { s with keys := r.2 })

/-- The next step of a refresh; `ok` is whether the database or Redis answers. -/
def GroupRefresh.next (ok : Bool) (s : GroupStore ρ) : GroupRefresh → GroupStore ρ × GroupRefresh
  | .read => if ok then (s, .write s.group s.authVersion 2) else (s, .ended (.error .db))
  | .write group authVersion left =>
    if ok = false then (s, .ended (.error .redis))
    else
      match s.writeGroup group authVersion with
      | (.error e, s') => (s', .ended (.error e))
      | (.ok (), s') => (s', .verify group authVersion left)
  | .verify group authVersion left =>
    if ok = false then (s, .ended (.error .db))
    else if s.authVersion = authVersion ∧ s.group = group then (s, .ended (.ok ()))
    else
      match left with
      | 0 => (s, .lastWrite s.group s.authVersion)
      | left + 1 => (s, .write s.group s.authVersion left)
  | .lastWrite group authVersion =>
    if ok = false then (s, .ended (.error .redis))
    else
      match s.writeGroup group authVersion with
      | (.error e, s') => (s', .ended (.error e))
      | (.ok (), s') =>
        (s', .ended (.error (.text "user group changed repeatedly during cache refresh")))
  | .ended result => (s, .ended result)

/-- The group is changed in the database, or a key expires. -/
inductive GroupEvent where
  | change (group : String)
  | expireHash
  | expireFence

/-- The system of one user. -/
def groupProgram (userId : Int) : Program (GroupStore ρ) GroupRefresh GroupEvent Unit Bool where
  event s
    | .change group => { s with group := group, owed := true }
    | .expireHash => { s with keys := { s.keys with hash := none } }
    | .expireFence => { s with keys := { s.keys with pending := 0 } }
  start s _ :=
    ({ s with owed := false },
      if userId ≤ 0 then .ended (.error (.text "invalid user id")) else .read)
  next _ ok s t := t.next ok s

/-! ### What a write does -/

section Write

variable {π : Type} {v : Int}

/-- The script refuses and changes nothing, or it raises the committed version
and sets the field in a hash of its version. -/
theorem updateUserCacheFieldAtVersion_cases (set : π → π) (v : Int) (k : AuthKeys π) :
    (∃ e, updateUserCacheFieldAtVersion set v k = (.error e, k)) ∨
      (0 < v ∧ k.current ≤ v ∧ ∃ hash, updateUserCacheFieldAtVersion set v k =
          (.ok (), { k.promote v with hash := hash }) ∧
        ((hash = k.hash ∧ ∀ h, k.hash = some h → h.authVersion ≠ v) ∨
          ∃ h, k.hash = some h ∧ h.authVersion = v ∧
            hash = some { h with profile := set h.profile, cacheSchema := userCacheSchemaVersion })) := by
  unfold updateUserCacheFieldAtVersion
  split
  · exact .inl ⟨_, rfl⟩
  rename_i hpos
  split
  · exact .inl ⟨_, rfl⟩
  rename_i hfloor
  refine .inr ⟨not_le.mp hpos, not_lt.mp fun h => hfloor (.inr (.inr h)), ?_⟩
  split
  next hhash =>
    refine ⟨none, ?_, .inl ⟨hhash.symm, by simp [hhash]⟩⟩
    show (_, k.promote v) = (_, { k.promote v with hash := none })
    rw [← hhash]
    rfl
  next h hhash =>
    split
    next hne =>
      refine ⟨some h, ?_, .inl ⟨hhash.symm, fun h' hh' => ?_⟩⟩
      · show (_, k.promote v) = (_, { k.promote v with hash := some h })
        rw [← hhash]
        rfl
      · rw [hhash] at hh'
        cases hh'
        exact hne
    next heq =>
      exact ⟨_, rfl, .inr ⟨h, hhash, not_not.mp heq, rfl⟩⟩

end Write

variable {s s' : GroupStore ρ} {group : String} {v : Int}

/-- What a step does to the version, the floor and the age of the hash. -/
structure GroupStore.Keeps (s s' : GroupStore ρ) : Prop where
  authVersion : s'.authVersion = s.authVersion
  committed : s.keys.committed ≤ s'.keys.committed
  current : s'.keys.current = s.keys.current ∨ s'.keys.current = 0

theorem GroupStore.Keeps.refl (s : GroupStore ρ) : s.Keeps s := ⟨rfl, le_rfl, .inl rfl⟩

theorem writeGroup_ok (h : s.writeGroup group v = (.ok (), s')) :
    s.Keeps s' ∧ s'.group = s.group ∧ s'.owed = s.owed ∧ 0 < v ∧ v ≤ s'.keys.committed ∧ s'.keys.current ≤ v ∧
      ∀ x, s'.keys.hash = some x → x.authVersion = v → x.profile.group = group := by
  obtain ⟨hok, rfl⟩ := Prod.mk.inj h
  rcases updateUserCacheFieldAtVersion_cases (fun c => { c with group := group }) v s.keys with
    ⟨e, he⟩ | ⟨hpos, hle, hash, hw, hhash⟩
  · rw [he] at hok
    cases hok
  rw [hw]
  have hcurrent : ({ s.keys.promote v with hash := hash } : AuthKeys _).current = s.keys.current := by
    rcases hhash with ⟨rfl, -⟩ | ⟨x, hx, -, rfl⟩
    · rfl
    unfold AuthKeys.current
    rw [hx]
    rfl
  refine ⟨⟨rfl, (grows_promote s.keys v).committed, .inl hcurrent⟩, rfl, rfl, hpos, ?_, ?_, ?_⟩
  · show v ≤ if s.keys.committed < v then v else s.keys.committed
    split <;> omega
  · exact hcurrent.le.trans hle
  · intro x hx hv
    rcases hhash with ⟨rfl, hne⟩ | ⟨y, -, -, rfl⟩
    · exact absurd hv (hne x hx)
    · cases hx
      rfl

theorem writeGroup_error {e : Err} (h : s.writeGroup group v = (.error e, s')) : s' = s := by
  obtain ⟨herror, rfl⟩ := Prod.mk.inj h
  rcases updateUserCacheFieldAtVersion_cases (fun c => { c with group := group }) v s.keys with
    ⟨e, he⟩ | ⟨-, -, hash, hw, -⟩
  · rw [he]
  · rw [hw] at herror
    cases herror

/-! ### Who answers for the hash -/

/-- A refresh that will still write, or find out that `group` is wrong, or that
has failed. -/
def GroupRefresh.AnswersFor (group : String) : GroupRefresh → Prop
  | .read | .write .. | .lastWrite .. => True
  | .verify g _ _ => g = group
  | .ended result => result ≠ .ok ()

/-- A wrong group in the hash is answered for. -/
def Answered (p : Pool (GroupStore ρ) GroupRefresh) : Prop :=
  ∀ h, p.shared.keys.hash = some h → h.authVersion = p.shared.authVersion →
    h.profile.group ≠ p.shared.group →
      p.shared.owed = true ∨ ∃ (j : Nat) (t : GroupRefresh),
        p.threads[j]? = some t ∧ t.AnswersFor h.profile.group

/-- A refresh whose write was let in has raised the committed version, and
found no newer hash. -/
def GroupRefresh.Ok (s : GroupStore ρ) : GroupRefresh → Prop
  | .read => True
  | .write _ v _ | .lastWrite _ v => v = s.authVersion
  | .verify _ v _ => v = s.authVersion ∧ 0 < v ∧ v ≤ s.keys.committed ∧ s.keys.current ≤ v
  | .ended (.ok ()) => 0 < s.authVersion ∧ s.authVersion ≤ s.keys.committed ∧
      s.keys.current ≤ s.authVersion
  | .ended (.error _) => True

/-- The invariant of the system. -/
structure GroupInv (p : Pool (GroupStore ρ) GroupRefresh) : Prop where
  answered : Answered p
  threads : Holds (fun _ => True) (fun s _ t => t.Ok s) p
  /-- a refresh that is not owed was started -/
  started : p.shared.owed = false → p.threads ≠ []

variable {t : GroupRefresh}

theorem GroupRefresh.Ok.mono (h : t.Ok s) (hs : s.Keeps s') : t.Ok s' := by
  obtain ⟨hversion, hcommitted, hcurrent⟩ := hs
  cases t with
  | read => trivial
  | write | lastWrite => exact Eq.trans h hversion.symm
  | verify =>
    obtain ⟨hv, hpos, hle, hcur⟩ := h
    exact ⟨hv.trans hversion.symm, hpos, hle.trans hcommitted, by omega⟩
  | ended result =>
    cases result with
    | error => trivial
    | ok =>
      obtain ⟨hpos, hle, hcur⟩ := h
      refine ⟨?_, ?_, ?_⟩ <;> rw [hversion]
      · exact hpos
      · exact hle.trans hcommitted
      · omega

/-- What one step of a refresh, from `t` to `t'`, does.  Either it answers for
the group in the hash afterwards, or it leaves the store alone and did not
answer for a wrong group before. -/
structure RefreshStep (s : GroupStore ρ) (t : GroupRefresh) (s' : GroupStore ρ) (t' : GroupRefresh) :
    Prop where
  keeps : s.Keeps s'
  group : s'.group = s.group
  owed : s'.owed = s.owed
  ok : t'.Ok s'
  answers : (∀ h, s'.keys.hash = some h → h.authVersion = s.authVersion →
      t'.AnswersFor h.profile.group) ∨
    (s' = s ∧ ∀ g, t.AnswersFor g → g ≠ s.group → t'.AnswersFor g)

theorem next_refresh (ok : Bool) (ht : t.Ok s) :
    RefreshStep s t (t.next ok s).1 (t.next ok s).2 := by
  have hfails : ∀ e, RefreshStep s t s (.ended (.error e)) := fun _ =>
    ⟨.refl s, rfl, rfl, trivial, .inl fun _ _ _ => nofun⟩
  cases t with
  | read =>
    dsimp only [GroupRefresh.next]
    split
    · exact ⟨.refl s, rfl, rfl, rfl, .inl fun _ _ _ => trivial⟩
    · exact hfails _
  | write g v =>
    dsimp only [GroupRefresh.next]
    split
    · exact hfails _
    split
    next e s' hw =>
      rw [writeGroup_error hw]
      exact hfails _
    rename_i s' hw
    obtain ⟨hkeeps, hgroup, howed, hpos, hle, hcur, hhash⟩ := writeGroup_ok hw
    have hv : v = s.authVersion := ht
    refine ⟨hkeeps, hgroup, howed, ⟨hv.trans hkeeps.authVersion.symm, hpos, hle, hcur⟩, .inl ?_⟩
    exact fun h hh hversion => (hhash h hh (hversion.trans hv.symm)).symm
  | verify g v left =>
    dsimp only [GroupRefresh.next]
    obtain ⟨hv, hpos, hle, hcur⟩ := ht
    split
    · exact hfails _
    split
    next hconfirmed =>
      refine ⟨.refl s, rfl, rfl, ?_, .inr ⟨rfl, fun g' hg' hne => ?_⟩⟩
      · rw [hv] at hpos hle hcur
        exact ⟨hpos, hle, hcur⟩
      · -- it would have to answer for the group it has just found confirmed
        exact absurd (Eq.trans (Eq.symm hg') hconfirmed.2.symm) hne
    · cases left with
      | zero | succ => exact ⟨.refl s, rfl, rfl, rfl, .inl fun _ _ _ => trivial⟩
  | lastWrite =>
    dsimp only [GroupRefresh.next]
    split
    · exact hfails _
    split
    next e s' hw =>
      rw [writeGroup_error hw]
      exact hfails _
    next s' hw =>
      obtain ⟨hkeeps, hgroup, howed, -⟩ := writeGroup_ok hw
      exact ⟨hkeeps, hgroup, howed, trivial, .inl fun _ _ _ => nofun⟩
  | ended => exact ⟨.refl s, rfl, rfl, ht, .inr ⟨rfl, fun _ hg _ => hg⟩⟩

/-! ### Runs -/

variable {p : Pool (GroupStore ρ) GroupRefresh} {userId : Int}

theorem groupInv_event (hp : GroupInv p) (e : GroupEvent) :
    GroupInv ((groupProgram userId).step p (.event e)) := by
  obtain ⟨hanswered, hthreads, hstarted⟩ := hp
  cases e with
  | change =>
    refine ⟨fun _ _ _ _ => .inl rfl, hthreads.event trivial ?_, nofun⟩
    exact fun j t ht => ht.mono ⟨rfl, le_rfl, .inl rfl⟩
  | expireHash =>
    refine ⟨nofun, hthreads.event trivial ?_, hstarted⟩
    exact fun j t ht => ht.mono ⟨rfl, le_rfl, .inr rfl⟩
  | expireFence =>
    refine ⟨hanswered, hthreads.event trivial ?_, hstarted⟩
    exact fun j t ht => ht.mono ⟨rfl, le_rfl, .inl rfl⟩

theorem groupInv_start (hp : GroupInv p) : GroupInv ((groupProgram userId).step p (.start ())) := by
  refine ⟨fun h _ _ _ => .inr ⟨p.threads.length, _, getElem?_concat_length, ?_⟩,
    hp.threads.start trivial ?_ ?_, fun _ => append_ne_nil_of_right_ne_nil _ nofun⟩
  · dsimp only [groupProgram]
    split
    · exact nofun
    · trivial
  · exact fun j t ht => ht.mono ⟨rfl, le_rfl, .inl rfl⟩
  · dsimp only [groupProgram]
    split <;> trivial

theorem groupInv_go (hp : GroupInv p) (k : Nat) (ok : Bool) :
    GroupInv ((groupProgram userId).step p (.go k ok)) := by
  rcases hk : p.threads[k]? with - | t
  · rw [step_go_none ok hk]
    exact hp
  have hstep := next_refresh ok (hp.threads.thread k t hk)
  have hthreads := hp.threads.go (P := groupProgram userId) (k := k) (a := ok) fun t' ht' => by
    obtain rfl : t = t' := Option.mem_unique hk ht'
    exact ⟨trivial, hstep.ok, fun j u _ hu => hu.mono hstep.keeps⟩
  rw [step_go ok hk] at hthreads ⊢
  refine ⟨fun h hh hversion hwrong => ?_, hthreads, fun howed => ?_⟩
  · have hself := getElem?_set_of_some (t.next ok p.shared).2 hk
    have hversion' : h.authVersion = p.shared.authVersion := hversion.trans hstep.keeps.authVersion
    rcases hstep.answers with hanswers | ⟨hsame, hkept⟩
    · exact .inr ⟨k, _, hself, hanswers h hh hversion'⟩
    have hhash : p.shared.keys.hash = some h := (congrArg (·.keys.hash) hsame).symm.trans hh
    have hwrong' : h.profile.group ≠ p.shared.group := fun h => hwrong (h.trans hstep.group.symm)
    rcases hp.answered h hhash hversion' hwrong' with howed | ⟨j, u, hu, hanswers⟩
    · exact .inl (hstep.owed.trans howed)
    by_cases hj : j = k
    · subst hj
      obtain rfl : t = u := Option.mem_unique hk hu
      exact .inr ⟨j, _, hself, hkept _ hanswers hwrong'⟩
    · exact .inr ⟨j, u, (getElem?_set_ne (Ne.symm hj)).trans hu, hanswers⟩
  · exact fun h => hp.started (hstep.owed.symm.trans howed) (by simpa using h)

theorem cachedGroup_eq_some {g : String} (h : s.cachedGroup = some g) :
    ∃ x, s.keys.hash = some x ∧ x.profile.group = g ∧ s.keys.committed ≤ x.authVersion := by
  unfold GroupStore.cachedGroup AuthKeys.readHash at h
  rcases hhash : s.keys.hash with - | x
  · simp [hhash] at h
  rw [hhash] at h
  dsimp only at h
  split at h
  next u hu =>
    split at hu
    · cases hu
    cases hu
    split at h
    · cases h
    next hfloor =>
      exact ⟨x, rfl, Option.some.inj h, (committed_le_floor s.keys).trans (not_lt.mp hfloor)⟩
  · cases h

/-- **The cached group converges.**  Whatever the hash holds at first, when every
refresh is done, none has failed and one has started since the last change, a
live hash has the group of the row. -/
theorem group_cache_converges (userId : Int) (s : GroupStore ρ) (ops : List (Op GroupEvent Unit Bool))
    (hended : ∀ t ∈ (exec (groupProgram userId).step { shared := { s with owed := true } } ops).threads,
      t = .ended (.ok ()))
    (howed : (exec (groupProgram userId).step { shared := { s with owed := true } } ops).shared.owed
      = false) :
    ∀ g ∈ (exec (groupProgram userId).step { shared := { s with owed := true } } ops).shared.cachedGroup,
      g = (exec (groupProgram userId).step { shared := { s with owed := true } } ops).shared.group := by
  have hinv : GroupInv (exec (groupProgram userId).step { shared := { s with owed := true } } ops) := by
    refine exec_inv (fun p op hp => ?_) ⟨fun _ _ _ _ => .inl rfl, ⟨trivial, by simp⟩, nofun⟩ ops
    cases op with
    | event e => exact groupInv_event hp e
    | start => exact groupInv_start hp
    | go k ok => exact groupInv_go hp k ok
  generalize exec (groupProgram userId).step { shared := { s with owed := true } } ops = p at *
  intro g hg
  obtain ⟨x, hx, rfl, hfloor⟩ := cachedGroup_eq_some hg
  -- some refresh is done, so the hash is of the version of the row
  obtain ⟨t, ht⟩ := exists_mem_of_ne_nil _ (hinv.started howed)
  obtain ⟨j, hj⟩ := getElem?_of_mem ht
  have hok := hinv.threads.thread j t hj
  rw [hended t ht] at hok
  obtain ⟨-, hcommitted, hcurrent⟩ := hok
  have hcur : x.authVersion ≤ p.shared.authVersion := by
    unfold AuthKeys.current at hcurrent
    rw [hx] at hcurrent
    exact hcurrent
  have hversion : x.authVersion = p.shared.authVersion := by omega
  by_contra hwrong
  rcases hinv.answered x hx hversion hwrong with howed' | ⟨i, u, hu, hanswers⟩
  · rw [howed] at howed'
    cases howed'
  · rw [hended u (mem_of_getElem? hu)] at hanswers
    exact hanswers rfl

/-- A hash of version 3 that still has the old group. -/
def staleGroup : GroupStore Unit where
  keys :=
    { hash := some { profile := { group := "default", rest := () }, quota := none, authVersion := 3
                     cacheSchema := userCacheSchemaVersion }
      committed := 3 }
  group := "default"
  authVersion := 3

/-- Two changes, each with its refresh; the first refresh writes last. -/
def crossingRefreshes : List (Op GroupEvent Unit Bool) :=
  [.event (.change "vip"), .start (), .go 0 true, .event (.change "svip"), .start (), .go 1 true,
    .go 1 true, .go 0 true, .go 1 true, .go 0 true, .go 0 true, .go 0 true]

theorem group_cache_converges_crossing :
    (exec (groupProgram 1).step { shared := { staleGroup with owed := true } }
        crossingRefreshes).shared.cachedGroup
        = some "svip" ∧
      "svip" = (exec (groupProgram 1).step { shared := { staleGroup with owed := true } }
        crossingRefreshes).shared.group := by
  have hcached : (exec (groupProgram 1).step { shared := { staleGroup with owed := true } }
      crossingRefreshes).shared.cachedGroup = some "svip" := by decide +kernel
  refine ⟨hcached, group_cache_converges 1 staleGroup crossingRefreshes ?_ rfl "svip" hcached⟩
  have hthreads : (exec (groupProgram 1).step { shared := { staleGroup with owed := true } }
      crossingRefreshes).threads = [.ended (.ok ()), .ended (.ok ())] := rfl
  rw [hthreads]
  simp

end MicrossApi
