/-
MicrossApi/UserDisable.lean

Disabling a user takes effect at once (the calls are those of `UserStatus`).
What counts is what is shown of the user: by the hash, and by the rows that calls
have read and may still write to the hash.  Once everything shown from some
version on says disabled, it stays so until a commit enables the user
(`Denied.turn`): whatever is read anew is the row.

An update that raises the version gets there by its commit, since nothing that was
read before has the new version; the version is made the floor before it returns,
and a read that starts afterwards returns nothing below the floor.  The agent's
call raises no version, so it gets there only if nothing showed the user enabled.
-/
import MicrossApi.UserStatus

namespace MicrossApi

open List StepSystem Interleaving

/-! ### What the scripts show -/

variable (u : UserBase UserStatus) {w : Option (UserStatus × Int)}
  {keys keys' : AuthKeys UserStatus} {x : UserStatus × Int} {s s' : StatusStore} {a : StatusAnswer}
  {r : CacheRead UserStatus}

/-- The status and the version that goes with it. -/
def UserBase.shown : UserStatus × Int := (u.profile, u.authVersion)

variable (k : AuthKeys UserStatus)

def AuthKeys.shown : Option (UserStatus × Int) :=
  k.hash.map fun h => (h.profile, h.authVersion)

/-- What the scripts of a thread that is about to write `w` do to the keys. -/
structure KeysMove (w : Option (UserStatus × Int)) (k k' : AuthKeys UserStatus) : Prop where
  shown : ∀ x ∈ k'.shown, x ∈ k.shown ∨ x ∈ w
  grows : k.committed ≤ k'.committed
  committed : k'.committed = k.committed ∨ ∃ x ∈ w, k'.committed = x.2

theorem KeysMove.refl (w : Option (UserStatus × Int)) : KeysMove w k k :=
  ⟨fun _ hx => .inl hx, le_refl _, .inl rfl⟩

variable (v : Int)

theorem committed_promote : (k.promote v).committed = k.committed ∨ (k.promote v).committed = v := by
  show (if k.committed < v then v else k.committed) = _ ∨
    (if k.committed < v then v else k.committed) = v
  split
  · exact .inr rfl
  · exact .inl rfl

theorem le_committed_promote : v ≤ (k.promote v).committed := by
  show v ≤ if k.committed < v then v else k.committed
  split
  · exact le_refl v
  · omega

theorem keysMove_promote (hx : x ∈ w) (hash : Option (UserHash UserStatus))
    (hhash : ∀ y ∈ ({ k with hash := hash } : AuthKeys UserStatus).shown, y ∈ k.shown ∨ y ∈ w) :
    KeysMove w k { k.promote x.2 with hash := hash } :=
  ⟨hhash, (grows_promote k x.2).committed, (committed_promote k x.2).imp_right fun h => ⟨x, hx, h⟩⟩

theorem keysMove_writeUserCache (includeQuota : Bool) :
    KeysMove (some u.shown) k (writeUserCache u includeQuota k).2 := by
  dsimp only [writeUserCache]
  split
  · exact .refl _ _
  split
  · exact .refl _ _
  split
  · exact keysMove_promote k rfl k.hash fun _ hx => .inl hx
  refine keysMove_promote k rfl _ fun x hx => .inr ?_
  rw [← Option.some.inj hx]
  rfl

theorem le_committed_writeUserCache {u : UserBase UserStatus} {includeQuota : Bool} {r : Unit}
    (h : writeUserCache u includeQuota keys = (.ok r, keys')) : u.authVersion ≤ keys'.committed := by
  dsimp only [writeUserCache] at h
  split at h
  · cases (Prod.mk.inj h).1
  split at h
  · cases (Prod.mk.inj h).1
  split at h <;> rw [← (Prod.mk.inj h).2] <;> exact le_committed_promote ..

theorem keysMove_run (fill : FillKind) : KeysMove (some u.shown) k (fill.run u k) := by
  cases fill with
  | whole => exact keysMove_writeUserCache ..
  | field =>
    dsimp only [FillKind.run, updateUserCacheFieldAtVersion]
    split
    · exact .refl _ _
    split
    · exact .refl _ _
    split
    · exact keysMove_promote k rfl k.hash fun _ hx => .inl hx
    rename_i h hhash
    split
    · exact keysMove_promote k rfl k.hash fun _ hx => .inl hx
    refine keysMove_promote k rfl _ fun x hx => .inl ?_
    rw [AuthKeys.shown, hhash, ← Option.some.inj hx]
    rfl
  | version =>
    dsimp only [FillKind.run, publishCommittedUserAuthVersion]
    split
    · exact .refl _ _
    · exact keysMove_promote k rfl k.hash fun _ hx => .inl hx

/-! ### What a read may write -/

/-- What the read will fill the cache with. -/
def CacheRead.writes : CacheRead UserStatus → Option (UserStatus × Int)
  | .fetched u _ | .checked u _ => some u.shown
  | _ => none

theorem nextOr_keys (a : StatusAnswer) (s : StatusStore) (r : CacheRead UserStatus) :
    KeysMove r.writes s.keys (r.nextOr a s).2 := by
  unfold CacheRead.nextOr
  split
  · cases r with
    | hashed | fetched =>
      dsimp only [CacheRead.next]
      split <;> exact .refl _ _
    | checked u =>
      have hwrite := keysMove_writeUserCache u s.keys true
      dsimp only [CacheRead.next]
      split
      next h =>
        rw [h] at hwrite
        exact hwrite
      next h =>
        rw [h] at hwrite
        exact hwrite
    | _ => exact .refl _ _
  · cases r with
    | _ => exact .refl _ _

/-- A read takes up the row, or goes on with what it has. -/
theorem nextOr_writes (hx : x ∈ (r.nextOr a s).1.writes) :
    x ∈ r.writes ∨ x = s.row.shown := by
  unfold CacheRead.nextOr at hx
  split at hx
  · cases r with
    | idle =>
      dsimp only [CacheRead.next, AuthKeys.readHash] at hx
      split at hx
      · cases hx
      split at hx <;> cases hx
    | hashed | checked =>
      dsimp only [CacheRead.next] at hx
      split at hx <;> cases hx
    | missed =>
      dsimp only [CacheRead.next] at hx
      split at hx
      · exact .inr (Option.some.inj hx).symm
      · cases hx
    | fetched =>
      dsimp only [CacheRead.next] at hx
      split at hx
      · cases hx
      · exact .inl hx
    | returned | refused => cases hx
  · cases r with
    | missed =>
      dsimp only [CacheRead.next] at hx
      split at hx
      · exact .inr (Option.some.inj hx).symm
      · cases hx
    | fetched => exact .inl hx
    | _ => cases hx

/-! ### What a thread may write -/

/-- What the thread will put into the cache. -/
def StatusThread.writes : StatusThread → Option (UserStatus × Int)
  | .validate (.user _ r) | .read r => r.writes
  | .fill u => u.map UserBase.shown
  | .update (.publish user _ _) => some user.shown
  | _ => none

/-- What the call has closed. -/
def StatusThread.closing : StatusThread → Option Closing
  | .update (.publish _ _ closing) | .update (.revoke _ closing) | .update (.ended _ closing) => closing
  | .agent (.ended _ closing) => closing
  | _ => none

/-- What the thread that starts or goes on is to know: a transaction that raises
the version has the row, and the version that is published is the one committed. -/
def StatusThread.Ok (s : StatusStore) (j : Nat) : StatusThread → Prop
  | .update (.bump _ _ next) => s.lock = some j ∧ s.row.authVersion < next
  | .update (.publish user _ closing) => ∀ c ∈ closing, c.version = user.authVersion
  | .update (.revoke _ closing) | .update (.ended _ closing) =>
    ∀ c ∈ closing, c.version ≤ s.keys.committed
  | .agent (.ended _ closing) => ∀ c ∈ closing, c.version ≤ s.keys.committed
  | _ => True

/-- What a step of thread `k` does. -/
inductive StatusMove (k : Nat) (s : StatusStore) (t : StatusThread) : StatusStore → StatusThread → Prop
  /-- the row stays -/
  | keeps {s' : StatusStore} {t' : StatusThread} (hrow : s'.row = s.row)
      (henables : s'.enables = s.enables) (hkeys : KeysMove t.writes s.keys s'.keys)
      (hlock : ∀ j, j ≠ k → s.lock = some j → s'.lock = some j)
      (hwrites : ∀ x ∈ t'.writes, x ∈ t.writes ∨ x = s.row.shown)
      (hclosing : ∀ c ∈ t'.closing, c ∈ t.closing) (hok : t'.Ok s' k) : StatusMove k s t s' t'
  /-- an update is committed, with the next version or over the same status -/
  | updates {status : Option UserStatus} {row : UserBase UserStatus} {previous : Int}
      (hfree : s.Free k) (hstatus : row.profile = status.getD s.row.profile)
      (hversion : s.row.authVersion < row.authVersion ∨
        row.authVersion = s.row.authVersion ∧ t = .update (.write status previous)) :
      StatusMove k s t (s.commit row) (.update (.publish row previous (s.closing status row.authVersion)))
  /-- the agent finds the user disabled -/
  | finds (ht : t = .agent .load) (hrow : s.row.profile = .disabled) :
      StatusMove k s t s (.agent (.ended true (s.closing (some .disabled) s.keys.committed)))
  /-- the agent disables the user -/
  | closes (hfree : s.Free k) (ht : t = .agent .write) :
      StatusMove k s t (s.commit { s.row with profile := .disabled })
        (.agent (.ended true (s.closing (some .disabled) s.keys.committed)))

variable {t t' : StatusThread} {k : Nat} {cfg : StatusConfig}

/-- A step that does not touch what is shown. -/
theorem statusMove_stay (hwrites : ∀ x ∈ t'.writes, x ∈ t.writes ∨ x = s.row.shown)
    (hclosing : ∀ c ∈ t'.closing, c ∈ t.closing) (hok : t'.Ok s k) : StatusMove k s t s t' :=
  .keeps rfl rfl (.refl _ _) (fun _ _ h => h) hwrites hclosing hok

/-- The call goes on. -/
theorem statusMove_on (hwrites : t'.writes = t.writes) (hclosing : t'.closing = t.closing)
    (hok : t'.Ok s k) : StatusMove k s t s t' :=
  statusMove_stay (fun _ hx => .inl (hwrites ▸ hx)) (fun _ hc => hclosing ▸ hc) hok

variable (session : SessionStore)

theorem statusMove_session (hwrites : t'.writes = none)
    (hclosing : t'.closing = t.closing) (hok : t'.Ok { s with session := session } k) :
    StatusMove k s t { s with session := session } t' := by
  refine .keeps rfl rfl (.refl _ _) (fun _ _ h => h) (fun x hx => ?_) (fun _ hc => hclosing ▸ hc) hok
  rw [hwrites] at hx
  cases hx

variable (identity : AuthIdentity)

theorem afterUser_writes (r : CacheRead UserStatus) :
    ∀ x ∈ (StatusThread.validate (Validation.afterUser identity r)).writes, x ∈ r.writes := by
  intro x hx
  cases r with
  | returned | refused => cases hx
  | _ => exact hx

theorem statusMove_validate (v : Validation) :
    StatusMove k s (.validate v) (v.next cfg k a s).1 (.validate (v.next cfg k a s).2) := by
  cases v with
  | session =>
    dsimp only [Validation.next]
    split
    · split <;> exact statusMove_session _ rfl rfl trivial
    · exact statusMove_session _ rfl rfl trivial
    · exact statusMove_session _ rfl rfl trivial
  | user identity r =>
    refine .keeps rfl rfl (nextOr_keys a s r) (fun _ _ h => h) (fun x hx => ?_) (fun _ hc => hc) trivial
    exact nextOr_writes (afterUser_writes identity _ x hx)
  | ended => exact statusMove_on rfl rfl trivial

/-- An update that fails has closed nothing. -/
theorem statusMove_failed (lock : Option Nat) (hlock : ∀ j, j ≠ k → s.lock = some j → lock = some j) :
    StatusMove k s t { s with session := session, lock := lock } (.update (.ended false none)) :=
  .keeps rfl rfl (.refl _ _) hlock (fun _ hx => nomatch hx) (fun _ hc => nomatch hc)
    (fun _ hc => nomatch hc)

theorem statusMove_update {u : UserUpdate} (hok : (StatusThread.update u).Ok s k) :
    StatusMove k s (.update u) (u.next cfg k a s).1 (.update (u.next cfg k a s).2) := by
  cases u with
  | readVersion =>
    dsimp only [UserUpdate.next]
    split
    · exact statusMove_on rfl rfl trivial
    · exact statusMove_failed _ _ fun _ _ h => h
  | current =>
    dsimp only [UserUpdate.next]
    split
    · exact statusMove_failed _ _ fun _ _ h => h
    split <;> exact statusMove_on rfl rfl trivial
  | increment =>
    dsimp only [UserUpdate.next]
    split
    · exact statusMove_on rfl rfl trivial
    rename_i hfree
    split
    · exact statusMove_failed _ _ fun _ _ h => h
    refine .keeps rfl rfl ?_ (fun j hj h => ?_) (fun _ hx => .inl hx) (fun _ hc => hc) ?_
    · -- the fence is no floor of its own and no hash
      dsimp only [setUserAuthVersionFence]
      split
      · exact .refl _ _
      split
      · exact ⟨fun _ hx => .inl hx, le_refl _, .inl rfl⟩
      · exact .refl _ _
    · rcases not_not.mp hfree with hnone | hown
      · rw [hnone] at h
        cases h
      · exact absurd (Option.mem_unique h hown) hj
    · refine ⟨rfl, ?_⟩
      show s.row.authVersion < max 1 s.row.authVersion + 1
      omega
  | bump =>
    obtain ⟨hlock, hnext⟩ := hok
    dsimp only [UserUpdate.next]
    split
    · refine statusMove_failed _ _ fun j hj h => ?_
      exact absurd (Option.mem_unique h hlock) hj
    · exact .updates (.inr hlock) rfl (.inl hnext)
  | write =>
    dsimp only [UserUpdate.next]
    split
    · exact statusMove_on rfl rfl trivial
    rename_i hfree
    split
    · exact statusMove_failed _ _ fun _ _ h => h
    · exact .updates (not_not.mp hfree) rfl (.inr ⟨rfl, rfl⟩)
  | publish user =>
    dsimp only [UserUpdate.next]
    split
    · exact statusMove_failed _ _ fun _ _ h => h
    have hkeys := keysMove_writeUserCache user s.keys false
    split
    next hwrite =>
      rw [hwrite] at hkeys
      exact .keeps rfl rfl hkeys (fun _ _ h => h) (fun _ hx => nomatch hx) (fun _ hc => nomatch hc)
        (fun _ hc => nomatch hc)
    next hwrite =>
      rw [hwrite] at hkeys
      have hfloor := le_committed_writeUserCache hwrite
      split
      · refine .keeps rfl rfl hkeys (fun _ _ h => h) (fun _ hx => nomatch hx) (fun _ hc => hc) ?_
        exact fun c hc => (hok c hc).le.trans hfloor
      · refine .keeps rfl rfl hkeys (fun _ _ h => h) (fun _ hx => nomatch hx) (fun _ hc => hc) ?_
        exact fun c hc => (hok c hc).le.trans hfloor
  | revoke =>
    dsimp only [UserUpdate.next]
    split
    · exact statusMove_failed _ _ fun _ _ h => h
    · exact statusMove_session _ rfl rfl hok
    · exact statusMove_session _ rfl rfl hok
  | ended => exact statusMove_on rfl rfl hok

theorem statusMove_agent {d : AgentDisable} (hok : (StatusThread.agent d).Ok s k) :
    StatusMove k s (.agent d) (d.next k a s).1 (.agent (d.next k a s).2) := by
  have hfailed : StatusMove k s (.agent d) s (.agent (.ended false none)) :=
    statusMove_stay (fun _ hx => nomatch hx) (fun _ hc => nomatch hc) (fun _ hc => nomatch hc)
  cases d with
  | require =>
    dsimp only [AgentDisable.next]
    split
    · exact statusMove_on rfl rfl trivial
    · exact hfailed
  | load =>
    dsimp only [AgentDisable.next]
    split
    · exact hfailed
    split
    next hrow =>
      exact .finds rfl hrow
    · exact statusMove_on rfl rfl trivial
  | write =>
    dsimp only [AgentDisable.next]
    split
    · exact statusMove_on rfl rfl trivial
    rename_i hfree
    split
    · exact hfailed
    · exact .closes (not_not.mp hfree) rfl
  | ended => exact statusMove_on rfl rfl hok

theorem StatusThread.next_move (hok : t.Ok s k) :
    StatusMove k s t (t.next cfg k a s).1 (t.next cfg k a s).2 := by
  cases t with
  | validate v => exact statusMove_validate v
  | read r =>
    exact .keeps rfl rfl (nextOr_keys a s r) (fun _ _ h => h) (fun x hx => nextOr_writes hx)
      (fun _ hc => hc) trivial
  | fill u =>
    cases u with
    | none =>
      dsimp only [StatusThread.next]
      split
      · refine statusMove_stay (fun x hx => .inr ?_) (fun _ hc => hc) trivial
        exact (Option.some.inj hx).symm
      · exact statusMove_on rfl rfl trivial
    | some u =>
      dsimp only [StatusThread.next]
      split
      · exact .keeps rfl rfl (keysMove_run u s.keys a.fill) (fun _ _ h => h)
          (fun _ hx => nomatch hx) (fun _ hc => hc) trivial
      · exact statusMove_stay (fun _ hx => nomatch hx) (fun _ hc => hc) trivial
  | update => exact statusMove_update hok
  | agent => exact statusMove_agent hok
  | session => exact statusMove_session _ rfl rfl trivial

/-! ### Denial -/

/-- From version `v` on what is shown is that the user is disabled. -/
def Closed (x : UserStatus × Int) : Prop := v ≤ x.2 → x.1 = .disabled
deriving Decidable

/-- The hash, and everything that may still be written to it, is closed. -/
def Shut (p : Pool StatusStore StatusThread) : Prop :=
  (∀ x ∈ p.shared.keys.shown, Closed v x) ∧ ∀ t ∈ p.threads, ∀ x ∈ t.writes, Closed v x
deriving Decidable

/-- The user is disabled, and shown so from version `v` on. -/
def Denied (p : Pool StatusStore StatusThread) : Prop :=
  p.shared.row.profile = .disabled ∧ Shut v p

variable {p p' : Pool StatusStore StatusThread} {v : Int} {op : Op StatusEvent StatusCall StatusAnswer}

theorem Shut.mono {v' : Int} (h : Shut v p) (hv : v ≤ v') : Shut v' p :=
  ⟨fun x hx hle => h.1 x hx (hv.trans hle), fun t ht x hx hle => h.2 t ht x hx (hv.trans hle)⟩

/-! ### Runs in which nothing shows a disabled user as enabled -/

/-- The agent's call finds, or leaves, the user disabled only where nothing that
still counts shows the user enabled; and an update that keeps the version finds the
user disabled still where it writes that. -/
def StatusThread.Orderly (p : Pool StatusStore StatusThread) : StatusThread → Prop
  | .agent .load => p.shared.row.profile = .disabled → Shut p.shared.keys.committed p
  | .agent .write => Shut p.shared.keys.committed p
  | .update (.write status _) => status = some .disabled → p.shared.row.profile = .disabled
  | _ => True

instance decidableThreadOrderly : Decidable (t.Orderly p) := by
  unfold StatusThread.Orderly
  split <;> infer_instance

/-- The condition on a step of a run. -/
def Orderly (p : Pool StatusStore StatusThread) : Op StatusEvent StatusCall StatusAnswer → Prop
  | .go k _ => ∀ t ∈ p.threads[k]?, t.Orderly p
  | _ => True

instance decidableOrderly (p op) : Decidable (Orderly p op) := by
  unfold Orderly
  split <;> infer_instance

/-- What is shown: by the hash, or by what may still be written to it. -/
def Shown (p : Pool StatusStore StatusThread) (x : UserStatus × Int) : Prop :=
  x ∈ p.shared.keys.shown ∨ ∃ t ∈ p.threads, x ∈ t.writes

theorem shut_iff : Shut v p ↔ ∀ x, Shown p x → Closed v x := by
  constructor
  · rintro h x (hx | ⟨t, ht, hx⟩)
    · exact h.1 x hx
    · exact h.2 t ht x hx
  · exact fun h => ⟨fun x hx => h x (.inl hx), fun t ht x hx => h x (.inr ⟨t, ht, hx⟩)⟩

/-- What a step does to what is shown, and what it closes.  Whatever is shown anew is
the row; and the row becomes that of a disabled user with a version that nothing shown
has, or where nothing that counts shows the user enabled. -/
structure Turn (p p' : Pool StatusStore StatusThread) : Prop where
  shown : ∀ x, Shown p' x → Shown p x ∨ x = p.shared.row.shown ∨ x = p'.shared.row.shown
  grows : p.shared.keys.committed ≤ p'.shared.keys.committed
  floor : p'.shared.keys.committed = p.shared.keys.committed ∨ ∃ x, Shown p x ∧ p'.shared.keys.committed = x.2
  version : p.shared.row.authVersion ≤ p'.shared.row.authVersion
  enables : p.shared.enables ≤ p'.shared.enables
  stays : p.shared.row.profile = .disabled → p'.shared.enables = p.shared.enables →
    p'.shared.row.profile = .disabled
  shut : p'.shared.row.profile = .disabled →
    p.shared.row.profile = .disabled ∧ p'.shared.enables = p.shared.enables ∨
      p.shared.row.authVersion < p'.shared.row.authVersion ∨ Shut p'.shared.keys.committed p'
  closings : ∀ t ∈ p'.threads, ∀ c ∈ t.closing, (∃ u ∈ p.threads, c ∈ u.closing) ∨
    c.enables = p'.shared.enables ∧ p'.shared.row.profile = .disabled ∧
      (c.version = p'.shared.row.authVersion ∨ Shut c.version p')

/-- **A user who is denied stays so** until a commit leaves the user enabled. -/
theorem Denied.turn (h : Denied v p) (ht : Turn p p') (henables : p'.shared.enables = p.shared.enables) :
    Denied v p' := by
  have hrow := ht.stays h.1 henables
  refine ⟨hrow, shut_iff.mpr fun x hx => ?_⟩
  rcases ht.shown x hx with hx | rfl | rfl
  · exact shut_iff.mp h.2 x hx
  · exact fun _ => h.1
  · exact fun _ => hrow

/-- What holds in every run from an empty cache. -/
structure StatusInv (p : Pool StatusStore StatusThread) : Prop where
  shown : ∀ x, Shown p x → x.2 ≤ p.shared.row.authVersion
  floor : p.shared.keys.committed ≤ p.shared.row.authVersion
  threads : ∀ (j : Nat) (t : StatusThread), p.threads[j]? = some t → t.Ok p.shared j
  disabled : p.shared.row.profile = .disabled → Shut p.shared.row.authVersion p
  closings : ∀ t ∈ p.threads, ∀ c ∈ t.closing, c.enables ≤ p.shared.enables ∧
    (p.shared.enables = c.enables → Denied c.version p)

theorem StatusInv.turn (h : StatusInv p) (ht : Turn p p')
    (hok : ∀ (j : Nat) (t : StatusThread), p'.threads[j]? = some t → t.Ok p'.shared j) : StatusInv p' := by
  have hfloor : p'.shared.keys.committed ≤ p'.shared.row.authVersion := by
    rcases ht.floor with hsame | ⟨x, hx, hsame⟩
    · exact hsame.le.trans (h.floor.trans ht.version)
    · exact hsame.le.trans ((h.shown x hx).trans ht.version)
  have hshut : p'.shared.row.profile = .disabled → Shut p'.shared.row.authVersion p' := by
    intro hrow
    rcases ht.shut hrow with ⟨hold, henables⟩ | hlt | hshut
    · exact (Denied.turn ⟨hold, h.disabled hold⟩ ht henables).2.mono ht.version
    · -- nothing that was read before has the new version
      refine shut_iff.mpr fun x hx hle => ?_
      rcases ht.shown x hx with hx | rfl | rfl
      · exact absurd (h.shown x hx) (by omega)
      · exact absurd hle (not_le.mpr hlt)
      · exact hrow
    · exact hshut.mono hfloor
  refine ⟨fun x hx => ?_, hfloor, hok, hshut, fun t htm c hc => ?_⟩
  · rcases ht.shown x hx with hx | rfl | rfl
    · exact (h.shown x hx).trans ht.version
    · exact ht.version
    · exact le_refl _
  · rcases ht.closings t htm c hc with ⟨u, hu, hcu⟩ | ⟨henables, hrow, hversion⟩
    · obtain ⟨hle, hdenied⟩ := h.closings u hu c hcu
      have := ht.enables
      exact ⟨hle.trans ht.enables, fun heq => (hdenied (by omega)).turn ht (by omega)⟩
    · refine ⟨henables.le, fun _ => ⟨hrow, ?_⟩⟩
      rcases hversion with hversion | hversion
      · exact hversion ▸ hshut hrow
      · exact hversion

/-! ### Steps -/

/-- What a thread knows stays known while the row is not written. -/
theorem StatusThread.Ok.keeps {j : Nat} (h : t.Ok s j) (hrow : s'.row = s.row)
    (hlock : s.lock = some j → s'.lock = some j) (hfloor : s.keys.committed ≤ s'.keys.committed) :
    t.Ok s' j := by
  cases t with
  | update u =>
    cases u with
    | bump => exact ⟨hlock h.1, hrow ▸ h.2⟩
    | publish => exact h
    | revoke c | ended => exact fun c hc => (h c hc).trans hfloor
    | _ => trivial
  | agent d =>
    cases d with
    | ended => exact fun c hc => (h c hc).trans hfloor
    | _ => trivial
  | _ => trivial

variable {row : UserBase UserStatus} {c : Closing} {status : Option UserStatus}

/-- What another thread knows survives a commit: it has no transaction open. -/
theorem StatusThread.Ok.commit {j : Nat} (h : t.Ok s j) (hj : j ≠ k)
    (hfree : s.Free k) : t.Ok (s.commit row) j := by
  cases t with
  | update u =>
    cases u with
    | bump =>
      rcases hfree with hnone | hown
      · exact absurd (hnone.symm.trans h.1) (by simp)
      · exact absurd (Option.some.inj (h.1.symm.trans hown)) hj
    | publish | revoke | ended => exact h
    | _ => trivial
  | agent d =>
    cases d with
    | ended => exact h
    | _ => trivial
  | _ => trivial

theorem mem_closing (h : c ∈ s.closing status v) :
    status = some .disabled ∧ c = { version := v, enables := s.enables } := by
  unfold StatusStore.closing at h
  split at h
  · exact ⟨‹_›, (Option.some.inj h).symm⟩
  · cases h

theorem enables_commit_iff : (s.commit row).enables = s.enables ↔ row.profile = .disabled := by
  show s.enables + (if row.profile = .enabled then 1 else 0) = s.enables ↔ _
  cases row.profile <;> simp

/-- The pool when thread `k` has moved. -/
def afterMove (p : Pool StatusStore StatusThread) (k : Nat) (s : StatusStore) (t : StatusThread) :
    Pool StatusStore StatusThread :=
  { shared := s, threads := p.threads.set k t }

theorem shown_afterMove {x : UserStatus × Int} (hx : Shown (afterMove p k s' t') x)
    (hkeys : x ∈ s'.keys.shown → Shown p x) : Shown p x ∨ x ∈ t'.writes := by
  rcases hx with hx | ⟨u, hu, hx⟩
  · exact .inl (hkeys hx)
  rcases mem_or_eq_of_mem_set hu with hu | rfl
  · exact .inl (.inr ⟨u, hu, hx⟩)
  · exact .inr hx

theorem closing_afterMove {Q : Prop} {u : StatusThread} (hu : u ∈ (afterMove p k s' t').threads)
    (hc : c ∈ u.closing) (hnew : c ∈ t'.closing → (∃ u ∈ p.threads, c ∈ u.closing) ∨ Q) :
    (∃ u ∈ p.threads, c ∈ u.closing) ∨ Q := by
  rcases mem_or_eq_of_mem_set hu with hu | rfl
  · exact .inl ⟨u, hu, hc⟩
  · exact hnew hc

/-- A thread that closes where nothing that counts shows the user enabled. -/
theorem shut_afterMove (h : Shut v p) (hkeys : s'.keys = p.shared.keys) (hwrites : t'.writes = none) :
    Shut v (afterMove p k s' t') := by
  refine shut_iff.mpr fun x hx => ?_
  rcases shown_afterMove hx (fun hx => .inl (hkeys ▸ hx)) with hx | hx
  · exact shut_iff.mp h x hx
  · rw [hwrites] at hx
    cases hx

theorem turn_moved (ht : t ∈ p.threads) (hmove : StatusMove k p.shared t s' t') (horderly : t.Orderly p) :
    Turn p (afterMove p k s' t') := by
  have hold : ∀ x ∈ t.writes, Shown p x := fun x hx => .inr ⟨t, ht, hx⟩
  cases hmove with
  | keeps hrow henables hkeys hlock hwrites hclosing =>
    refine ⟨fun x hx => ?_, hkeys.grows, ?_, (congrArg _ hrow).ge, henables.ge, fun h _ => ?_, fun h => ?_,
      fun u hu c hc => closing_afterMove hu hc fun hc => .inl ⟨t, ht, hclosing c hc⟩⟩
    · rcases shown_afterMove hx (fun hx => (hkeys.shown x hx).elim .inl (hold x)) with hx | hx
      · exact .inl hx
      · exact (hwrites x hx).imp (hold x) .inl
    · exact hkeys.committed.imp_right fun ⟨x, hx, heq⟩ => ⟨x, hold x hx, heq⟩
    · exact (congrArg _ hrow).trans h
    · exact .inl ⟨(congrArg _ hrow).symm.trans h, henables⟩
  | @updates status row previous hfree hstatus hversion =>
    refine ⟨fun x hx => ?_, le_refl _, .inl rfl, ?_, Nat.le_add_right _ _, fun _ h => enables_commit_iff.mp h,
      fun h => ?_, fun u hu c hc => closing_afterMove hu hc fun hc => .inr ?_⟩
    · exact (shown_afterMove hx .inl).imp_right fun hx => .inr (Option.some.inj hx).symm
    · exact hversion.elim (·.le) (·.1.ge)
    · rcases hversion with hlt | ⟨-, rfl⟩
      · exact .inr (.inl hlt)
      · -- the status was the same before
        refine .inl ⟨?_, enables_commit_iff.mpr h⟩
        rw [show row.profile = .disabled from h] at hstatus
        cases status with
        | none => exact hstatus.symm
        | some => exact horderly (congrArg some hstatus.symm)
    · obtain ⟨rfl, rfl⟩ := mem_closing hc
      exact ⟨(enables_commit_iff.mpr hstatus).symm, hstatus, .inl rfl⟩
  | finds hagent hrow =>
    subst hagent
    refine ⟨fun x hx => ?_, le_refl _, .inl rfl, le_refl _, le_refl _, fun h _ => h, fun h => .inl ⟨h, rfl⟩,
      fun u hu c hc => closing_afterMove hu hc fun hc => .inr ?_⟩
    · exact (shown_afterMove hx .inl).imp_right nofun
    · obtain ⟨-, rfl⟩ := mem_closing hc
      exact ⟨rfl, hrow, .inr (shut_afterMove (horderly hrow) rfl rfl)⟩
  | closes hfree hagent =>
    subst hagent
    refine ⟨fun x hx => ?_, le_refl _, .inl rfl, le_refl _, Nat.le_add_right _ _, fun _ _ => rfl,
      fun _ => .inr (.inr (shut_afterMove horderly rfl rfl)),
      fun u hu c hc => closing_afterMove hu hc fun hc => .inr ?_⟩
    · exact (shown_afterMove hx .inl).imp_right nofun
    · obtain ⟨-, rfl⟩ := mem_closing hc
      exact ⟨rfl, rfl, .inr (shut_afterMove horderly rfl rfl)⟩

theorem StatusMove.ok (h : StatusMove k s t s' t') :
    t'.Ok s' k ∧ ∀ (j : Nat) (u : StatusThread), j ≠ k → u.Ok s j → u.Ok s' j := by
  cases h with
  | keeps hrow _ hkeys hlock _ _ hok => exact ⟨hok, fun j u hj hu => hu.keeps hrow (hlock j hj) hkeys.grows⟩
  | updates hfree =>
    refine ⟨fun c hc => ?_, fun j u hj hu => hu.commit hj hfree⟩
    rw [(mem_closing hc).2]
  | finds =>
    refine ⟨fun c hc => ?_, fun _ _ _ hu => hu⟩
    rw [(mem_closing hc).2]
  | closes hfree =>
    refine ⟨fun c hc => ?_, fun j u hj hu => hu.commit hj hfree⟩
    rw [(mem_closing hc).2]
    exact le_refl _

theorem statusInv_init (hversion : 0 ≤ row.authVersion)
    (session : SessionStore) : StatusInv { shared := { row, session } } := by
  have hnone : ∀ x, ¬ Shown { shared := { row, session } } x := by
    rintro x (hx | ⟨t, ht, -⟩)
    · exact (nomatch hx)
    · exact not_mem_nil ht
  exact ⟨fun x hx => absurd hx (hnone x), hversion, fun j t ht => (nomatch ht),
    fun _ => shut_iff.mpr fun x hx => absurd hx (hnone x), fun t ht => absurd ht not_mem_nil⟩

variable (cfg p)

/-- An event shows nothing new. -/
theorem turn_event (e : StatusEvent) : Turn p ((statusProgram cfg).step p (.event e)) ∧
    ∀ (j : Nat) (t : StatusThread), t.Ok p.shared j →
      t.Ok ((statusProgram cfg).step p (.event e)).shared j := by
  have hshown : ∀ x ∈ ((statusProgram cfg).step p (.event e)).shared.keys.shown, x ∈ p.shared.keys.shown := by
    cases e with
    | tick | expireFence => exact fun _ hx => hx
    | expireHash => exact fun _ hx => (nomatch hx)
  have hfloor : ((statusProgram cfg).step p (.event e)).shared.keys.committed = p.shared.keys.committed := by
    cases e <;> rfl
  cases e <;>
    exact ⟨⟨fun x hx => .inl (hx.imp_left (hshown x)), hfloor.ge, .inl hfloor, le_refl _, le_refl _,
      fun h _ => h,
      fun h => .inl ⟨h, rfl⟩, fun t ht c hc => .inl ⟨t, ht, hc⟩⟩, fun j t h =>
        h.keeps rfl (fun h => h) hfloor.ge⟩

/-- A call that starts has nothing to write and has closed nothing. -/
theorem turn_start (call : StatusCall) : Turn p ((statusProgram cfg).step p (.start call)) ∧
    ∀ j, ((statusProgram cfg).start p.shared call).2.Ok p.shared j := by
  have hstart : ((statusProgram cfg).start p.shared call).2.writes = none ∧
      ((statusProgram cfg).start p.shared call).2.closing = none ∧
      ∀ j, ((statusProgram cfg).start p.shared call).2.Ok p.shared j := by
    cases call <;> exact ⟨rfl, rfl, fun _ => trivial⟩
  obtain ⟨hwrites, hclosing, hok⟩ := hstart
  refine ⟨⟨fun x hx => .inl ?_, le_refl _, .inl rfl, le_refl _, le_refl _, fun h _ => h, fun h => .inl ⟨h, rfl⟩,
    fun t ht c hc => .inl ?_⟩, hok⟩
  · refine hx.imp_right fun ⟨t, ht, hx⟩ => ⟨t, (mem_append.mp ht).resolve_right fun hnew => ?_, hx⟩
    rw [mem_singleton.mp hnew, hwrites] at hx
    cases hx
  · refine ⟨t, (mem_append.mp ht).resolve_right fun hnew => ?_, hc⟩
    rw [mem_singleton.mp hnew, hclosing] at hc
    cases hc

variable {p}

theorem turn_step (h : StatusInv p) (horderly : Orderly p op) :
    Turn p ((statusProgram cfg).step p op) ∧ StatusInv ((statusProgram cfg).step p op) := by
  cases op with
  | event e =>
    obtain ⟨hturn, hok⟩ := turn_event cfg p e
    exact ⟨hturn, h.turn hturn fun j t ht => hok j t (h.threads j t ht)⟩
  | start call =>
    obtain ⟨hturn, hok⟩ := turn_start cfg p call
    refine ⟨hturn, h.turn hturn fun j t ht => ?_⟩
    rcases getElem?_concat_cases ht with ht | ⟨-, rfl⟩
    · exact h.threads j t ht
    · exact hok j
  | go k a =>
    rcases hk : p.threads[k]? with - | t
    · rw [step_go_none a hk]
      exact ⟨⟨fun x hx => .inl hx, le_refl _, .inl rfl, le_refl _, le_refl _, fun h _ => h,
        fun h => .inl ⟨h, rfl⟩, fun t ht c hc => .inl ⟨t, ht, hc⟩⟩, h⟩
    · rw [step_go a hk]
      have hmove : StatusMove k p.shared t (t.next cfg k a p.shared).1 (t.next cfg k a p.shared).2 :=
        StatusThread.next_move (h.threads k t hk)
      have hturn := turn_moved (mem_of_getElem? hk) hmove (horderly t hk)
      refine ⟨hturn, h.turn hturn fun j u hu => ?_⟩
      rcases getElem?_set_cases hu with ⟨rfl, rfl⟩ | ⟨hj, hu⟩
      · exact hmove.ok.1
      · exact hmove.ok.2 j u hj (h.threads j u hu)

variable {cfg}

/-! ### Calls that start afterwards -/

/-- The read will not return the user as enabled. -/
def CacheRead.Refuses (v : Int) : CacheRead UserStatus → Prop
  | .hashed u => Closed v u.shown
  | .fetched u _ | .checked u _ | .returned u _ => u.profile = .disabled
  | _ => True

/-- A validation that will not succeed. -/
def StatusThread.Refuses (v : Int) : StatusThread → Prop
  | .validate (.user _ r) => r.Refuses v
  | .validate (.ended accepted) => accepted = false
  | _ => True

theorem readHash_refuses (h : ∀ x ∈ keys.shown, Closed v x) :
    keys.readHash.Refuses v := by
  unfold AuthKeys.readHash
  split
  · trivial
  rename_i hash hhash
  split
  · trivial
  refine h _ ?_
  rw [AuthKeys.shown, hhash]
  rfl

/-- A read that starts where the user is denied, and the floor is at least `v`. -/
theorem nextOr_refuses (hr : r.Refuses v) (hrow : s.row.profile = .disabled)
    (hhash : ∀ x ∈ s.keys.shown, Closed v x) (hfloor : v ≤ s.keys.committed) :
    (r.nextOr a s).1.Refuses v := by
  have hmissed : ∀ seen, (CacheRead.next s.keys s.row a.ok (.missed seen)).1.Refuses v := by
    intro seen
    dsimp only [CacheRead.next]
    split
    · exact hrow
    · trivial
  unfold CacheRead.nextOr
  split
  · cases r with
    | idle => exact readHash_refuses hhash
    | hashed =>
      dsimp only [CacheRead.next]
      split
      · trivial
      -- the version is at least the floor
      rename_i hlt
      exact hr (hfloor.trans ((committed_le_floor s.keys).trans (not_lt.mp hlt)))
    | missed seen => exact hmissed seen
    | fetched | checked =>
      dsimp only [CacheRead.next]
      split
      · trivial
      · exact hr
    | returned | refused => trivial
  · cases r with
    | missed seen => exact hmissed seen
    | fetched | checked => exact hr
    | _ => trivial

theorem afterUser_refuses (hr : r.Refuses v) :
    (StatusThread.validate (Validation.afterUser identity r)).Refuses v := by
  cases r with
  | returned u =>
    refine decide_eq_false fun hadmits => ?_
    cases hadmits.1.symm.trans (hr : u.profile = .disabled)
  | refused => rfl
  | _ => exact hr

theorem StatusThread.next_refuses (ht : t.Refuses v) (hrow : s.row.profile = .disabled)
    (hhash : ∀ x ∈ s.keys.shown, Closed v x) (hfloor : v ≤ s.keys.committed) :
    (t.next cfg k a s).2.Refuses v := by
  cases t with
  | validate w =>
    cases w with
    | session =>
      dsimp only [StatusThread.next, Validation.next]
      split
      · split
        · trivial
        · rfl
      · rfl
      · trivial
    | user identity => exact afterUser_refuses identity (nextOr_refuses ht hrow hhash hfloor)
    | ended => exact ht
  | fill u =>
    cases u with
    | none =>
      dsimp only [StatusThread.next]
      split <;> trivial
    | some => trivial
  | _ => trivial

/-- A call has disabled the user as `c` says; threads from number `n` on have
started since. -/
structure Since (c : Closing) (n : Nat) (p : Pool StatusStore StatusThread) : Prop where
  inv : StatusInv p
  floor : c.version ≤ p.shared.keys.committed
  enables : c.enables ≤ p.shared.enables
  denied : p.shared.enables = c.enables → Denied c.version p ∧
    ∀ (j : Nat) (t : StatusThread), n ≤ j → p.threads[j]? = some t → t.Refuses c.version

theorem since_step {n : Nat} (h : Since c n p) (horderly : Orderly p op) :
    Since c n ((statusProgram cfg).step p op) := by
  obtain ⟨hturn, hinv⟩ := turn_step cfg h.inv horderly
  have hsame : ((statusProgram cfg).step p op).shared.enables = c.enables →
      ((statusProgram cfg).step p op).shared.enables = p.shared.enables := by
    intro heq
    have := h.enables
    have := hturn.enables
    omega
  refine ⟨hinv, h.floor.trans hturn.grows, h.enables.trans hturn.enables, fun heq => ?_⟩
  obtain ⟨hdenied, hrefuses⟩ := h.denied ((hsame heq).symm.trans heq)
  refine ⟨hdenied.turn hturn (hsame heq), fun j u hj hu => ?_⟩
  cases op with
  | event => exact hrefuses j u hj hu
  | start call =>
    rcases getElem?_concat_cases hu with hu | ⟨-, rfl⟩
    · exact hrefuses j u hj hu
    · cases call <;> trivial
  | go k a =>
    rcases hk : p.threads[k]? with - | t
    · rw [step_go_none a hk] at hu
      exact hrefuses j u hj hu
    rw [step_go a hk] at hu
    rcases getElem?_set_cases hu with ⟨rfl, rfl⟩ | ⟨-, hu⟩
    · exact StatusThread.next_refuses (hrefuses j t hj hk) hdenied.1 hdenied.2.1 h.floor
    · exact hrefuses j u hj hu

/-- A call that disables the user and has returned success. -/
def StatusThread.disabled : StatusThread → Option Closing
  | .update (.ended true closing) | .agent (.ended true closing) => closing
  | _ => none

theorem StatusInv.of_disabled (h : StatusInv p) (ht : t ∈ p.threads) (hc : c ∈ t.disabled) :
    c ∈ t.closing ∧ c.version ≤ p.shared.keys.committed := by
  obtain ⟨j, hj⟩ := getElem?_of_mem ht
  have hok := h.threads j t hj
  cases t with
  | update u =>
    cases u with
    | ended ok =>
      cases ok with
      | false => cases hc
      | true => exact ⟨hc, hok c hc⟩
    | _ => cases hc
  | agent d =>
    cases d with
    | ended ok =>
      cases ok with
      | false => cases hc
      | true => exact ⟨hc, hok c hc⟩
    | _ => cases hc
  | _ => cases hc

/-- **Disabling a user takes effect at once**, in runs in which the agent's call
does not leave the user shown as enabled: no validation that starts after a call
that disables has returned succeeds before the user is enabled again. -/
theorem disabling_takes_effect (cfg : StatusConfig) (row : UserBase UserStatus)
    (hversion : 0 ≤ row.authVersion) (session : SessionStore)
    (before after : List (Op StatusEvent StatusCall StatusAnswer))
    (horderly : Along (statusProgram cfg).step Orderly { shared := { row, session } } (before ++ after)) :
    let p := exec (statusProgram cfg).step { shared := { row, session } } before
    let q := exec (statusProgram cfg).step { shared := { row, session } } (before ++ after)
    ∀ t ∈ p.threads, ∀ c ∈ t.disabled, q.shared.enables = c.enables →
      ∀ j, p.threads.length ≤ j → q.threads[j]? ≠ some (.validate (.ended true)) := by
  intro p q t ht c hc henables j hj hq
  obtain ⟨hbefore, hafter⟩ := along_append.mp horderly
  have hp : StatusInv p := by
    refine exec_inv_along (fun p op hop (hp : StatusInv p) => (turn_step cfg hp hop).2) ?_ hbefore
    exact statusInv_init hversion session
  obtain ⟨hclosing, hfloor⟩ := hp.of_disabled ht hc
  obtain ⟨hle, hdenied⟩ := hp.closings t ht c hclosing
  have hsince : Since c p.threads.length p := by
    refine ⟨hp, hfloor, hle, fun heq => ⟨hdenied heq, fun i u hi hu => ?_⟩⟩
    rw [getElem?_eq_none hi] at hu
    cases hu
  have hend : Since c p.threads.length q := by
    show Since c p.threads.length (exec _ _ (before ++ after))
    rw [exec_append]
    exact exec_inv_along (fun p' op hop (hp' : Since c p.threads.length p') => since_step hp' hop)
      hsince hafter
  exact Bool.noConfusion ((hend.denied henables).2 j _ hj hq)

/-- A user who is logged in, and whose cache is warm. -/
def loggedIn : SessionStore where
  row := some { userId := 7, userAuthVersion := 1, refreshHash := "h", expiresAt := 1000 }

def enabledRow : UserBase UserStatus := { profile := .enabled, quota := 0, authVersion := 1 }

def warmUp : List (Op StatusEvent StatusCall StatusAnswer) :=
  .start .getUserCache :: List.replicate 5 (.go 0 {})

def adminDisables : List (Op StatusEvent StatusCall StatusAnswer) :=
  .start (.userUpdate (some .disabled)) :: List.replicate 12 (.go 1 {})

def agentDisables : List (Op StatusEvent StatusCall StatusAnswer) :=
  .start .disableCustomerByAgent :: List.replicate 3 (.go 1 {})

def validates : List (Op StatusEvent StatusCall StatusAnswer) :=
  .start (.validateLoginSession { userAuthVersion := 1, sessionVersion := 1 }) ::
    List.replicate 12 (.go 2 {})

/-- The run of them. -/
def runStatus (ops : List (Op StatusEvent StatusCall StatusAnswer)) : Pool StatusStore StatusThread :=
  exec (statusProgram { userId := 7 }).step { shared := { row := enabledRow, session := loggedIn } } ops

theorem disabling_takes_effect_by_admin :
    ((runStatus (warmUp ++ adminDisables)).threads[1]?.bind (·.disabled)) =
        some { version := 2, enables := 0 } ∧
      (runStatus (warmUp ++ adminDisables ++ validates)).shared.enables = 0 ∧
      (runStatus (warmUp ++ adminDisables ++ validates)).threads[2]? ≠ some (.validate (.ended true)) := by
  refine ⟨by decide +kernel, by decide +kernel, ?_⟩
  refine disabling_takes_effect { userId := 7 } enabledRow (by decide) loggedIn
    (warmUp ++ adminDisables) validates (by decide +kernel) _ (getElem_mem (n := 1) (by decide +kernel))
    { version := 2, enables := 0 } (by decide +kernel) (by decide +kernel) 2 (by decide +kernel)

/-- The validation has succeeded. -/
def StatusThread.accepted : StatusThread → Bool
  | .validate (.ended accepted) => accepted
  | _ => false

/-- The agent disables a user whose cache is warm, and a validation that starts
afterwards succeeds. -/
theorem disabled_user_validates :
    ((runStatus (warmUp ++ agentDisables)).threads[1]?.bind (·.disabled)).isSome ∧
      (runStatus (warmUp ++ agentDisables)).shared.row.profile = .disabled ∧
      (runStatus (warmUp ++ agentDisables ++ validates)).shared.enables = 0 ∧
      (runStatus (warmUp ++ agentDisables ++ validates)).threads[2]?.map (·.accepted) = some true := by
  decide +kernel

end MicrossApi
