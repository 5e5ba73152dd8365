/-
MicrossApi/RefreshChain.lean

Refresh tokens form one chain.  Starting from the secret of the login, each
secret is followed by the one derived from it.  However the calls of
`RefreshLoginSession` interleave, the row is at one place of the chain: it has
the digest of some secret, and as its previous digest that of the secret before.
An exchange of the digests takes the row one place on, because the statement
that makes it compares the digest it replaces; so every place is left once, by
one call.

What a call knows of its own while it rotates is `RotateOk`, and `RowMove` says
what a step may do to the row.  What a call knows is said together with a number
of steps within which it ends.
-/
import MicrossApi.RefreshLogin
import MicrossApi.SessionRevocation

namespace MicrossApi

open List StepSystem Interleaving
open RefreshPhase (afterSession afterRevoke)

attribute [local irreducible] trimSpace

variable {m : RefreshKeys} {cfg : SessionConfig} {s₀ : String} {r₀ : UserSession} {k n : Nat}
  {x : UserSession}

/-! ### The chain -/

/-- The `n`-th secret after that of the login. -/
def RefreshKeys.chain (m : RefreshKeys) (s₀ : String) : Nat → String
  | 0 => s₀
  | n + 1 => m.deriveNextRefreshSecret m.sid (m.chain s₀ n)

/-- A row at place `n` of the chain. -/
def RefreshKeys.OnChain (m : RefreshKeys) (s₀ : String) (n : Nat) (x : UserSession) : Prop :=
  x.refreshHash = m.hashRefreshSecret (m.chain s₀ n) ∧
    match n with
    | 0 => x.previousRefreshHash = ""
    | j + 1 => x.previousRefreshHash = m.hashRefreshSecret (m.chain s₀ j)

theorem hashRefreshSecret_inj {a b : String} (h : m.hashRefreshSecret a = m.hashRefreshSecret b) : a = b :=
  m.hmac_inj "refresh" h

/-- A row is at its place when it is read. -/
theorem onChain_afterFind (h : m.OnChain s₀ n x) : m.OnChain s₀ n x.afterFind := by
  refine ⟨h.1, ?_⟩
  cases n with
  | zero =>
    show trimSpace x.previousRefreshHash = ""
    rw [show x.previousRefreshHash = "" from h.2]
    exact trimSpace_eq_self fun c hc => (nomatch hc)
  | succ j =>
    show trimSpace x.previousRefreshHash = _
    rw [show x.previousRefreshHash = m.hashRefreshSecret (m.chain s₀ j) from h.2]
    exact m.hmac_trim _ _

/-- Who presents the previous digest presents the secret before. -/
theorem onChain_previous {secret : String} (h : m.OnChain s₀ n x)
    (hx : x.previousRefreshHash = m.hashRefreshSecret secret) : ∃ j, n = j + 1 ∧ secret = m.chain s₀ j := by
  cases n with
  | zero => exact absurd (hx.symm.trans h.2) (m.hmac_ne _ _)
  | succ j => exact ⟨j, rfl, hashRefreshSecret_inj (hx.symm.trans h.2)⟩

/-! ### The session -/

/-- A row of the same version and expiry. -/
def UserSession.Same (r₀ x : UserSession) : Prop :=
  x.version = r₀.version ∧ x.expiresAt = r₀.expiresAt

/-- Nobody holds the row, its version and expiry stay, and nothing in the cache
is newer. -/
structure SessionStore.Steady (r₀ : UserSession) (s : SessionStore) : Prop where
  version : 0 < r₀.version
  lock : s.lock = none
  cached : ∀ key, s.key = some key → key.entry.version ≤ r₀.version
  row : ∃ r, s.row = some r ∧ r₀.Same r ∧ (r.status = .active → r.revokedAt = 0)

variable {s : SessionStore} {c : Call} {r : UserSession} {ok : Bool} {e : SessionEntry} (now : Int)
  (reason : String)

section Steady

variable (hs : s.Steady r₀)

include hs

theorem SessionStore.Steady.free : s.Free k := .inl hs.lock

theorem SessionStore.Steady.unlock : s.unlock k = s := by
  unfold SessionStore.unlock
  rw [hs.lock, if_neg (fun h => nomatch h), ← hs.lock]

theorem SessionStore.Steady.same_of_row (hr : s.row = some r) :
    r₀.Same r ∧ (r.status = .active → r.revokedAt = 0) := by
  obtain ⟨r', hr', hsame⟩ := hs.row
  obtain rfl : r = r' := Option.mem_unique hr hr'
  exact hsame

theorem steady_write (expireAt : Int) (he : e.version ≤ r₀.version) : (s.write e expireAt).Steady r₀ := by
  unfold SessionStore.write
  split
  · refine ⟨hs.version, hs.lock, fun key hkey => ?_, hs.row⟩
    split at hkey
    · cases hkey
    · cases hkey
      exact he
  · exact hs

theorem SessionStore.Steady.admits (he : e.version = r₀.version) (hdeny : e.status ≠ .active) : s.Admits e := by
  refine admits_deny (he ▸ hs.version) hdeny fun current hcurrent => ?_
  obtain ⟨key, hkey, rfl, -⟩ := cached_eq_some hcurrent
  exact he ▸ hs.cached key hkey

theorem SessionStore.Steady.same_of_find {userId : Int} (hx : s.findOf userId = some x) : r₀.Same x := by
  obtain ⟨r, hr, rfl⟩ := findOf_eq_some hx
  exact (hs.same_of_row hr).1

/-! ### Steps that leave the row alone -/

/-- A store that is as steady, with the same row. -/
structure Quiet (r₀ : UserSession) (s s' : SessionStore) : Prop where
  steady : s'.Steady r₀
  row : s'.row = s.row

theorem SessionStore.Steady.quiet : Quiet r₀ s s := ⟨hs, rfl⟩

/-- The call is publishing `x` as active, which takes at most `n` steps more. -/
inductive Call.Publishes (by_ : Publisher) (x : UserSession) (n : Nat) : Call → Prop
  | publish (d : Int) (hn : 4 ≤ n) : Publishes by_ x n (.publish by_ d x)
  | publishScript (d e : Int) (hn : 3 ≤ n) : Publishes by_ x n (.publishScript by_ d e x)
  | published (d : Int) (hn : 2 ≤ n) : Publishes by_ x n (.published by_ d x)
  | confirm (hn : 1 ≤ n) : Publishes by_ x n (.confirm by_ x)

/-- The call is publishing that `x` is denied. -/
inductive Call.Denies (goal : DenyGoal) (x : UserSession) (n : Nat) : Call → Prop
  | deny (hn : 2 ≤ n) : Denies goal x n (.deny goal x)
  | denyScript (ttl : Int) (hn : 1 ≤ n) : Denies goal x n (.denyScript goal ttl x)

omit hs in
theorem Call.Publishes.pos {by_ : Publisher} (h : c.Publishes by_ x n) : 0 < n := by
  cases h <;> omega

omit hs in
theorem Call.Denies.pos {goal : DenyGoal} (h : c.Denies goal x n) : 0 < n := by
  cases h <;> omega

variable (cfg k ok)

theorem publishes_next {by_ : Publisher} (h : c.Publishes by_ x n)
    (hx : x.version = r₀.version) : Quiet r₀ s (c.next cfg k ok s).1 ∧
      ((c.next cfg k ok s).2.Publishes by_ x (n - 1) ∨ (c.next cfg k ok s).2 = .ended (by_.result x) ∨
        ∃ e, (c.next cfg k ok s).2 = .ended (.failed e)) := by
  cases h with
  | publish d hn =>
    dsimp only [Call.next]
    split
    · exact ⟨hs.quiet, .inl (.confirm (by omega))⟩
    · exact ⟨hs.quiet, .inl (.publishScript _ _ (by omega))⟩
    · exact ⟨hs.quiet, .inr (.inr ⟨_, rfl⟩)⟩
  | publishScript d e hn =>
    refine ⟨⟨steady_write hs e hx.le, row_write _ e⟩, ?_⟩
    dsimp only [Call.next]
    split
    · exact .inl (.published _ (by omega))
    · exact .inr (.inr ⟨_, rfl⟩)
  | published d hn =>
    refine ⟨hs.quiet, ?_⟩
    dsimp only [Call.next]
    split
    · exact .inl (.confirm (by omega))
    split
    · exact .inr (.inr ⟨_, rfl⟩)
    · exact .inr (.inl rfl)
  | confirm =>
    refine ⟨hs.quiet, .inr ?_⟩
    dsimp only [Call.next]
    split
    · exact .inr ⟨_, rfl⟩
    split
    · exact .inr ⟨_, rfl⟩
    split
    · exact .inl rfl
    · exact .inr ⟨_, rfl⟩

theorem denies_next {goal : DenyGoal} (h : c.Denies goal x n)
    (hx : (goal.entry x).version = r₀.version) : Quiet r₀ s (c.next cfg k ok s).1 ∧
      ((c.next cfg k ok s).2.Denies goal x (n - 1) ∨
        ∃ admitted, (c.next cfg k ok s).2 = goal.after admitted x ∧
          ((goal.entry x).status ≠ .active → admitted = true)) := by
  cases h with
  | deny hn => exact ⟨hs.quiet, .inl (.denyScript _ (by omega))⟩
  | denyScript =>
    dsimp only [Call.next]
    split
    · exact ⟨⟨steady_write hs _ hx.le, row_write _ _⟩, .inr ⟨true, rfl, fun _ => rfl⟩⟩
    rename_i hrefused
    rw [hs.unlock]
    exact ⟨hs.quiet, .inr ⟨false, rfl, fun hdeny => absurd (hs.admits hx hdeny) hrefused⟩⟩

/-- A call in `GetUserSessionCached`. -/
inductive Call.Getting (r₀ : UserSession) (n : Nat) : Call → Prop
  | get (hn : 8 ≤ n) : Getting r₀ n .get
  | getMiss (hn : 7 ≤ n) : Getting r₀ n .getMiss
  | getRow (d : Int) (hn : 6 ≤ n) : Getting r₀ n (.getRow d)
  | getFound (d : Int) (x : UserSession) (hx : x.version = r₀.version) (hn : 5 ≤ n) :
      Getting r₀ n (.getFound d x)
  | publishes (c : Call) (x : UserSession) (h : c.Publishes .get x n) (hx : x.version = r₀.version) :
      Getting r₀ n c
  | denies (c : Call) (x : UserSession) (h : c.Denies .observed x n) (hx : x.version = r₀.version) :
      Getting r₀ n c

theorem getting_next (h : c.Getting r₀ n) :
    Quiet r₀ s (c.next cfg k ok s).1 ∧
      ((c.next cfg k ok s).2.Getting r₀ (n - 1) ∨ ∃ r, (c.next cfg k ok s).2 = .ended r) := by
  cases h with
  | get hn =>
    have hmiss : Call.getMiss.Getting r₀ (n - 1) := .getMiss (by omega)
    refine ⟨hs.quiet, ?_⟩
    dsimp only [Call.next]
    split
    · unfold Call.afterKey
      split
      · exact .inl hmiss
      split
      · exact .inl hmiss
      split <;> exact .inr ⟨_, rfl⟩
    · exact .inl hmiss
  | getMiss hn => exact ⟨hs.quiet, .inl (.getRow _ (by omega))⟩
  | getRow d hn =>
    dsimp only [Call.next]
    split
    · exact ⟨hs.quiet, .inr ⟨_, rfl⟩⟩
    split
    · exact ⟨hs.quiet, .inr ⟨_, rfl⟩⟩
    rename_i x hx
    obtain ⟨r, hr, rfl⟩ := find_eq_some hx
    exact ⟨hs.quiet, .inl (.getFound d _ (hs.same_of_row hr).1.1 (by omega))⟩
  | getFound d x hx hn =>
    refine ⟨hs.quiet, .inl ?_⟩
    dsimp only [Call.next]
    split
    · exact .publishes _ x (.publish d (by omega)) hx
    · exact .denies _ x (.deny (by omega)) hx
  | publishes _ x h hx =>
    obtain ⟨hquiet, h | h | ⟨e, h⟩⟩ := publishes_next cfg k ok hs h hx
    · exact ⟨hquiet, .inl (.publishes _ x h hx)⟩
    · exact ⟨hquiet, .inr ⟨_, h⟩⟩
    · exact ⟨hquiet, .inr ⟨_, h⟩⟩
  | denies _ x h hx =>
    obtain ⟨hquiet, h | ⟨admitted, h, -⟩⟩ := denies_next cfg k ok hs h hx
    · exact ⟨hquiet, .inl (.denies _ x h hx)⟩
    · exact ⟨hquiet, .inr ⟨_, h⟩⟩

/-! ### Steps that revoke -/

theorem steady_revokeRow (hr : s.row = some r) : (s.revokeRow r now reason).Steady r₀ := by
  exact ⟨hs.version, hs.lock, hs.cached, r.revoke now reason, rfl, (hs.same_of_row hr).1, fun h => nomatch h⟩

/-- A call in `RevokeUserSession`. -/
inductive Call.Revoking (r₀ : UserSession) (n : Nat) : Call → Prop
  | revoke (userId : Int) (reason : String) (now : Int) (hn : 6 ≤ n) :
      Revoking r₀ n (.revoke userId reason now)
  | fence (c : Call) (x : UserSession) (now : Int) (reason : String)
      (h : c.Denies (.fence .single now reason) x (n - 3)) (hx : x.version = r₀.version) : Revoking r₀ n c
  | tx (now : Int) (reason : String) (x : UserSession) (hx : x.version = r₀.version) (hn : 3 ≤ n) :
      Revoking r₀ n (.revokeTx .single now reason x)
  | tombstone (c : Call) (x : UserSession) (h : c.Denies (.tombstone .single) x n)
      (hx : x.version = r₀.version) : Revoking r₀ n c

theorem revoking_next (h : c.Revoking r₀ n) :
    (Quiet r₀ s (c.next cfg k ok s).1 ∨
        ∃ r now reason, s.row = some r ∧ (c.next cfg k ok s).1 = s.revokeRow r now reason) ∧
      ((c.next cfg k ok s).2.Revoking r₀ (n - 1) ∨ ∃ r, (c.next cfg k ok s).2 = .ended r) := by
  cases h with
  | revoke userId reason now hn =>
    dsimp only [Call.next]
    split
    · exact ⟨.inl hs.quiet, .inr ⟨_, rfl⟩⟩
    split
    · exact ⟨.inl hs.quiet, .inr ⟨_, rfl⟩⟩
    rename_i x hx
    refine ⟨.inl hs.quiet, ?_⟩
    split
    · exact .inl (.fence _ x now reason (.deny (by omega)) (hs.same_of_find hx).1)
    · exact .inr ⟨_, rfl⟩
  | fence _ x now reason h hx =>
    have hn := h.pos
    obtain ⟨hquiet, h | ⟨admitted, h, -⟩⟩ := denies_next cfg k ok hs h hx
    · exact ⟨.inl hquiet, .inl (.fence _ x now reason (Nat.sub_right_comm .. ▸ h) hx)⟩
    rw [h]
    refine ⟨.inl hquiet, ?_⟩
    cases admitted with
    | false => exact .inr ⟨_, rfl⟩
    | true => exact .inl (.tx now reason x hx (by omega))
  | tx now reason x hx hn =>
    obtain ⟨r, hr, -⟩ := hs.row
    dsimp only [Call.next]
    rw [if_neg (not_not.mpr hs.free), hs.unlock, hr]
    split
    · exact ⟨.inl hs.quiet, .inr ⟨_, rfl⟩⟩
    dsimp only [SessionStore.revokeTx]
    split
    · exact ⟨.inr ⟨r, now, reason, rfl, rfl⟩, .inl (.tombstone _ _ (.deny (by omega)) hx)⟩
    · exact ⟨.inl hs.quiet, .inr ⟨_, rfl⟩⟩
  | tombstone _ x h hx =>
    obtain ⟨hquiet, h | ⟨admitted, h, -⟩⟩ := denies_next cfg k ok hs h hx
    · exact ⟨.inl hquiet, .inl (.tombstone _ x h hx)⟩
    · exact ⟨.inl hquiet, .inr ⟨_, h⟩⟩

theorem revoked_of_not_active {now : Int} (hr : s.row = some r) (hx : r₀.Same x)
    (hactive : x.Active now) (hr' : ¬ r.Active now) : s.Revoked := by
  obtain ⟨hsame, hrevoked⟩ := hs.same_of_row hr
  refine ⟨r, hr, fun hstatus => hr' ⟨hstatus, hrevoked hstatus, ?_⟩⟩
  rw [hsame.2, ← hx.2]
  exact hactive.2.2

theorem reuse_next {now : Int} (hx : r₀.Same x) (hactive : x.Active now) :
    (Call.revokeTx .reuse now reason x).next cfg k ok s = (s, .ended (.failed .db)) ∨
    (∃ r, s.row = some r ∧ (Call.revokeTx .reuse now reason x).next cfg k ok s =
      (s.revokeRow r now reason, .deny (.tombstone .reuse) (x.revoke now reason))) ∨ s.Revoked ∧
      (Call.revokeTx .reuse now reason x).next cfg k ok s = (s, .ended (.failed .inactive)) := by
  obtain ⟨r, hr, -⟩ := hs.row
  dsimp only [Call.next]
  rw [if_neg (not_not.mpr hs.free), hs.unlock, hr]
  split
  · exact .inl rfl
  dsimp only [SessionStore.revokeTx]
  split
  · exact .inr (.inl ⟨r, rfl, rfl⟩)
  next hinactive =>
    exact .inr (.inr ⟨revoked_of_not_active hs hr hx hactive hinactive, rfl⟩)

end Steady

/-! ### What a call knows -/

/-- The call presented the secret before the row it read, past the window. -/
def Presented.Late (m : RefreshKeys) (s₀ : String) (t : Presented) : Prop :=
  ∃ n x, t.read = some x ∧ m.OnChain s₀ (n + 1) x ∧ t.secret = m.chain s₀ n ∧ x.Active t.now ∧
    x.previousValidUntil < t.now

/-- The call found the user of the session disabled, or of another auth version. -/
def RefreshCall.FoundInsecure (t : RefreshCall) : Prop :=
  ∃ x cached current c, t.phase = .revoking x cached current c ∧ ¬ x.FoundSecure cached current

/-- Call `k` may hand out the token: it is the successor of what the call
presented, and either the call has made that exchange, or it came within the
window after it. -/
def Presented.MayHand (m : RefreshKeys) (s₀ : String) (s : RefreshStore) (k : Nat) (t : Presented)
    (token : String) : Prop :=
  ∃ n, t.secret = m.chain s₀ n ∧ token = m.sid ++ "." ++ m.chain s₀ (n + 1) ∧
    (s.rotations[n]? = some (k, t.secret) ∨
      ∃ x, t.read = some x ∧ m.OnChain s₀ (n + 1) x ∧ t.now ≤ x.previousValidUntil)

/-- The arguments are those of the call. -/
structure RotateArgs.For (m : RefreshKeys) (t : Presented) (args : RotateArgs) : Prop where
  presented : args.presentedHash = m.hashRefreshSecret t.secret
  next : args.nextHash = m.hashRefreshSecret (t.nextSecret m)
  now : args.now = t.now
  ne : args.presentedHash ≠ args.nextHash

/-- What call `k` knows in `RotateUserSessionRefresh`. -/
inductive Presented.RotateOk (m : RefreshKeys) (s₀ : String) (r₀ : UserSession) (s : RefreshStore)
    (k : Nat) (t : Presented) (n : Nat) : Call → Prop
  | rotate (args : RotateArgs) (left : Nat) (hargs : args.For m t) (hlate : ¬ t.Late m s₀)
      (hn : 3 * left + 6 ≤ n) : RotateOk m s₀ r₀ s k t n (.rotate args left)
  | rotateRow (args : RotateArgs) (left : Nat) (d : Int) (hargs : args.For m t)
      (hlate : ¬ t.Late m s₀) (hn : 3 * left + 8 ≤ n) : RotateOk m s₀ r₀ s k t n (.rotateRow args left d)
  | rotateSwap (args : RotateArgs) (left : Nat) (d : Int) (x : UserSession) (hargs : args.For m t)
      (hlate : ¬ t.Late m s₀) (hsame : r₀.Same x) (hx : x.refreshHash = args.presentedHash)
      (hn : 3 * left + 7 ≤ n) : RotateOk m s₀ r₀ s k t n (.rotateSwap args left d x)
  | publishes (c : Call) (x : UserSession) (h : c.Publishes .rotate x n) (hx : x.version = r₀.version)
      (hlate : ¬ t.Late m s₀) (hhand : t.MayHand m s₀ s k (t.nextToken m)) :
      RotateOk m s₀ r₀ s k t n c
  | fence (c : Call) (x : UserSession) (reason : String)
      (h : c.Denies (.fence .reuse t.now reason) x (n - 3)) (hsame : r₀.Same x)
      (hactive : x.Active t.now) (hlate : t.Late m s₀) : RotateOk m s₀ r₀ s k t n c
  | tx (x : UserSession) (reason : String) (hsame : r₀.Same x) (hactive : x.Active t.now)
      (hlate : t.Late m s₀) (hn : 3 ≤ n) : RotateOk m s₀ r₀ s k t n (.revokeTx .reuse t.now reason x)
  | tombstone (c : Call) (x : UserSession) (h : c.Denies (.tombstone .reuse) x n)
      (hx : x.version = r₀.version) (hrevoked : s.store.Revoked) : RotateOk m s₀ r₀ s k t n c

/-- What call `k` knows in each phase, `n` steps before its end at most. -/
def Presented.PhaseOk (m : RefreshKeys) (s₀ : String) (r₀ : UserSession) (s : RefreshStore) (k : Nat)
    (t : Presented) (n : Nat) : RefreshPhase → Prop
  | .session c => c.Getting r₀ (n - 21) ∧ t.read = none
  | .check _ => t.read = none ∧ 20 ≤ n
  | .userCache _ => t.read = none ∧ 19 ≤ n
  | .userById _ _ => t.read = none ∧ 18 ≤ n
  | .revoking x cached current c =>
    ¬ x.FoundSecure cached current ∧ c.Revoking r₀ n ∧ t.read = none
  | .rotating c => t.RotateOk m s₀ r₀ s k (n - 1) c
  | .issuing token => (¬ t.Late m s₀ ∧ t.MayHand m s₀ s k token) ∧ 1 ≤ n
  | .ended r => (t.Late m s₀ → r = .failed .db ∨ s.store.Revoked) ∧
      ∀ token, r = .answered token → t.MayHand m s₀ s k token

/-- The row is at the place of the chain that the exchanges have brought it to. -/
structure RefreshStore.Ok (m : RefreshKeys) (s₀ : String) (r₀ : UserSession) (s : RefreshStore) :
    Prop where
  steady : s.store.Steady r₀
  row : ∃ r, s.store.row = some r ∧ m.OnChain s₀ s.rotations.length r
  rotations : s.rotations.map Prod.snd = (List.range s.rotations.length).map (m.chain s₀)

/-- What a step of call `k` may do to the row. -/
inductive RowMove (m : RefreshKeys) (s₀ : String) (k : Nat) (t : RefreshCall) (s s' : RefreshStore) :
    Prop
  | same (hrow : s'.store.row = s.store.row) (hrotations : s'.rotations = s.rotations)
  | swapped (hactive : ¬ s.store.Revoked) (hsecret : t.secret = m.chain s₀ s.rotations.length)
      (hrotations : s'.rotations = s.rotations ++ [(k, t.secret)])
  | revoked (hrevoked : s'.store.Revoked) (hrotations : s'.rotations = s.rotations)
      (hwhy : t.Late m s₀ ∨ t.FoundInsecure)

variable {st st' : RefreshStore} {t : Presented} {w : RefreshCall}

section Monotone

variable (h : RowMove m s₀ k w st st') {u : Presented} {j : Nat}

include h

theorem RowMove.isRevoked (hst : st.store.Revoked) : st'.store.Revoked := by
  cases h with
  | same hrow =>
    obtain ⟨r, hr, hstatus⟩ := hst
    exact ⟨r, hrow.trans hr, hstatus⟩
  | swapped hactive => exact absurd hst hactive
  | revoked hrevoked => exact hrevoked

theorem RowMove.getElem? {i : Nat} {e : Nat × String} (he : st.rotations[i]? = some e) :
    st'.rotations[i]? = some e := by
  cases h with
  | same _ hrotations => rw [hrotations, he]
  | swapped _ _ hrotations =>
    rw [hrotations, getElem?_append_left (List.getElem?_eq_some_iff.mp he).1, he]
  | revoked _ hrotations => rw [hrotations, he]

theorem Presented.MayHand.mono {token : String}
    (hu : u.MayHand m s₀ st j token) : u.MayHand m s₀ st' j token := by
  obtain ⟨n, hsecret, htoken, hwon | hread⟩ := hu
  · exact ⟨n, hsecret, htoken, .inl (h.getElem? hwon)⟩
  · exact ⟨n, hsecret, htoken, .inr hread⟩

theorem Presented.RotateOk.mono (hu : u.RotateOk m s₀ r₀ st j n c) : u.RotateOk m s₀ r₀ st' j n c := by
  cases hu with
  | rotate | rotateRow | rotateSwap => constructor <;> assumption
  | publishes _ x hc hx hlate hhand => exact .publishes _ x hc hx hlate (hhand.mono h)
  | fence _ x reason hc hsame hactive hlate => exact .fence _ x reason hc hsame hactive hlate
  | tx x reason hsame hactive hlate hn => exact .tx x reason hsame hactive hlate hn
  | tombstone _ x hc hx hrevoked => exact .tombstone _ x hc hx (h.isRevoked hrevoked)

/-- What a call knows survives the steps of the others. -/
theorem Presented.PhaseOk.mono {phase : RefreshPhase}
    (hu : u.PhaseOk m s₀ r₀ st j n phase) : u.PhaseOk m s₀ r₀ st' j n phase := by
  cases phase with
  | session | check | userCache | userById | revoking => exact hu
  | rotating => exact RotateOk.mono h hu
  | issuing => exact ⟨⟨hu.1.1, MayHand.mono h hu.1.2⟩, hu.2⟩
  | ended => exact ⟨fun hl => (hu.1 hl).imp id h.isRevoked, fun token hr => (hu.2 token hr).mono h⟩

end Monotone

/-! ### Steps of a call -/

/-- A step of call `k` to the store and the call in `p`. -/
structure Moves (m : RefreshKeys) (s₀ : String) (r₀ : UserSession) (k : Nat) (s : RefreshStore)
    (t : RefreshCall) (n : Nat) (p : RefreshStore × RefreshCall) : Prop where
  store : p.1.Ok m s₀ r₀
  call : p.2.PhaseOk m s₀ r₀ p.1 k n p.2.phase
  row : RowMove m s₀ k t s p.1

variable {store : SessionStore}

theorem RefreshStore.Ok.quiet (hst : st.Ok m s₀ r₀)
    (hq : Quiet r₀ st.store store) : ({ st with store := store }).Ok m s₀ r₀ := by
  obtain ⟨r, hr, hchain⟩ := hst.row
  exact ⟨hq.steady, ⟨r, hq.row.trans hr, hchain⟩, hst.rotations⟩

theorem RefreshStore.Ok.revokeRow (hst : st.Ok m s₀ r₀) (hr : st.store.row = some r) :
    ({ st with store := st.store.revokeRow r now reason }).Ok m s₀ r₀ := by
  obtain ⟨r', hr', hchain⟩ := hst.row
  obtain rfl : r = r' := Option.mem_unique hr hr'
  exact ⟨steady_revokeRow now reason hst.steady hr, ⟨_, rfl, hchain⟩, hst.rotations⟩

variable {u : RefreshCall}

theorem moves_stay (hst : st.Ok m s₀ r₀) (hu : u.PhaseOk m s₀ r₀ st k n u.phase) :
    Moves m s₀ r₀ k st w n (st, u) :=
  ⟨hst, hu, .same rfl rfl⟩

theorem moves_quiet (hst : st.Ok m s₀ r₀)
    (hq : Quiet r₀ st.store store) (hu : u.PhaseOk m s₀ r₀ { st with store := store } k n u.phase) :
    Moves m s₀ r₀ k st w n ({ st with store := store }, u) :=
  ⟨hst.quiet hq, hu, .same hq.row rfl⟩

theorem not_late_of_none (h : t.read = none) : ¬ t.Late m s₀ := by
  rintro ⟨n, x, hx, -⟩
  rw [h] at hx
  cases hx

/-! ### What a call makes of its calls -/

theorem Call.Getting.pos (h : c.Getting r₀ n) : 0 < n := by
  cases h with
  | publishes _ _ h | denies _ _ h => exact h.pos
  | _ => omega

theorem Call.Revoking.pos (h : c.Revoking r₀ n) : 0 < n := by
  cases h with
  | fence _ _ _ _ h =>
    have hpos := h.pos
    omega
  | tombstone _ _ h => exact h.pos
  | _ => omega

theorem Presented.RotateOk.pos (h : t.RotateOk m s₀ r₀ st k n c) : 0 < n := by
  cases h with
  | fence _ _ _ h =>
    have hpos := h.pos
    omega
  | publishes _ _ h | tombstone _ _ h => exact h.pos
  | _ => omega

theorem Presented.RotateOk.not_ended {r : SessionResult} (h : t.RotateOk m s₀ r₀ st k n (.ended r)) :
    False := by
  cases h with
  | publishes _ _ h | fence _ _ _ h | tombstone _ _ h => cases h

theorem phaseOk_ended {r : RefreshResult} (hread : t.read = none) (hr : ∀ token, r ≠ .answered token) :
    t.PhaseOk m s₀ r₀ st k n (.ended r) :=
  ⟨fun hlate => absurd hlate (not_late_of_none hread), fun token h => absurd h (hr token)⟩

theorem phaseOk_afterSession (hread : t.read = none) (hn : 20 ≤ n)
    (h : c.Getting r₀ (n - 21) ∨ ∃ r, c = .ended r) : t.PhaseOk m s₀ r₀ st k n (.afterSession c) := by
  unfold afterSession
  split
  · exact ⟨hread, hn⟩
  · exact phaseOk_ended hread fun _ h => nomatch h
  · exact phaseOk_ended hread fun _ h => nomatch h
  next hne =>
    exact ⟨h.resolve_right fun ⟨r, hr⟩ => hne r hr, hread⟩

theorem phaseOk_afterRevoke {cached current : FoundUser} (hread : t.read = none)
    (hsecure : ¬ x.FoundSecure cached current) (h : c.Revoking r₀ n ∨ ∃ r, c = .ended r) :
    t.PhaseOk m s₀ r₀ st k n (.afterRevoke x cached current c) := by
  unfold afterRevoke
  split
  · exact phaseOk_ended hread fun _ h => nomatch h
  next hne =>
    exact ⟨hsecure, h.resolve_right fun ⟨r, hr⟩ => hne r hr, hread⟩

/-- How `RotateUserSessionRefresh` may end for the call. -/
structure Presented.EndOk (m : RefreshKeys) (s₀ : String) (s : RefreshStore) (k : Nat)
    (t : Presented) (r : SessionResult) : Prop where
  late : t.Late m s₀ → r = .failed .db ∨ s.store.Revoked
  hand : r = .done ∨ r = .failed .refreshRace → ¬ t.Late m s₀ ∧ t.MayHand m s₀ s k (t.nextToken m)

theorem endOk_error {e : SessionErr} (he : e ≠ .refreshRace)
    (h : t.Late m s₀ → SessionResult.failed e = .failed .db ∨ st.store.Revoked) :
    t.EndOk m s₀ st k (.failed e) := by
  refine ⟨h, ?_⟩
  rintro (hr | hr)
  · cases hr
  · cases hr
    exact absurd rfl he

theorem endOk_failed {e : SessionErr} (h : ¬ t.Late m s₀) (he : e ≠ .refreshRace) :
    t.EndOk m s₀ st k (.failed e) :=
  endOk_error he fun hl => absurd hl h

theorem phaseOk_afterRotate (hn : 1 ≤ n)
    (h : t.RotateOk m s₀ r₀ st k (n - 1) c ∨ ∃ r, c = .ended r ∧ t.EndOk m s₀ st k r) :
    t.PhaseOk m s₀ r₀ st k n (t.afterRotate m c) := by
  rcases h with h | ⟨r, rfl, hlate, hhand⟩
  · cases c with
    | ended => exact h.not_ended.elim
    | _ => exact h
  unfold Presented.afterRotate
  split
  next heq =>
    cases heq
    exact ⟨hhand (.inl rfl), hn⟩
  next heq =>
    cases heq
    obtain ⟨hnot, hhand⟩ := hhand (.inr rfl)
    have hrace : t.PhaseOk m s₀ r₀ st k n (.ended .refreshRace) :=
      ⟨fun hl => absurd hl hnot, fun _ h => nomatch h⟩
    split
    · exact hrace
    split
    · exact ⟨⟨hnot, hhand⟩, hn⟩
    · exact hrace
  next heq =>
    cases heq
    exact ⟨fun hl => .inr ((hlate hl).resolve_left fun h => nomatch h), fun _ h => nomatch h⟩
  next heq =>
    cases heq
    exact ⟨fun hl => .inr ((hlate hl).resolve_left fun h => nomatch h), fun _ h => nomatch h⟩
  next e _ _ _ heq =>
    cases heq
    refine ⟨fun hl => (hlate hl).imp_left fun h => ?_, fun _ h => nomatch h⟩
    cases h
    rfl
  next heq =>
    cases heq
    exact ⟨fun hl => .inr ((hlate hl).resolve_left fun h => by simp_all), fun _ h => nomatch h⟩
  next hne =>
    exact absurd rfl (hne r)

/-! ### Steps of the rotation -/

variable {by_ : Publisher} {goal : DenyGoal}

theorem Call.Publishes.swapped (h : c.Publishes by_ x n) (c' : Call) : c.swapped c' = false := by
  cases h <;> rfl

theorem Call.Publishes.reads (h : c.Publishes by_ x n) (before : Option UserSession) :
    c.reads ok s before = before := by
  cases h <;> rfl

theorem Call.Denies.swapped (h : c.Denies goal x n) (c' : Call) : c.swapped c' = false := by
  cases h <;> rfl

theorem Call.Denies.reads (h : c.Denies goal x n) (before : Option UserSession) :
    c.reads ok s before = before := by
  cases h <;> rfl

theorem rotatedTo_moves {read : Option UserSession} {out : SessionStore × Call}
    (hst : st.Ok m s₀ r₀) (hn : 0 < n) (hq : Quiet r₀ st.store out.1)
    (h : { w.toPresented with read := read }.RotateOk m s₀ r₀ { st with store := out.1 } k (n - 1) out.2 ∨
      ∃ r, out.2 = .ended r ∧
        { w.toPresented with read := read }.EndOk m s₀ { st with store := out.1 } k r) :
    Moves m s₀ r₀ k st w n (w.rotatedTo m k st false read out) :=
  moves_quiet hst hq (phaseOk_afterRotate hn h)

theorem nextSecret_eq (h : t.secret = m.chain s₀ n) : t.nextSecret m = m.chain s₀ (n + 1) := by
  unfold Presented.nextSecret
  rw [h]
  rfl

theorem nextToken_eq (h : t.secret = m.chain s₀ n) : t.nextToken m = m.sid ++ "." ++ m.chain s₀ (n + 1) := by
  unfold Presented.nextToken
  rw [nextSecret_eq h]

variable {args : RotateArgs}

theorem Presented.Late.of_read (h : t.Late m s₀) (hread : t.read = some x) (hargs : args.For m t) :
    x.Active args.now ∧ x.refreshHash ≠ args.presentedHash ∧ x.previousRefreshHash ≠ "" ∧
      x.previousRefreshHash = args.presentedHash ∧ x.previousValidUntil < args.now := by
  obtain ⟨n, x', hx, ⟨hhash, hprevious⟩, hsecret, hactive, hlt⟩ := h
  obtain rfl : x = x' := Option.mem_unique hread hx
  have hnext : x.refreshHash = args.nextHash := by
    rw [hhash, hargs.next, nextSecret_eq hsecret]
  have hpresented : x.previousRefreshHash = args.presentedHash := by
    rw [hargs.presented, hsecret]
    exact hprevious
  refine ⟨hargs.now ▸ hactive, fun h => hargs.ne (h.symm.trans hnext), ?_, hpresented,
    hargs.now ▸ hlt⟩
  rw [hpresented, hargs.presented]
  exact m.hmac_ne _ _

theorem rotateOk_afterRotateRow {left i : Nat} (d : Int) (hargs : args.For m t) (hi : 3 * left + 7 ≤ i)
    (hread : t.read = some x) (hsame : r₀.Same x) (hchain : m.OnChain s₀ n x) :
    t.RotateOk m s₀ r₀ st k i (Call.afterRotateRow args left d x) ∨
      ∃ r, Call.afterRotateRow args left d x = .ended r ∧ t.EndOk m s₀ st k r := by
  unfold Call.afterRotateRow
  split
  next hinactive =>
    exact .inr ⟨_, rfl, endOk_failed (fun h => hinactive (h.of_read hread hargs).1) (by decide)⟩
  rename_i hactive
  have hactive : x.Active args.now := not_not.mp hactive
  split
  next hhash =>
    exact .inl (.rotateSwap args left d x hargs (fun h => (h.of_read hread hargs).2.1 hhash) hsame hhash hi)
  split
  next hunknown =>
    exact .inr ⟨_, rfl, endOk_failed
      (fun h => hunknown.elim (h.of_read hread hargs).2.2.1
        fun hne => hne (h.of_read hread hargs).2.2.2.1)
      (by decide)⟩
  next hknown =>
    have hprevious : x.previousRefreshHash = m.hashRefreshSecret t.secret :=
      (not_not.mp (not_or.mp hknown).2).trans hargs.presented
    obtain ⟨j, rfl, hsecret⟩ := onChain_previous hchain hprevious
    split
    next hwindow =>
      have hnot : ¬ t.Late m s₀ := fun h =>
        absurd hwindow (not_le.mpr (h.of_read hread hargs).2.2.2.2)
      have hhand : t.MayHand m s₀ st k (t.nextToken m) :=
        ⟨j, hsecret, nextToken_eq hsecret, .inr ⟨x, hread, hchain, hargs.now ▸ hwindow⟩⟩
      exact .inr ⟨_, rfl, fun h => absurd h hnot, fun _ => ⟨hnot, hhand⟩⟩
    next hwindow =>
      have hlate : t.Late m s₀ :=
        ⟨j, x, hread, hchain, hsecret, hargs.now ▸ hactive, hargs.now ▸ not_le.mp hwindow⟩
      rw [hargs.now]
      exact .inl (.fence _ x _ (.deny (by omega)) hsame (hargs.now ▸ hactive) hlate)

/-- **The exchange takes the row one place on.** -/
theorem rotateSwap_moves {left : Nat} {d : Int} (ok : Bool)
    (hst : st.Ok m s₀ r₀) (hargs : args.For m w.toPresented) (hlate : ¬ w.Late m s₀)
    (hsame : r₀.Same x) (hx : x.refreshHash = args.presentedHash) (hn : 3 * left + 7 ≤ n) :
    Moves m s₀ r₀ k st w n (w.rotatedTo m k st
      ((Call.rotateSwap args left d x).swapped
        ((Call.rotateSwap args left d x).next cfg k ok st.store).2) w.read
      ((Call.rotateSwap args left d x).next cfg k ok st.store)) := by
  obtain ⟨r, hr, hchain⟩ := hst.row
  have hpos : 0 < n := by omega
  dsimp only [Call.next]
  rw [if_neg (not_not.mpr hst.steady.free), hr]
  split
  · exact rotatedTo_moves hst hpos hst.steady.quiet
      (.inr ⟨_, rfl, endOk_failed hlate (by decide)⟩)
  dsimp only
  split
  next hswap =>
    obtain ⟨-, hactive, hhash⟩ := hswap
    have hsecret : w.secret = m.chain s₀ st.rotations.length :=
      hashRefreshSecret_inj (hargs.presented.symm.trans (hhash.symm.trans hchain.1))
    obtain ⟨r', hr', hrsame, hrevoked⟩ := hst.steady.row
    obtain rfl : r = r' := Option.mem_unique hr hr'
    have hmove : RowMove m s₀ k w st
        { store := { st.store with row := some (r.rotated x args) }
          rotations := st.rotations ++ [(k, w.secret)] } :=
      .swapped (not_revoked hr hactive.1) hsecret rfl
    refine ⟨⟨⟨hst.steady.version, hst.steady.lock, hst.steady.cached, _, rfl, hrsame, hrevoked⟩,
      ⟨_, rfl, ?_⟩, ?_⟩,
      phaseOk_afterRotate hpos
        (.inl (.publishes _ (x.rotated x args) (.publish d (by omega)) hsame.1 hlate ?_)),
      hmove⟩
    · show m.OnChain s₀ (st.rotations ++ [(k, w.secret)]).length (r.rotated x args)
      rw [length_append]
      refine ⟨?_, ?_⟩
      · show args.nextHash = _
        rw [hargs.next, nextSecret_eq hsecret]
        rfl
      · show x.refreshHash = _
        rw [hx, hargs.presented, hsecret]
    · show (st.rotations ++ [(k, w.secret)]).map Prod.snd =
        (List.range (st.rotations ++ [(k, w.secret)]).length).map _
      rw [map_append, hst.rotations, length_append, length_singleton,
        range_succ, map_append, hsecret]
      rfl
    · refine ⟨st.rotations.length, hsecret, nextToken_eq hsecret, .inl ?_⟩
      show (st.rotations ++ [(k, w.secret)])[st.rotations.length]? = _
      rw [getElem?_concat_length]
  · exact rotatedTo_moves hst hpos hst.steady.quiet (.inl (.rotate args left hargs hlate (by omega)))

variable (cfg s ok)

/-- A step in `RotateUserSessionRefresh`. -/
theorem rotating_moves (hst : st.Ok m s₀ r₀)
    (h : w.RotateOk m s₀ r₀ st k n c) :
    Moves m s₀ r₀ k st w n (w.rotatedTo m k st (c.swapped (c.next cfg k ok st.store).2)
      (c.reads ok st.store w.read) (c.next cfg k ok st.store)) := by
  have hpos := h.pos
  cases h with
  | rotate args left hargs hlate hn =>
    cases left with
    | zero =>
      exact rotatedTo_moves hst hpos hst.steady.quiet
        (.inr ⟨_, rfl, endOk_failed hlate (by decide)⟩)
    | succ left =>
      exact rotatedTo_moves hst hpos hst.steady.quiet
        (.inl (.rotateRow args left _ hargs hlate (by omega)))
  | rotateRow args left d hargs hlate hn =>
    cases ok with
    | false =>
      exact rotatedTo_moves hst hpos hst.steady.quiet
        (.inr ⟨_, rfl, endOk_failed hlate (by decide)⟩)
    | true =>
      dsimp only [Call.next, Call.reads]
      rcases hx : st.store.findOf args.userId with - | x
      · exact rotatedTo_moves hst hpos hst.steady.quiet
          (.inr ⟨_, rfl, endOk_failed (not_late_of_none rfl) (by decide)⟩)
      obtain ⟨r, hr, rfl⟩ := findOf_eq_some hx
      obtain ⟨r', hr', hchain⟩ := hst.row
      obtain rfl : r = r' := Option.mem_unique hr hr'
      refine rotatedTo_moves hst hpos hst.steady.quiet (rotateOk_afterRotateRow d ?_ (by omega) rfl
        (hst.steady.same_of_find hx) (onChain_afterFind hchain))
      exact ⟨hargs.presented, hargs.next, hargs.now, hargs.ne⟩
  | rotateSwap args left d x hargs hlate hsame hx hn =>
    exact rotateSwap_moves ok hst hargs hlate hsame hx hn
  | publishes _ x h hx hlate hhand =>
    obtain ⟨hquiet, hnext⟩ := publishes_next cfg k ok hst.steady h hx
    have hmove : RowMove m s₀ k w st { st with store := (c.next cfg k ok st.store).1 } :=
      .same hquiet.row rfl
    have hend : ∀ r, w.EndOk m s₀ { st with store := (c.next cfg k ok st.store).1 } k r := fun r =>
      ⟨fun hl => absurd hl hlate, fun _ => ⟨hlate, hhand.mono hmove⟩⟩
    rw [h.swapped, h.reads]
    refine rotatedTo_moves hst hpos hquiet ?_
    rcases hnext with hnext | hnext | ⟨e, hnext⟩
    · exact .inl (.publishes _ x hnext hx hlate (hhand.mono hmove))
    · exact .inr ⟨_, hnext, hend _⟩
    · exact .inr ⟨_, hnext, hend _⟩
  | fence _ x reason h hsame hactive hlate =>
    obtain ⟨hquiet, hnext⟩ := denies_next cfg k ok hst.steady h hsame.1
    rw [h.swapped, h.reads]
    refine rotatedTo_moves hst hpos hquiet (.inl ?_)
    rcases hnext with hnext | ⟨admitted, hnext, hadmitted⟩
    · exact .fence _ x reason (Nat.sub_right_comm .. ▸ hnext) hsame hactive hlate
    · have hn := h.pos
      rw [hnext, hadmitted (DenyGoal.fence_denies _ _ reason x)]
      exact .tx x reason hsame hactive hlate (by omega)
  | tx x reason hsame hactive hlate hn =>
    -- the row is revoked now, or it was before
    rcases reuse_next cfg k ok reason hst.steady hsame hactive with hnext | ⟨r, hr, hnext⟩ | ⟨hrevoked, hnext⟩
    · rw [hnext]
      exact rotatedTo_moves hst hpos hst.steady.quiet
        (.inr ⟨_, rfl, endOk_error (by decide) fun _ => .inl rfl⟩)
    · rw [hnext]
      have hrevoked : (st.store.revokeRow r w.now reason).Revoked := ⟨_, rfl, nofun⟩
      exact ⟨hst.revokeRow w.now reason hr,
        phaseOk_afterRotate hpos
          (.inl (.tombstone _ (x.revoke w.now reason) (.deny (by omega)) hsame.1 hrevoked)),
        .revoked hrevoked rfl (.inl hlate)⟩
    · rw [hnext]
      exact rotatedTo_moves hst hpos hst.steady.quiet
        (.inr ⟨_, rfl, endOk_error (by decide) fun _ => .inr hrevoked⟩)
  | tombstone _ x h hx hrevoked =>
    obtain ⟨hquiet, hnext⟩ := denies_next cfg k ok hst.steady h hx
    have hmove : RowMove m s₀ k w st { st with store := (c.next cfg k ok st.store).1 } :=
      .same hquiet.row rfl
    rw [h.swapped]
    refine rotatedTo_moves hst hpos hquiet ?_
    rcases hnext with hnext | ⟨admitted, hnext, -⟩
    · exact .inl (.tombstone _ x hnext hx (hmove.isRevoked hrevoked))
    · exact .inr ⟨_, hnext, endOk_error (by decide) fun _ => .inr (hmove.isRevoked hrevoked)⟩

/-! ### Runs -/

theorem begin_rotate_cases (userId : Int) :
    (∃ args, t.rotate m cfg s userId = .rotate args 3 ∧ args.For m { t with now := s.unix }) ∨
      t.rotate m cfg s userId = .ended (.failed .invalid) := by
  dsimp only [Presented.rotate, SessionCall.begin]
  split
  · exact .inr rfl
  next hvalid =>
    exact .inl ⟨_, rfl, rfl, rfl, ite_self _, fun h => hvalid (.inr (.inr (.inr (.inl h))))⟩

theorem begin_revoke_cases (userId : Int) (reason : String) (hn : 6 ≤ n) :
    ((SessionCall.revokeUserSession userId reason).begin cfg s).Revoking r₀ n ∨
      ∃ r, (SessionCall.revokeUserSession userId reason).begin cfg s = .ended r := by
  dsimp only [SessionCall.begin]
  split
  · exact .inr ⟨_, rfl⟩
  · exact .inl (.revoke userId reason _ hn)

variable (a : RefreshAnswer)

/-- **What one step of a call preserves.** -/
theorem next_moves (hst : st.Ok m s₀ r₀) (hw : w.PhaseOk m s₀ r₀ st k (29 - w.steps) w.phase) :
    Moves m s₀ r₀ k st w (29 - (w.next m cfg k a st).2.steps) (w.next m cfg k a st) := by
  unfold RefreshCall.next
  rcases hphase : w.phase with c | x | x | ⟨x, cached⟩ | ⟨x, cached, current, c⟩ | c | token | r <;>
    rw [hphase] at hw <;> dsimp only
  · have hpos := hw.1.pos
    obtain ⟨hquiet, hnext⟩ := getting_next cfg k a.ok hst.steady hw.1
    exact moves_quiet hst hquiet (phaseOk_afterSession hw.2 (by omega) hnext)
  · obtain ⟨hread, hn⟩ := hw
    refine moves_stay hst ?_
    split
    · exact ⟨hread, by omega⟩
    · exact phaseOk_ended hread fun _ h => nomatch h
  · obtain ⟨hread, hn⟩ := hw
    refine moves_stay hst ?_
    split
    · exact phaseOk_ended hread fun _ h => nomatch h
    · exact ⟨hread, by omega⟩
  · obtain ⟨hread, hn⟩ := hw
    -- three attempts at the rotation take 15 steps at most, a revocation 6
    have hleft : 15 ≤ 29 - (w.steps + 1) - 1 := by omega
    have hrevoke : 6 ≤ 29 - (w.steps + 1) := by omega
    split
    · exact moves_stay hst (phaseOk_ended hread fun _ h => nomatch h)
    split
    · refine moves_stay hst ?_
      rcases begin_rotate_cases (t := w.toPresented) (m := m) cfg st.store x.userId with
        ⟨args, hrotate, hargs⟩ | hrotate
      · rw [hrotate]
        exact .rotate args 3 hargs (not_late_of_none hread) hleft
      · rw [hrotate]
        exact phaseOk_ended hread fun _ h => nomatch h
    next hsecure =>
      exact moves_stay hst
        (phaseOk_afterRevoke hread hsecure (begin_revoke_cases cfg st.store x.userId _ hrevoke))
  · obtain ⟨hsecure, hrevoking, hread⟩ := hw
    obtain ⟨hquiet | ⟨r, now, reason, hr, hstore⟩, hnext⟩ :=
      revoking_next cfg k a.ok hst.steady hrevoking
    · exact moves_quiet hst hquiet (phaseOk_afterRevoke hread hsecure hnext)
    · rw [hstore]
      exact ⟨hst.revokeRow now reason hr, phaseOk_afterRevoke hread hsecure hnext,
        .revoked ⟨_, rfl, nofun⟩ rfl (.inr ⟨x, cached, current, c, hphase, hsecure⟩)⟩
  · exact rotating_moves cfg a.ok hst hw
  · refine moves_stay hst ?_
    obtain ⟨⟨hnot, hhand⟩, -⟩ := hw
    split
    · refine ⟨fun hlate => absurd hlate hnot, fun token' htoken => ?_⟩
      cases htoken
      exact hhand
    · exact ⟨fun hlate => absurd hlate hnot, fun _ h => nomatch h⟩
  · refine moves_stay hst ?_
    rw [hphase]
    exact hw

theorem ended_of_phaseOk {phase : RefreshPhase} (h : t.PhaseOk m s₀ r₀ st k 0 phase) :
    ∃ r, phase = .ended r := by
  cases phase with
  | session => exact absurd h.1.pos (lt_irrefl 0)
  | revoking => exact absurd h.2.1.pos (lt_irrefl 0)
  | rotating => exact absurd (Presented.RotateOk.pos h) (lt_irrefl 0)
  | check | userCache | userById | issuing => exact absurd h.2 (Nat.not_succ_le_zero _)
  | ended r => exact ⟨r, rfl⟩

variable {cfg s ok}

/-- A session after its login: active, with the digest of the login's secret, and
in the cache in no newer version. -/
structure LoginSession (m : RefreshKeys) where
  secret : String
  row : UserSession
  key : Option SessionKey := none
  clock : Int := 0
  active : row.status = .active
  revokedAt : row.revokedAt = 0
  version : 0 < row.version
  refreshHash : row.refreshHash = m.hashRefreshSecret secret
  previous : row.previousRefreshHash = ""
  cached : ∀ e, key = some e → e.entry.version ≤ row.version

/-- What `CreateUserSession` inserts. -/
theorem begin_create (h : (SessionCall.createUserSession x).begin cfg s = .create r₀) :
    r₀.status = .active ∧ r₀.revokedAt = 0 ∧ 0 < r₀.version ∧ r₀.refreshHash = x.refreshHash ∧
      r₀.previousRefreshHash = x.previousRefreshHash := by
  dsimp only [SessionCall.begin] at h
  split at h
  · cases h
  split at h
  · cases h
  rename_i hstatus
  cases h
  refine ⟨not_not.mp (not_or.mp hstatus).1, not_not.mp (not_or.mp hstatus).2, ?_, rfl, rfl⟩
  split
  · exact one_pos
  next hversion =>
    exact not_le.mp hversion

/-- The session that `CreateUserSession` inserts for a secret. -/
def LoginSession.created {x : UserSession} (secret : String)
    (h : (SessionCall.createUserSession x).begin cfg s = .create r₀)
    (hhash : x.refreshHash = m.hashRefreshSecret secret) (hprevious : x.previousRefreshHash = "") :
    LoginSession m where
  secret := secret
  row := r₀
  clock := s.clock
  active := (begin_create h).1
  revokedAt := (begin_create h).2.1
  version := (begin_create h).2.2.1
  refreshHash := (begin_create h).2.2.2.1.trans hhash
  previous := (begin_create h).2.2.2.2.trans hprevious
  cached _ he := by cases he

variable (login : LoginSession m)

/-- The session with no call yet. -/
def LoginSession.pool : Pool RefreshStore RefreshCall where
  shared := { store := { clock := login.clock, row := some login.row, key := login.key } }

/-- The invariant of the pool. -/
def ChainInv : Pool RefreshStore RefreshCall → Prop :=
  Holds (RefreshStore.Ok m login.secret login.row) fun st k w =>
    w.PhaseOk m login.secret login.row st k (29 - w.steps) w.phase

theorem chainInv_pool : ChainInv login login.pool := by
  refine ⟨⟨⟨login.version, rfl, login.cached, ?_⟩, ?_, rfl⟩, fun _ _ h => nomatch h⟩
  · exact ⟨login.row, rfl, ⟨rfl, rfl⟩, fun _ => login.revokedAt⟩
  · exact ⟨login.row, rfl, login.refreshHash, login.previous⟩

theorem phaseOk_begin (r : RefreshRequest) :
    (r.begin m).PhaseOk m s₀ r₀ st k (29 - (r.begin m).steps) (r.begin m).phase := by
  unfold RefreshRequest.begin
  split
  · exact phaseOk_ended rfl fun _ h => nomatch h
  split
  · exact phaseOk_ended rfl fun _ h => nomatch h
  split
  · exact phaseOk_ended rfl fun _ h => nomatch h
  · exact ⟨.get le_rfl, rfl⟩

/-- **What one step of anybody preserves.** -/
theorem chainInv_step {login : LoginSession m} {p : Pool RefreshStore RefreshCall}
    (op : Op Int RefreshRequest RefreshAnswer) (h : ChainInv login p) :
    ChainInv login ((refreshProgram m cfg).step p op) := by
  cases op with
  | event clock =>
    refine h.event (h.shared.quiet ?_) fun j u hu => ?_
    · exact ⟨⟨h.shared.steady.version, h.shared.steady.lock, h.shared.steady.cached,
        h.shared.steady.row⟩, rfl⟩
    · have hmove : RowMove m login.secret 0 u p.shared ((refreshProgram m cfg).event p.shared clock) :=
        .same rfl rfl
      exact hu.mono hmove
  | start r => exact h.start h.shared (fun _ _ hu => hu) (phaseOk_begin r)
  | go k a =>
    refine h.go fun w hw => ?_
    obtain ⟨hstore, hcall, hrow⟩ := next_moves cfg a h.shared (h.thread k w hw)
    exact ⟨hstore, hcall, fun j u _ hu => hu.mono hrow⟩

theorem chain_injective (hs₀ : ∀ secret, m.deriveNextRefreshSecret m.sid secret ≠ s₀) :
    Function.Injective (m.chain s₀) := by
  intro i
  induction i with
  | zero =>
    intro j hj
    cases j with
    | zero => rfl
    | succ => exact absurd hj.symm (hs₀ _)
  | succ i ih =>
    intro j hj
    cases j with
    | zero => exact absurd hj (hs₀ _)
    | succ j =>
      have hdata : m.sid ++ "." ++ m.chain s₀ i = m.sid ++ "." ++ m.chain s₀ j :=
        m.hmac_inj "refresh-rotate" hj
      rw [ih (String.append_right_inj _ |>.mp hdata)]

/-- The call presents the secret of the token it was started with, or the token
has none. -/
def RefreshCall.Presents (m : RefreshKeys) (r : RefreshRequest) (t : RefreshCall) : Prop :=
  (∃ sid, m.splitRefreshToken r.rawRefreshToken = some (sid, t.secret)) ∨
    m.splitRefreshToken r.rawRefreshToken = none ∧ t.phase = .ended .refreshTokenInvalid

theorem presents_begin (r : RefreshRequest) : (r.begin m).Presents m r := by
  unfold RefreshRequest.begin
  split
  next hnone => exact .inr ⟨hnone, rfl⟩
  next sid secret hsome => exact .inl ⟨sid, hsome⟩

theorem RefreshCall.Presents.next {r : RefreshRequest} {a : RefreshAnswer} {t : RefreshCall}
    (h : t.Presents m r) : (t.next m cfg k a st).2.Presents m r := by
  rcases h with ⟨sid, hsid⟩ | ⟨hnone, hphase⟩
  · refine .inl ⟨sid, hsid.trans ?_⟩
    -- no step touches the secret
    unfold RefreshCall.next RefreshCall.rotatedTo
    split <;> try rfl
    split <;> try rfl
    split <;> rfl
  · refine .inr ⟨hnone, ?_⟩
    unfold RefreshCall.next
    rw [hphase]
    exact hphase

/-- **Refresh tokens form one chain.**  After any interleaving of calls the row
is at the place of the chain that the exchanges have brought it to, and the
secrets exchanged are those before it, each once.  A step leaves the row alone,
or it is one of a call that exchanges the secret of that place, of one that
presented the secret before past the window, or of one that found the user
disabled or of another auth version.  A call that has handed out a token has
exchanged the secret it presented, or came within the window after that; the
token is the successor of the secret.  A call that presented the secret before
past the window has revoked the session when it ends, unless the database
failed it; and every call ends.  The secret that a call presents is that of the
token it was started with. -/
theorem refresh_tokens_form_one_chain (m : RefreshKeys) (cfg : SessionConfig) (login : LoginSession m)
    (ops : List (Op Int RefreshRequest RefreshAnswer)) :
    let p := exec (refreshProgram m cfg).step login.pool ops
    let n := p.shared.rotations.length
    (∃ r, p.shared.store.row = some r ∧ m.OnChain login.secret n r) ∧
    p.shared.rotations.map Prod.snd = (List.range n).map (m.chain login.secret) ∧
    ((∀ secret, m.deriveNextRefreshSecret m.sid secret ≠ login.secret) →
      (p.shared.rotations.map Prod.snd).Nodup) ∧
    (∀ op, (((refreshProgram m cfg).step p op).shared.store.row = p.shared.store.row ∧
        ((refreshProgram m cfg).step p op).shared.rotations = p.shared.rotations) ∨
      ∃ k a t, op = .go k a ∧ p.threads[k]? = some t ∧
        RowMove m login.secret k t p.shared ((refreshProgram m cfg).step p op).shared) ∧
    ∀ (k : Nat) (t : RefreshCall), p.threads[k]? = some t →
      (∃ r, (started ops)[k]? = some r ∧ t.Presents m r) ∧
      (∀ token, t.phase = .ended (.answered token) → t.MayHand m login.secret p.shared k token) ∧
      (∀ r, t.phase = .ended r → t.Late m login.secret → r = .failed .db ∨ p.shared.store.Revoked) ∧
      (29 ≤ t.steps → ∃ r, t.phase = .ended r) := by
  intro p n
  have hp : ChainInv login p :=
    exec_inv (fun q op (hq : ChainInv login q) => chainInv_step op hq) (chainInv_pool login) ops
  refine ⟨hp.shared.row, hp.shared.rotations, fun hlogin => ?_, fun op => ?_, fun k t ht => ?_⟩
  · rw [hp.shared.rotations]
    exact nodup_range.map (chain_injective hlogin)
  · cases op with
    | event | start => exact .inl ⟨rfl, rfl⟩
    | go k a =>
      rcases hk : p.threads[k]? with - | t
      · rw [step_go_none a hk]
        exact .inl ⟨rfl, rfl⟩
      · rw [step_go a hk]
        exact .inr ⟨k, a, t, rfl, hk, (next_moves cfg a hp.shared (hp.thread k t hk)).row⟩
  · have hphase := hp.thread k t ht
    have hempty : Serves (RefreshCall.Presents m) [] login.pool := ⟨rfl, by simp [LoginSession.pool]⟩
    have hserves : Serves (RefreshCall.Presents m) (started ops) p :=
      hempty.exec (fun _ => presents_begin) (fun _ _ _ _ _ => RefreshCall.Presents.next) ops
    refine ⟨hserves.thread k t ht, fun token htoken => ?_, fun r hr => ?_, fun hmade => ?_⟩
    · rw [htoken] at hphase
      exact hphase.2 token rfl
    · rw [hr] at hphase
      exact hphase.1
    · rw [Nat.sub_eq_zero_of_le hmade] at hphase
      exact ended_of_phaseOk hphase

/-- Keys whose digests show what they are made of. -/
def plainKeys : RefreshKeys where
  sid := "sid"
  isUUID sid := sid = "sid"
  generateHMAC purpose data := "<" ++ purpose ++ ":" ++ data ++ ">"
  hmac_inj purpose _ _ h := by simpa using h
  hmac_ne purpose data h := by simpa using congrArg String.toList h
  hmac_trim purpose data := by
    unfold trimSpace
    simp [isSpace, String.append_assoc]

def plainLogin : LoginSession plainKeys where
  secret := "login"
  row := { userId := 1, userAuthVersion := 1, expiresAt := 1000, refreshHash := "<refresh:login>" }
  active := rfl
  revokedAt := rfl
  version := Int.one_pos
  refreshHash := rfl
  previous := rfl
  cached _ h := by cases h

/-- Call `k` presents a secret, and all its steps find the user with a status. -/
def presents (k : Nat) (secret : String) (status : UserStatus) : List (Op Int RefreshRequest RefreshAnswer) :=
  .start { rawRefreshToken := "sid." ++ secret } ::
    List.replicate 29 (.go k { user := some { status := status, authVersion := 1 } })

-- the same secret at 0, at 30 and at 31 seconds
example :
    (exec (refreshProgram plainKeys {}).step plainLogin.pool
      (presents 0 "login" .enabled ++ [.event 30000] ++ presents 1 "login" .enabled ++
        [.event 31000] ++ presents 2 "login" .enabled)).threads.map RefreshCall.phase =
    [.ended (.answered "sid.<refresh-rotate:sid.login>"),
      .ended (.answered "sid.<refresh-rotate:sid.login>"), .ended .loginSessionRevoked] := by
  decide +kernel

/-- The user has been disabled with the auth version left as it is: whoever
presents anything has the session revoked. -/
theorem stranger_revokes_session_of_disabled_user :
    plainLogin.row.status = .active ∧ plainLogin.row.userAuthVersion = 1 ∧
    "stranger" ≠ plainKeys.chain plainLogin.secret 0 ∧
    (exec (refreshProgram plainKeys {}).step plainLogin.pool
      (presents 0 "stranger" .disabled)).shared.rotations = [] ∧
    (exec (refreshProgram plainKeys {}).step plainLogin.pool
      (presents 0 "stranger" .disabled)).shared.store.row =
        some (plainLogin.row.revoke 0 "user_security_changed") := by
  decide +kernel

end MicrossApi
