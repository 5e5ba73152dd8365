/-
MicrossApi/LoginLimit.lean

The limits on login sessions (`createLoginSession`, service/auth_session.go;
`CreateUserSession` and the counts, model/user_session.go).  A login counts the
active sessions of the user, then those of the issuance window, and inserts a
row if both counts are below their limits.  Counting and inserting are separate
statements without a lock, so that logins at the same time may exceed the
limits, as docs/authentication.md says.

The model is of one user: the rows and the logins as threads, each read of the
clock and each statement a step.  By how much the limits are exceeded is bounded
by the number of logins between their count and their insert: together with the
sessions there are they stay below the limit plus that number
(`Login.next_active`, `Login.next_issued`).
-/
import MicrossApi.UserSession
import MicrossApi.Interleaving

namespace MicrossApi

open List StepSystem Interleaving

/-! ### Rows -/

/-- `UserSessionActiveLimit`, `UserSessionIssuanceLimit` and
`UserSessionIssuanceWindowSeconds`. -/
structure LoginLimits where
  activeLimit : Nat := 50
  issuanceLimit : Nat := 100
  issuanceWindowSeconds : Nat := 86400

/-- `LoginSessionTTL`, in seconds. -/
def loginSessionTTL : Int := 30 * 24 * 3600

/-- The clock in seconds and the rows of the user. -/
structure LoginStore where
  now : Int
  sessions : List UserSession := []
deriving DecidableEq, Repr

variable (s : LoginStore)

/-- `CountActiveUserSessions`, for a positive time. -/
def LoginStore.activeAt (t : Int) : Nat :=
  s.sessions.countP fun x => x.status = .active ∧ t < x.expiresAt

/-- `CountUserSessionsCreatedSince`, for a positive time. -/
def LoginStore.createdSince (t : Int) : Nat :=
  s.sessions.countP fun x => t < x.createdAt

/-- The sessions created in the window of `w` seconds that ends with `t`. -/
def LoginStore.createdWithin (w : Nat) (t : Int) : Nat :=
  s.sessions.countP fun x => t - w < x.createdAt ∧ x.createdAt ≤ t

/-! ### A login -/

/-- Why a login fails. -/
inductive LoginErr where
  | loginSessionInvalid
  | loginSessionRevoked
  | userSessionInvalid
  | userSessionLimit
  | userSessionIssuanceLimit
  /-- an error of the database, of Redis or of the random source, passed on -/
  | passed
deriving DecidableEq, Repr

/-- The arguments of `createLoginSession`; an expected version of 0 is none. -/
structure LoginArgs where
  expectedAuthVersion : Int := 0
  loginMethod : String := ""
  ip : String := ""
  userAgent : String := ""
deriving DecidableEq, Repr

/-- The two entry points. -/
inductive LoginCall where
  | createLoginSession (loginMethod ip userAgent : String)
  | createLoginSessionAtAuthVersion (expectedAuthVersion : Int) (loginMethod ip userAgent : String)
deriving DecidableEq, Repr

/-- What a step is answered: whether it succeeds, the user as `GetUserCache`
returns it, and the digest of the new refresh secret. -/
structure LoginAnswer where
  ok : Bool := true
  enabled : Bool := true
  authVersion : Int := 1
  refreshHash : String := "hash"
deriving DecidableEq, Repr

/-- Where a login is. -/
inductive Login where
  /-- `GetUserCache` -/
  | userCache (args : LoginArgs)
  /-- look at the clock -/
  | clock (args : LoginArgs) (authVersion : Int)
  | countActive (args : LoginArgs) (authVersion now : Int)
  | countIssued (args : LoginArgs) (authVersion now : Int)
  /-- draw the refresh secret -/
  | secret (args : LoginArgs) (authVersion now : Int)
  /-- `CreateUserSession` up to the statement -/
  | create (session : UserSession)
  | insert (session : UserSession)
  /-- write the cache; `row` is where the row is -/
  | publish (row : Nat)
  /-- `issueAuthBundle` -/
  | issue (row : Nat)
  /-- `RevokeUserSession` -/
  | revoke (row : Nat)
  | ended (result : Except LoginErr Unit)

/-- `truncateAuthMetadata`. -/
def truncateAuthMetadata (value : String) (max : Nat) : List UInt8 :=
  let v := (trimSpace value).toUTF8.toList
  if v.length ≤ max then v else v.take max

/-- The session a login makes. -/
def LoginArgs.session (args : LoginArgs) (userId authVersion now : Int) (refreshHash : String) :
    UserSession where
  userId := userId
  version := 1
  userAuthVersion := authVersion
  status := .active
  refreshHash := refreshHash
  loginMethod := if trimSpace args.loginMethod = "" then "unknown" else trimSpace args.loginMethod
  ip := truncateAuthMetadata args.ip 64
  userAgent := truncateAuthMetadata args.userAgent 512
  createdAt := now
  lastActiveAt := now
  expiresAt := now + loginSessionTTL

/-- The two entry points up to `createLoginSession`. -/
def LoginCall.begin : LoginCall → Login
  | .createLoginSession loginMethod ip userAgent => .userCache { loginMethod, ip, userAgent }
  | .createLoginSessionAtAuthVersion expectedAuthVersion loginMethod ip userAgent =>
    if expectedAuthVersion ≤ 0 then .ended (.error .loginSessionInvalid)
    else .userCache { expectedAuthVersion, loginMethod, ip, userAgent }

/-- The store after row `i` is revoked, if it is active. -/
def LoginStore.revoke (s : LoginStore) (i : Nat) (reason : String) : LoginStore :=
  { s with
    sessions := s.sessions.modify i fun x =>
      if x.Active s.now then x.revoke s.now reason else x }

variable (limits : LoginLimits)

/-- The next step of a login. -/
def Login.next (userId : Int) (a : LoginAnswer) (s : LoginStore) : Login → LoginStore × Login
  | .userCache args =>
    if a.ok = false then (s, .ended (.error .passed))
    else if a.enabled = false ∨ a.authVersion ≤ 0 then (s, .ended (.error .loginSessionInvalid))
    else if 0 < args.expectedAuthVersion ∧ a.authVersion ≠ args.expectedAuthVersion then
      (s, .ended (.error .loginSessionRevoked))
    else (s, .clock args a.authVersion)
  | .clock args authVersion => (s, .countActive args authVersion s.now)
  | .countActive args authVersion now =>
    if userId ≤ 0 then (s, .ended (.error .userSessionInvalid))
    else if a.ok = false then (s, .ended (.error .passed))
    else if limits.activeLimit ≤ s.activeAt (if now ≤ 0 then s.now else now) then
      (s, .ended (.error .userSessionLimit))
    else (s, .countIssued args authVersion now)
  | .countIssued args authVersion now =>
    if userId < 0 ∨ now - limits.issuanceWindowSeconds ≤ 0 then
      (s, .ended (.error .userSessionInvalid))
    else if a.ok = false then (s, .ended (.error .passed))
    else if limits.issuanceLimit ≤ s.createdSince (now - limits.issuanceWindowSeconds) then
      (s, .ended (.error .userSessionIssuanceLimit))
    else (s, .secret args authVersion now)
  | .secret args authVersion now =>
    if a.ok = false then (s, .ended (.error .passed))
    else (s, .create (args.session userId authVersion now a.refreshHash))
  | .create session =>
    match (SessionCall.createUserSession session).begin {} { clock := 1000 * s.now } with
    | .create x => (s, .insert x)
    | _ => (s, .ended (.error .userSessionInvalid))
  | .insert session =>
    if a.ok = false then (s, .ended (.error .passed))
    else ({ s with sessions := s.sessions ++ [session] }, .publish s.sessions.length)
  | .publish row => (s, if a.ok then .issue row else .ended (.error .passed))
  | .issue row => (s, if a.ok then .ended (.ok ()) else .revoke row)
  | .revoke row =>
    (if a.ok then s.revoke row "token_issue_failed" else s, .ended (.error .passed))
  | .ended result => (s, .ended result)

/-- Time passes, or a session is revoked. -/
inductive LoginEvent where
  | tick (seconds : Nat)
  | revoke (row : Nat) (reason : String)
deriving DecidableEq, Repr

/-- The logins of one user. -/
def loginProgram (userId : Int) : Program LoginStore Login LoginEvent LoginCall LoginAnswer where
  event s
    | .tick seconds => { s with now := s.now + seconds }
    | .revoke row reason => s.revoke row reason
  start s call := (s, call.begin)
  next _ a s t := t.next limits userId a s

/-! ### Between the count and the insert -/

/-- The login has counted the active sessions and not yet inserted its own. -/
def Login.pastActive : Login → Nat
  | .countIssued .. | .secret .. | .create _ | .insert _ => 1
  | _ => 0

/-- The login has counted the issued sessions, not yet inserted its own, and
its own belongs to the window of `w` seconds that ends with `t`. -/
def Login.pastIssued (w : Nat) (t : Int) : Login → Nat
  | .secret _ _ now => if t - w < now ∧ now ≤ t then 1 else 0
  | .create x | .insert x => if t - w < x.createdAt ∧ x.createdAt ≤ t then 1 else 0
  | _ => 0

theorem pastIssued_le_pastActive (w : Nat) (t : Int) (l : Login) : l.pastIssued w t ≤ l.pastActive := by
  cases l with
  | secret | create | insert =>
    show (if _ then 1 else 0) ≤ 1
    split <;> omega
  | _ => exact Nat.zero_le _

/-- At most `c` logins are past their count after the step. -/
def AtOnce (userId : Int) (c : Nat) (p : Pool LoginStore Login)
    (op : Op LoginEvent LoginCall LoginAnswer) : Prop :=
  ((loginProgram limits userId).step p op).total Login.pastActive ≤ c
deriving Decidable

/-- What a login knows: its time is not in the future, and positive once it is
written to a row. -/
def Login.Ok : Login → Prop
  | .countActive _ _ now => now ≤ s.now
  | .secret _ _ now => 0 < now
  | .create x => 0 < x.createdAt
  | _ => True

/-! ### Counting -/

variable {s s' : LoginStore} {limits : LoginLimits} {userId : Int} {w : Nat} {t : Int}

/-- As time passes sessions expire. -/
theorem activeAt_anti {t t' : Int} (h : t ≤ t') : s.activeAt t' ≤ s.activeAt t := by
  apply countP_mono_left
  intro x _ hx
  simp only [decide_eq_true_eq] at hx ⊢
  exact ⟨hx.1, lt_of_le_of_lt h hx.2⟩

/-- A count since a time before the window sees the whole window. -/
theorem createdWithin_le_createdSince {t' : Int} (h : t' ≤ t - w) :
    s.createdWithin w t ≤ s.createdSince t' := by
  apply countP_mono_left
  intro x _ hx
  simp only [decide_eq_true_eq] at hx ⊢
  exact lt_of_le_of_lt h hx.1

/-- Changing a row in place, where the new row counts at most as the old. -/
theorem countP_modify_le {α : Type} (q : α → Bool) (f : α → α) (h : ∀ x, q (f x) = true → q x = true)
    (l : List α) (i : Nat) : (l.modify i f).countP q ≤ l.countP q := by
  induction l generalizing i with
  | nil => simp
  | cons x l ih =>
    cases i with
    | zero =>
      simp only [modify_zero_cons, countP_cons]
      split <;> split <;> simp_all
    | succ i =>
      simp only [modify_succ_cons, countP_cons]
      have htail := ih i
      omega

/-- A revocation makes no session active. -/
theorem activeAt_revoke_le (s : LoginStore) (i : Nat) (reason : String) (t : Int) :
    (s.revoke i reason).activeAt t ≤ s.activeAt t := by
  apply countP_modify_le
  intro x hx
  split at hx
  · simp [UserSession.revoke] at hx
  · exact hx

/-- A revocation leaves the time of creation alone. -/
theorem createdWithin_revoke_le (s : LoginStore) (i : Nat) (reason : String) (w : Nat) (t : Int) :
    (s.revoke i reason).createdWithin w t ≤ s.createdWithin w t := by
  apply countP_modify_le
  intro x hx
  split at hx <;> exact hx

/-! ### One step of a login -/

/-- What a step does to a count of sessions together with the logins that are
about to add to it: the two do not grow, or the login has just found the count
below the limit. -/
def Counted (limit count count' pending pending' : Nat) : Prop :=
  count' + pending' ≤ count + pending ∨ count' ≤ count ∧ count < limit

theorem counted_of_le {limit count count' pending pending' : Nat} (h : count' ≤ count)
    (hp : pending' ≤ pending) : Counted limit count count' pending pending' :=
  .inl (Nat.add_le_add h hp)

theorem counted_refl (limit count pending : Nat) : Counted limit count count pending pending := .inl le_rfl

/-- The row that `CreateUserSession` inserts was created when the session says. -/
theorem begin_createdAt {x y : UserSession} (hx : 0 < x.createdAt)
    (h : (SessionCall.createUserSession x).begin {} { clock := 1000 * s.now } = .create y) :
    y.createdAt = x.createdAt := by
  dsimp only [SessionCall.begin] at h
  split_ifs at h
  all_goals cases h
  all_goals first
    | rfl
    | omega

variable (a : LoginAnswer)

theorem Login.next_now (l : Login) : (l.next limits userId a s).1.now = s.now := by
  cases l <;> dsimp only [Login.next] <;> repeat' split
  all_goals rfl

variable {l : Login}

theorem Login.next_active (hl : l.Ok s) :
    Counted limits.activeLimit (s.activeAt s.now) ((l.next limits userId a s).1.activeAt s.now)
      l.pastActive (l.next limits userId a s).2.pastActive := by
  cases l with
  | countActive args authVersion now =>
    -- the count is of the time at which the login looked at the clock
    have hcount : s.activeAt s.now ≤ s.activeAt (if now ≤ 0 then s.now else now) := by
      apply activeAt_anti
      split
      · exact le_refl _
      · exact hl
    dsimp only [Login.next]
    generalize s.activeAt (if now ≤ 0 then s.now else now) = n at hcount ⊢
    split
    · exact counted_refl ..
    split
    · exact counted_refl ..
    split
    · exact counted_refl ..
    next h =>
      exact .inr ⟨le_refl _, lt_of_le_of_lt hcount (not_le.mp h)⟩
  | insert =>
    dsimp only [Login.next]
    split
    · exact counted_of_le (le_refl _) (Nat.zero_le _)
    · exact .inl (countP_append.le.trans (Nat.add_le_add_left countP_le_length _))
  | create =>
    dsimp only [Login.next]
    split
    · exact counted_refl ..
    · exact counted_of_le (le_refl _) (Nat.zero_le _)
  | revoke =>
    dsimp only [Login.next]
    split
    · exact counted_of_le (activeAt_revoke_le ..) (le_refl _)
    · exact counted_refl ..
  | _ =>
    dsimp only [Login.next]
    repeat' split
    all_goals exact counted_of_le (le_refl _) (by simp [Login.pastActive])

theorem Login.next_issued (hl : l.Ok s) (t : Int) :
    Counted limits.issuanceLimit (s.createdWithin limits.issuanceWindowSeconds t)
      ((l.next limits userId a s).1.createdWithin limits.issuanceWindowSeconds t)
      (l.pastIssued limits.issuanceWindowSeconds t)
      ((l.next limits userId a s).2.pastIssued limits.issuanceWindowSeconds t) := by
  cases l with
  | countIssued args authVersion now =>
    dsimp only [Login.next]
    split
    · exact counted_refl ..
    split
    · exact counted_refl ..
    split
    · exact counted_refl ..
    rename_i h
    by_cases hnow : now ≤ t
    · refine .inr ⟨le_refl _, lt_of_le_of_lt (createdWithin_le_createdSince ?_) (not_le.mp h)⟩
      omega
    · -- its session will not be of this window
      exact counted_of_le (le_refl _) (le_of_eq (if_neg fun hw => hnow hw.2))
  | secret =>
    dsimp only [Login.next]
    split
    · exact counted_of_le (le_refl _) (Nat.zero_le _)
    · exact counted_refl ..
  | create =>
    dsimp only [Login.next]
    split
    next y hy =>
      refine counted_of_le (le_refl _) ?_
      show (if _ < y.createdAt ∧ y.createdAt ≤ t then 1 else 0) ≤ _
      rw [begin_createdAt hl hy]
      exact le_refl _
    · exact counted_of_le (le_refl _) (Nat.zero_le _)
  | insert x =>
    dsimp only [Login.next]
    split
    · exact counted_of_le (le_refl _) (Nat.zero_le _)
    refine .inl (le_of_eq ?_)
    show List.countP _ (s.sessions ++ [x]) + 0 = _
    rw [countP_append, countP_singleton]
    simp only [decide_eq_true_eq]
    rfl
  | revoke =>
    dsimp only [Login.next]
    split
    · exact counted_of_le (createdWithin_revoke_le ..) (le_refl _)
    · exact counted_refl ..
  | _ =>
    dsimp only [Login.next]
    repeat' split
    all_goals exact counted_of_le (le_refl _) (by simp [Login.pastIssued])

theorem counted_total {limit c count count' pending pending' total total' : Nat}
    (h : Counted limit count count' pending pending') (ht : total' + pending = total + pending')
    (hc : total' ≤ c) (hi : count + total < limit + c) : count' + total' < limit + c := by
  rcases h with h | ⟨h, hlt⟩ <;> omega

theorem Login.next_ok (hl : l.Ok s) : (l.next limits userId a s).2.Ok (l.next limits userId a s).1 := by
  cases l with
  | countIssued args authVersion now =>
    dsimp only [Login.next]
    split
    · trivial
    split
    · trivial
    split
    · trivial
    · show 0 < now
      omega
  | clock => exact le_refl _
  | secret =>
    dsimp only [Login.next]
    split
    · trivial
    · exact hl
  | _ =>
    dsimp only [Login.next]
    repeat' split
    all_goals trivial

theorem Login.Ok.mono (hl : l.Ok s) (h : s.now ≤ s'.now) : l.Ok s' := by
  cases l with
  | countActive => exact le_trans hl h
  | _ => exact hl

/-- A login starts with nothing counted. -/
theorem LoginCall.begin_ok (call : LoginCall) (s : LoginStore) :
    call.begin.Ok s ∧ call.begin.pastActive = 0 := by
  cases call with
  | createLoginSession => exact ⟨trivial, rfl⟩
  | createLoginSessionAtAuthVersion =>
    dsimp only [LoginCall.begin]
    split <;> exact ⟨trivial, rfl⟩

/-! ### Runs -/

/-- The limits, with room for `c` logins less one, counting those that are about
to insert. -/
structure LoginInv (limits : LoginLimits) (c : Nat) (p : Pool LoginStore Login) : Prop where
  threads : Holds (fun _ => True) (fun s _ l => l.Ok s) p
  active : p.shared.activeAt p.shared.now + p.total Login.pastActive < limits.activeLimit + c
  issued : ∀ t, p.shared.createdWithin limits.issuanceWindowSeconds t +
    p.total (Login.pastIssued limits.issuanceWindowSeconds t) < limits.issuanceLimit + c

variable {c : Nat} {p : Pool LoginStore Login}

/-- Time and revocations only take sessions away. -/
theorem loginInv_event (h : LoginInv limits c p) (e : LoginEvent) :
    LoginInv limits c ((loginProgram limits userId).step p (.event e)) := by
  cases e with
  | tick seconds =>
    have hnow : p.shared.now ≤ p.shared.now + seconds := by omega
    refine ⟨h.threads.event trivial fun j l hl => hl.mono hnow, ?_, h.issued⟩
    exact lt_of_le_of_lt (Nat.add_le_add_right (activeAt_anti hnow) _) h.active
  | revoke =>
    refine ⟨h.threads.event trivial fun j l hl => hl.mono (le_refl _), ?_, fun t => ?_⟩
    · exact lt_of_le_of_lt (Nat.add_le_add_right (activeAt_revoke_le ..) _) h.active
    · exact lt_of_le_of_lt (Nat.add_le_add_right (createdWithin_revoke_le ..) _) (h.issued t)

theorem loginInv_start (h : LoginInv limits c p) (call : LoginCall) :
    LoginInv limits c ((loginProgram limits userId).step p (.start call)) := by
  obtain ⟨hok, hactive⟩ := call.begin_ok p.shared
  refine ⟨h.threads.start trivial (fun _ _ hl => hl) hok, ?_, fun t => ?_⟩
  · rw [total_start]
    show _ + (_ + call.begin.pastActive) < _
    rw [hactive]
    exact h.active
  · have hissued := pastIssued_le_pastActive limits.issuanceWindowSeconds t call.begin
    rw [total_start]
    show _ + (_ + call.begin.pastIssued limits.issuanceWindowSeconds t) < _
    rw [Nat.le_zero.mp (hissued.trans (le_of_eq hactive))]
    exact h.issued t

theorem loginInv_go (h : LoginInv limits c p) {k : Nat} {a : LoginAnswer}
    (hc : AtOnce limits userId c p (.go k a)) :
    LoginInv limits c ((loginProgram limits userId).step p (.go k a)) := by
  rcases hk : p.threads[k]? with - | l
  · rw [step_go_none a hk]
    exact h
  have hl := h.threads.thread k l hk
  have hnow : (l.next limits userId a p.shared).1.now = p.shared.now := Login.next_now a l
  refine ⟨h.threads.go fun u hu => ?_, ?_, fun t => ?_⟩
  · obtain rfl : l = u := Option.mem_unique hk hu
    exact ⟨trivial, Login.next_ok a hl, fun _ _ _ hu' => hu'.mono (le_of_eq hnow.symm)⟩
  · have hshared := congrArg Pool.shared (step_go (P := loginProgram limits userId) a hk)
    rw [hshared]
    show LoginStore.activeAt _ (l.next limits userId a p.shared).1.now + _ < _
    rw [hnow]
    exact counted_total (Login.next_active a hl) (total_go _ a hk) hc h.active
  · have hshared := congrArg Pool.shared (step_go (P := loginProgram limits userId) a hk)
    rw [hshared]
    exact counted_total (Login.next_issued a hl t) (total_go _ a hk)
      ((total_le_total (pastIssued_le_pastActive _ _) _).trans hc) (h.issued t)

/-- **The limits are exceeded by the number of logins at once.**  If at no time
more than `c` logins are between their count and their insert, the limits are
exceeded by less than `c`; by nothing if there is one at a time. -/
theorem login_limits_hold_up_to_concurrency (limits : LoginLimits) (userId : Int) (c : Nat)
    (hc : 0 < c) (s : LoginStore) (hactive : s.activeAt s.now ≤ limits.activeLimit)
    (hissued : ∀ t, s.createdWithin limits.issuanceWindowSeconds t ≤ limits.issuanceLimit)
    (ops : List (Op LoginEvent LoginCall LoginAnswer))
    (hops : Along (loginProgram limits userId).step (AtOnce limits userId c) { shared := s } ops) :
    (exec (loginProgram limits userId).step { shared := s } ops).shared.activeAt
        (exec (loginProgram limits userId).step { shared := s } ops).shared.now
        < limits.activeLimit + c ∧
      ∀ t, (exec (loginProgram limits userId).step { shared := s } ops).shared.createdWithin
        limits.issuanceWindowSeconds t < limits.issuanceLimit + c := by
  have hinv : LoginInv limits c (exec (loginProgram limits userId).step { shared := s } ops) := by
    refine exec_inv_along (fun p op hop hp => ?_) ?_ hops
    · cases op with
      | event e => exact loginInv_event hp e
      | start call => exact loginInv_start hp call
      | go => exact loginInv_go hp hop
    · refine ⟨⟨trivial, by simp⟩, ?_, fun t => ?_⟩
      · exact lt_of_le_of_lt hactive (Nat.lt_add_of_pos_right hc)
      · exact lt_of_le_of_lt (hissued t) (Nat.lt_add_of_pos_right hc)
  refine ⟨?_, fun t => ?_⟩
  · exact lt_of_le_of_lt (Nat.le_add_right _ _) hinv.active
  · exact lt_of_le_of_lt (Nat.le_add_right _ _) (hinv.issued t)

/-- Limits of one session, with a window of a minute. -/
def oneSession : LoginLimits where
  activeLimit := 1
  issuanceLimit := 1
  issuanceWindowSeconds := 60

/-- Login `k` up to its counts. -/
def countsOf (k : Nat) : List (Op LoginEvent LoginCall LoginAnswer) :=
  [.start (.createLoginSession "password" "" ""), .go k {}, .go k {}, .go k {}, .go k {}]

/-- Login `k` from there to the insert. -/
def insertOf (k : Nat) : List (Op LoginEvent LoginCall LoginAnswer) :=
  [.go k {}, .go k {}, .go k {}]

/-- One login, and then another that is refused. -/
theorem login_limits_hold_one_by_one :
    let p := exec (loginProgram oneSession 1).step { shared := { now := 1000 } }
      (countsOf 0 ++ insertOf 0 ++ countsOf 1)
    p.shared.activeAt p.shared.now < 1 + 1 ∧ ∀ t, p.shared.createdWithin 60 t < 1 + 1 :=
  login_limits_hold_up_to_concurrency oneSession 1 1 (by decide) { now := 1000 } (by decide)
    (fun _ => Nat.zero_le _) (countsOf 0 ++ insertOf 0 ++ countsOf 1) (by decide +kernel)

/-- Two logins that both count before either inserts. -/
theorem login_limits_exceeded : ({ now := 1000 } : LoginStore).activeAt 1000 ≤ oneSession.activeLimit ∧
      (∀ t, ({ now := 1000 } : LoginStore).createdWithin oneSession.issuanceWindowSeconds t ≤
        oneSession.issuanceLimit) ∧
      let p := exec (loginProgram oneSession 1).step { shared := { now := 1000 } }
        (countsOf 0 ++ countsOf 1 ++ insertOf 0 ++ insertOf 1)
      p.shared.activeAt p.shared.now = 2 ∧
        p.shared.createdWithin oneSession.issuanceWindowSeconds p.shared.now = 2 :=
  ⟨by decide, fun _ => Nat.zero_le _, by decide +kernel⟩

end MicrossApi
