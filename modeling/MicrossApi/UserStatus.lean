/-
MicrossApi/UserStatus.lean

When a user is disabled (`User.Update` and `User.Edit`, model/user.go,
`DisableCustomerByAgent`, service/customer_registration.go), and what
`ValidateLoginSession` (service/auth_session.go) then answers.

The model is of one user and one login session.  The Redis keys and the steps of
`GetUserCache` are those of `AuthFence`, the session and its calls those of
`UserSession`; of the user's profile only the status is kept.  A call that reads a
row to put it into the cache later is a thread of its own.  `enables` counts the
commits that leave the user enabled.

An administrator's update raises the auth version with the status, so that what
was read before the commit is out of date by its version.  The agent's does not.
-/
import MicrossApi.AuthFence
import MicrossApi.Interleaving
import MicrossApi.UserSession

namespace MicrossApi

open StepSystem Interleaving

/-! ### The store -/

/-- `UserStatusEnabled` and `UserStatusDisabled`. -/
inductive UserStatus where
  | enabled
  | disabled
deriving DecidableEq, Repr

/-- Redis, the user's row and its lock, and the session. -/
structure StatusStore where
  keys : AuthKeys UserStatus := {}
  row : UserBase UserStatus
  lock : Option Nat := none
  session : SessionStore := {}
  enables : Nat := 0

variable (s : StatusStore)

/-- Thread `k` may write the row. -/
def StatusStore.Free (k : Nat) : Prop := s.lock = none ∨ s.lock = some k
deriving Decidable

/-- A commit of the row. -/
def StatusStore.commit (row : UserBase UserStatus) : StatusStore :=
  { s with
    row := row
    lock := none
    enables := s.enables + if row.profile = .enabled then 1 else 0 }

/-- What a fill runs: `writeUserCache`, `updateUserCacheFieldAtVersion` of a field
other than the status, or `publishCommittedUserAuthVersion`. -/
inductive FillKind where
  | whole (includeQuota : Bool)
  | field
  | version
deriving DecidableEq, Repr

/-- What a step is answered: whether the database and Redis answer, and whether
the password, role or group of an update differ from the row's. -/
structure StatusAnswer where
  ok : Bool := true
  redis : Bool := true
  authChanged : Bool := false
  fill : FillKind := .whole true
deriving DecidableEq, Repr

/-! ### Validation -/

/-- The user, and the session's settings. -/
structure StatusConfig where
  userId : Int
  session : SessionConfig := {}

/-- `AuthIdentity`, of this user and session. -/
structure AuthIdentity where
  userAuthVersion : Int
  sessionVersion : Int
deriving DecidableEq, Repr

/-- A step of `GetUserCache`.  Where Redis does not answer, the database does; the
floor is then not checked and the cache not filled. -/
def CacheRead.nextOr (a : StatusAnswer) (s : StatusStore) (r : CacheRead UserStatus) :
    CacheRead UserStatus × AuthKeys UserStatus :=
  if a.redis then r.next s.keys s.row a.ok
  else
    match r with
    | .idle | .hashed _ => (.missed [], s.keys)
    | .fetched u seen => (.checked u seen, s.keys)
    | .checked u seen => (.returned u seen, s.keys)
    | r => r.next s.keys s.row a.ok

/-- Where a call of `ValidateLoginSession` is. -/
inductive Validation where
  | session (identity : AuthIdentity) (c : Call)
  | user (identity : AuthIdentity) (r : CacheRead UserStatus)
  | ended (accepted : Bool)

/-- The session passes at `now`. -/
def AuthIdentity.Matches (userId : Int) (identity : AuthIdentity) (x : UserSession) (now : Int) : Prop :=
  x.userId = userId ∧ x.status = .active ∧ x.revokedAt = 0 ∧ now < x.expiresAt ∧
    x.version = identity.sessionVersion ∧ x.userAuthVersion = identity.userAuthVersion
deriving Decidable

/-- The user passes. -/
def AuthIdentity.Admits (identity : AuthIdentity) (u : UserBase UserStatus) : Prop :=
  u.profile = .enabled ∧ u.authVersion = identity.userAuthVersion
deriving Decidable

/-- What the call makes of its `GetUserCache`. -/
def Validation.afterUser (identity : AuthIdentity) : CacheRead UserStatus → Validation
  | .returned u _ => .ended (decide (identity.Admits u))
  | .refused _ _ => .ended false
  | r => .user identity r

/-- The next step of a `ValidateLoginSession`. -/
def Validation.next (cfg : StatusConfig) (k : Nat) (a : StatusAnswer) (s : StatusStore) :
    Validation → StatusStore × Validation
  | .session identity c =>
    let n := c.next cfg.session k a.ok s.session
    ({ s with session := n.1 },
      match n.2 with
      | .ended (.got x) =>
        if identity.Matches cfg.userId x n.1.unix then .user identity .idle else .ended false
      | .ended _ => .ended false
      | c' => .session identity c')
  | .user identity r =>
    ({ s with keys := (r.nextOr a s).2 }, Validation.afterUser identity (r.nextOr a s).1)
  | .ended accepted => (s, .ended accepted)

/-! ### Writers -/

/-- A call that has disabled the user: the version from which on the status is to
be seen, and how often the user had been enabled when it did. -/
structure Closing where
  version : Int
  enables : Nat
deriving DecidableEq, Repr

/-- Where a call of `User.Update` or `User.Edit` is.  `status` is what it writes,
if it writes the status; an `Edit` does not. -/
inductive UserUpdate where
  /-- read the version -/
  | readVersion (status : Option UserStatus)
  /-- read the row and decide -/
  | current (status : Option UserStatus) (previous : Int)
  /-- `IncrementUserAuthVersionWithTx`: lock the row and publish the fence -/
  | increment (status : Option UserStatus) (previous : Int)
  /-- write the row with its next version, and commit -/
  | bump (status : Option UserStatus) (previous next : Int)
  /-- write the row, and commit -/
  | write (status : Option UserStatus) (previous : Int)
  /-- `updateUserCache` with the row as it was committed -/
  | publish (user : UserBase UserStatus) (previous : Int) (closing : Option Closing)
  /-- `RevokeAllUserSessions` -/
  | revoke (c : Call) (closing : Option Closing)
  | ended (ok : Bool) (closing : Option Closing)

/-- The row with the status, if there is one to write. -/
def UserBase.withStatus (u : UserBase UserStatus) (status : Option UserStatus) : UserBase UserStatus :=
  { u with profile := status.getD u.profile }

/-- What the call has closed when it commits. -/
def StatusStore.closing (status : Option UserStatus) (version : Int) : Option Closing :=
  if status = some .disabled then some { version := version, enables := s.enables } else none

/-- The next step of an update by thread `k`. -/
def UserUpdate.next (cfg : StatusConfig) (k : Nat) (a : StatusAnswer) (s : StatusStore) :
    UserUpdate → StatusStore × UserUpdate
  | .readVersion status =>
    if a.ok then (s, .current status s.row.authVersion) else (s, .ended false none)
  | .current status previous =>
    if a.ok = false then (s, .ended false none)
    else if a.authChanged = true ∨ (status ≠ none ∧ status ≠ some s.row.profile) then
      (s, .increment status previous)
    else (s, .write status previous)
  | .increment status previous =>
    if ¬ s.Free k then (s, .increment status previous)
    else if a.ok = false ∨ a.redis = false then (s, .ended false none)
    else
      let next := max 1 s.row.authVersion + 1
      ({ s with keys := (setUserAuthVersionFence next s.keys).2, lock := some k },
        .bump status previous next)
  | .bump status previous next =>
    if a.ok = false then ({ s with lock := none }, .ended false none)
    else
      let user := { s.row.withStatus status with authVersion := next }
      (s.commit user, .publish user previous (s.closing status next))
  | .write status previous =>
    if ¬ s.Free k then (s, .write status previous)
    else if a.ok = false then (s, .ended false none)
    else
      let user := s.row.withStatus status
      (s.commit user, .publish user previous (s.closing status user.authVersion))
  | .publish user previous closing =>
    if a.redis = false then (s, .ended false none)
    else
      match writeUserCache user false s.keys with
      | (.error _, keys) => ({ s with keys := keys }, .ended false none)
      | (.ok _, keys) =>
        ({ s with keys := keys },
          if previous < user.authVersion then
            .revoke (SessionCall.begin cfg.session s.session
              (.revokeUserSessions cfg.userId "user_security_changed")) closing
          else .ended true closing)
  | .revoke c closing =>
    let n := c.next cfg.session k a.ok s.session
    ({ s with session := n.1 },
      match n.2 with
      | .ended (.failed _) => .ended false none
      | .ended _ => .ended true closing
      | c' => .revoke c' closing)
  | .ended ok closing => (s, .ended ok closing)

/-- Where a call of `DisableCustomerByAgent` is. -/
inductive AgentDisable where
  /-- `requireAgent` -/
  | require
  /-- `loadCustomerUnderAgent` -/
  | load
  /-- write the status and those of the tokens, and commit -/
  | write
  | ended (ok : Bool) (closing : Option Closing)

/-- The next step of thread `k`; `ok` is also whether the agent may. -/
def AgentDisable.next (k : Nat) (a : StatusAnswer) (s : StatusStore) :
    AgentDisable → StatusStore × AgentDisable
  | .require => (s, if a.ok then .load else .ended false none)
  | .load =>
    if a.ok = false then (s, .ended false none)
    else if s.row.profile = .disabled then
      (s, .ended true (s.closing (some .disabled) s.keys.committed))
    else (s, .write)
  | .write =>
    if ¬ s.Free k then (s, .write)
    else if a.ok = false then (s, .ended false none)
    else
      (s.commit { s.row with profile := .disabled },
        .ended true (s.closing (some .disabled) s.keys.committed))
  | .ended ok closing => (s, .ended ok closing)

/-! ### All calls -/

/-- The calls. -/
inductive StatusCall where
  | validateLoginSession (identity : AuthIdentity)
  | getUserCache
  /-- read the row, to fill the cache with it -/
  | fillCache
  | userUpdate (status : Option UserStatus)
  | disableCustomerByAgent
  | session (call : SessionCall)

/-- Where a call is. -/
inductive StatusThread where
  | validate (v : Validation)
  | read (r : CacheRead UserStatus)
  | fill (u : Option (UserBase UserStatus))
  | update (u : UserUpdate)
  | agent (d : AgentDisable)
  | session (c : Call)

def StatusCall.begin (cfg : StatusConfig) (s : StatusStore) : StatusCall → StatusThread
  | .validateLoginSession identity => .validate (.session identity .get)
  | .getUserCache => .read .idle
  | .fillCache => .fill none
  | .userUpdate status => .update (.readVersion status)
  | .disableCustomerByAgent => .agent .require
  | .session call => .session (call.begin cfg.session s.session)

/-- The keys after a fill with `u`. -/
def FillKind.run (u : UserBase UserStatus) (keys : AuthKeys UserStatus) : FillKind → AuthKeys UserStatus
  | .whole includeQuota => (writeUserCache u includeQuota keys).2
  | .field => (updateUserCacheFieldAtVersion id u.authVersion keys).2
  | .version => (publishCommittedUserAuthVersion u.authVersion keys).2

/-- The next step of thread `k`. -/
def StatusThread.next (cfg : StatusConfig) (k : Nat) (a : StatusAnswer) (s : StatusStore) :
    StatusThread → StatusStore × StatusThread
  | .validate v => ((v.next cfg k a s).1, .validate (v.next cfg k a s).2)
  | .read r => ({ s with keys := (r.nextOr a s).2 }, .read (r.nextOr a s).1)
  | .fill none => (s, if a.ok then .fill (some s.row) else .fill none)
  | .fill (some u) =>
    (if a.redis then { s with keys := a.fill.run u s.keys } else s, .fill none)
  | .update u => ((u.next cfg k a s).1, .update (u.next cfg k a s).2)
  | .agent d => ((d.next k a s).1, .agent (d.next k a s).2)
  | .session c =>
    ({ s with session := (c.next cfg.session k a.ok s.session).1 },
      .session (c.next cfg.session k a.ok s.session).2)

/-- Time passes, or a key of the user expires. -/
inductive StatusEvent where
  | tick (millis : Nat)
  | expireHash
  | expireFence
deriving DecidableEq, Repr

def statusProgram (cfg : StatusConfig) :
    Program StatusStore StatusThread StatusEvent StatusCall StatusAnswer where
  event s
    | .tick millis => { s with session := { s.session with clock := s.session.clock + millis } }
    | .expireHash => { s with keys := { s.keys with hash := none } }
    | .expireFence => { s with keys := { s.keys with pending := 0 } }
  start s c := (s, c.begin cfg s)
  next k a s t := t.next cfg k a s

end MicrossApi
