/-
MicrossApi/RefreshLogin.lean

`RefreshLoginSession` (service/auth_session.go): a refresh token is exchanged
for its successor.

The model is of one session, whose row, key and calls are those of
`UserSession`; the tokens of other sessions do not come near its row.  What
`GetUserCache` and `GetUserById` find is part of the answer a step gets.  The
clock may be set to anything at any time.

As ghosts the store remembers every exchange of the digests that was made, with
the call that made it, and a call remembers the row as `RotateUserSessionRefresh`
last read it, the time it gave it, and how many steps it has made.
-/
import MicrossApi.UserStatus

namespace MicrossApi

open Interleaving

/-! ### Tokens -/

/-- What the tokens of a session are made with: its id, `uuid.Parse`, and
`GenerateHMACWithKey` with the `authSigningKey` of a purpose.  Digests of
different texts differ, none is empty, and none begins or ends with a space. -/
structure RefreshKeys where
  sid : String
  isUUID : String → Bool
  generateHMAC : String → String → String
  hmac_inj : ∀ purpose, Function.Injective (generateHMAC purpose)
  hmac_ne : ∀ purpose data, generateHMAC purpose data ≠ ""
  hmac_trim : ∀ purpose data, trimSpace (generateHMAC purpose data) = generateHMAC purpose data

variable (m : RefreshKeys)

/-- `hashRefreshSecret`. -/
def RefreshKeys.hashRefreshSecret (secret : String) : String :=
  m.generateHMAC "refresh" secret

/-- `deriveNextRefreshSecret`. -/
def RefreshKeys.deriveNextRefreshSecret (sid currentSecret : String) : String :=
  m.generateHMAC "refresh-rotate" (sid ++ "." ++ currentSecret)

/-- `strings.Cut` at the first dot. -/
def cutDot (s : String) : Option (String × String) :=
  match s.toList.dropWhile (· ≠ '.') with
  | [] => none
  | _ :: after => some (String.ofList (s.toList.takeWhile (· ≠ '.')), String.ofList after)

/-- `splitRefreshToken`. -/
def RefreshKeys.splitRefreshToken (raw : String) : Option (String × String) :=
  match cutDot (trimSpace raw) with
  | none => none
  | some (sid, secret) =>
    if sid = "" ∨ secret = "" ∨ containsText secret "." then none
    else if m.isUUID sid then some (sid, secret)
    else none

/-- `RefreshReplayWindow`, in seconds. -/
def refreshReplayWindow : Int := 30

/-! ### Calls -/

/-- A user as `GetUserCache` or `GetUserById` finds it. -/
structure FoundUser where
  status : UserStatus
  authVersion : Int
deriving DecidableEq, Repr

/-- Both finds are enabled, and of the auth version of the session. -/
def UserSession.FoundSecure (x : UserSession) (cached current : FoundUser) : Prop :=
  cached.status = .enabled ∧ cached.authVersion = x.userAuthVersion ∧
    current.status = .enabled ∧ current.authVersion = x.userAuthVersion
deriving Decidable

/-- How a call ends. -/
inductive RefreshResult where
  /-- the bundle, with its refresh token -/
  | answered (refreshToken : String)
  | refreshTokenInvalid
  | loginSessionMismatch
  | loginSessionRevoked
  | refreshRace
  /-- the error of `RotateUserSessionRefresh` is passed on -/
  | failed (e : SessionErr)
  /-- the user is not found, or no access token can be signed -/
  | unanswered
  /-- the token names another session -/
  | otherSession
deriving DecidableEq, Repr

/-- Where a call is. -/
inductive RefreshPhase where
  /-- in `GetUserSessionCached` -/
  | session (c : Call)
  /-- look at the clock -/
  | check (x : UserSession)
  /-- in `GetUserCache` -/
  | userCache (x : UserSession)
  /-- in `GetUserById` -/
  | userById (x : UserSession) (cached : FoundUser)
  /-- in `RevokeUserSession` -/
  | revoking (x : UserSession) (cached current : FoundUser) (c : Call)
  /-- in `RotateUserSessionRefresh` -/
  | rotating (c : Call)
  /-- in `issueAuthBundle` -/
  | issuing (refreshToken : String)
  | ended (result : RefreshResult)
deriving DecidableEq, Repr

/-- What a call presents, and when; and the row as it was last read for that. -/
structure Presented where
  secret : String
  now : Int := 0
  read : Option UserSession := none
deriving DecidableEq, Repr

/-- A call, and where it is. -/
structure RefreshCall extends Presented where
  phase : RefreshPhase
  steps : Nat := 0
deriving DecidableEq, Repr

/-- The session, and the exchanges made so far: by whom, and of which secret. -/
structure RefreshStore where
  store : SessionStore
  rotations : List (Nat × String) := []
deriving DecidableEq, Repr

/-- The arguments of a call. -/
structure RefreshRequest where
  rawRefreshToken : String
  expectedSID : String := ""
deriving DecidableEq, Repr

/-- What a step is answered. -/
structure RefreshAnswer where
  ok : Bool := true
  user : Option FoundUser := none
deriving DecidableEq, Repr

/-- A call with its arguments checked. -/
def RefreshRequest.begin (m : RefreshKeys) (r : RefreshRequest) : RefreshCall :=
  match m.splitRefreshToken r.rawRefreshToken with
  | none => { secret := "", phase := .ended .refreshTokenInvalid }
  | some (sid, secret) =>
    { secret
      phase :=
        if trimSpace r.expectedSID ≠ "" ∧ trimSpace r.expectedSID ≠ sid then
          .ended .loginSessionMismatch
        else if sid ≠ m.sid then .ended .otherSession
        else .session .get }

/-- What the call makes of its `GetUserSessionCached`. -/
def RefreshPhase.afterSession : Call → RefreshPhase
  | .ended (.got x) => .check x
  | .ended (.failed .inactive) => .ended .loginSessionRevoked
  | .ended _ => .ended .refreshTokenInvalid
  | c => .session c

/-- What the call makes of its `RevokeUserSession`. -/
def RefreshPhase.afterRevoke (x : UserSession) (cached current : FoundUser) : Call → RefreshPhase
  | .ended _ => .ended .loginSessionRevoked
  | c => .revoking x cached current c

section Steps

variable (m : RefreshKeys) (cfg : SessionConfig)

variable (t : Presented)

/-- `nextSecret`. -/
def Presented.nextSecret : String := m.deriveNextRefreshSecret m.sid t.secret

/-- The refresh token of the bundle. -/
def Presented.nextToken : String := m.sid ++ "." ++ t.nextSecret m

/-- What the call makes of its `RotateUserSessionRefresh`.  With
`ErrUserSessionRefreshRace` comes the row that was read. -/
def Presented.afterRotate : Call → RefreshPhase
  | .ended .done => .issuing (t.nextToken m)
  | .ended (.failed .refreshRace) =>
    match t.read with
    | none => .ended .refreshRace
    | some rotated =>
      if m.hashRefreshSecret (t.nextSecret m) = rotated.refreshHash then .issuing (t.nextToken m)
      else .ended .refreshRace
  | .ended (.failed .refreshReuse) => .ended .loginSessionRevoked
  | .ended (.failed .refreshInvalid) => .ended .refreshTokenInvalid
  | .ended (.failed e) => .ended (.failed e)
  | .ended _ => .ended .unanswered -- `RotateUserSessionRefresh` ends in no other way
  | c => .rotating c

/-- `RotateUserSessionRefresh` as the call enters it. -/
def Presented.rotate (s : SessionStore) (userId : Int) : Call :=
  (SessionCall.rotateUserSessionRefresh userId (m.hashRefreshSecret t.secret)
    (m.hashRefreshSecret (t.nextSecret m)) s.unix refreshReplayWindow).begin cfg s

/-- The row that a step of `RotateUserSessionRefresh` reads, or the one read
before. -/
def Call.reads (ok : Bool) (s : SessionStore) (before : Option UserSession) : Call → Option UserSession
  | .rotateRow args _ _ => if ok then s.findOf args.userId else before
  | _ => before

/-- A step from `c` to `c'` has exchanged the digests. -/
def Call.swapped (c c' : Call) : Bool :=
  match c, c' with
  | .rotateSwap _ _ _ _, .publish _ _ _ => true
  | _, _ => false

/-- The store and the call after a step of `RotateUserSessionRefresh` to `out`. -/
def RefreshCall.rotatedTo (k : Nat) (s : RefreshStore) (t : RefreshCall) (swapped : Bool)
    (read : Option UserSession) (out : SessionStore × Call) : RefreshStore × RefreshCall :=
  ({ store := out.1
     rotations := if swapped then s.rotations ++ [(k, t.secret)] else s.rotations },
    { t with
      phase := { t.toPresented with read := read }.afterRotate m out.2
      read := read
      steps := t.steps + 1 })

/-- The next step of call `k`. -/
def RefreshCall.next (k : Nat) (a : RefreshAnswer) (s : RefreshStore) (t : RefreshCall) :
    RefreshStore × RefreshCall :=
  match t.phase with
  | .session c =>
    ({ s with store := (c.next cfg k a.ok s.store).1 },
      { t with phase := .afterSession (c.next cfg k a.ok s.store).2, steps := t.steps + 1 })
  | .check x =>
    (s, { t with
      phase := if x.Active s.store.unix then .userCache x else .ended .loginSessionRevoked
      steps := t.steps + 1 })
  | .userCache x =>
    (s, { t with
      phase := match a.user with
        | none => .ended .unanswered
        | some cached => .userById x cached
      steps := t.steps + 1 })
  | .userById x cached =>
    match a.user with
    | none => (s, { t with phase := .ended .unanswered, steps := t.steps + 1 })
    | some current =>
      if x.FoundSecure cached current then
        (s, { t with
          phase := t.afterRotate m (t.rotate m cfg s.store x.userId)
          now := s.store.unix
          steps := t.steps + 1 })
      else
        (s, { t with
          phase := .afterRevoke x cached current
            ((SessionCall.revokeUserSession x.userId "user_security_changed").begin cfg s.store)
          steps := t.steps + 1 })
  | .revoking x cached current c =>
    ({ s with store := (c.next cfg k a.ok s.store).1 },
      { t with
        phase := .afterRevoke x cached current (c.next cfg k a.ok s.store).2
        steps := t.steps + 1 })
  | .rotating c =>
    t.rotatedTo m k s (c.swapped (c.next cfg k a.ok s.store).2) (c.reads a.ok s.store t.read)
      (c.next cfg k a.ok s.store)
  | .issuing token =>
    (s, { t with
      phase := .ended (if a.ok then .answered token else .unanswered)
      steps := t.steps + 1 })
  | .ended _ => (s, t)

/-- All calls of `RefreshLoginSession`; the clock is set to anything. -/
def refreshProgram : Program RefreshStore RefreshCall Int RefreshRequest RefreshAnswer where
  event s clock := { s with store := { s.store with clock := clock } }
  start s r := (s, r.begin m)
  next := RefreshCall.next m cfg

end Steps

end MicrossApi
