/-
MicrossApi/UserSession.lean

Login sessions and their cache (model/user_session.go): reading through the
cache, creating, rotating the refresh token, advancing the auth version, and
the three ways to revoke.

The model is of one session: its row, its Redis key, and all calls about it.
Every Redis script, every transaction and statement of the database and every
look at the clock is a step of its own, and the clock may move between any two
steps; where a function looks at the clock twice in a row, it looks once.  The
clock counts milliseconds, the times in the row are seconds.  The one
transaction that talks to Redis while it is open
(`RevokeUserSessionByRefreshHash`) holds the row lock meanwhile.  A database
statement may fail, and so may reading the key; Redis runs every script.  Every
writer puts the same schema number and the session's own id into the key, so
neither is kept.

A revocation publishes a deny fence, commits, and publishes a tombstone.  The
state remembers, as a ghost, when the row was revoked.
-/
import MicrossApi.Database
import MicrossApi.StepSystem

namespace MicrossApi

open StepSystem

/-! ### Rows and entries -/

/-- `UserSessionStatus…`. -/
inductive SessionStatus where
  | active
  | revoking
  | revoked
deriving DecidableEq, Repr

/-- A row of `user_sessions`.  The two texts that are cut at a number of bytes are
kept as bytes. -/
structure UserSession where
  userId : Int
  version : Int := 1
  userAuthVersion : Int
  status : SessionStatus := .active
  refreshHash : String
  previousRefreshHash : String := ""
  previousValidUntil : Int := 0
  loginMethod : String := ""
  ip : List UInt8 := []
  userAgent : List UInt8 := []
  createdAt : Int := 0
  lastActiveAt : Int := 0
  expiresAt : Int
  revokedAt : Int := 0
  revokedReason : String := ""
deriving DecidableEq, Repr

/-- `userSessionCacheEntry`. -/
structure SessionEntry where
  userId : Int
  version : Int
  userAuthVersion : Int
  status : SessionStatus
  loginMethod : String
  ip : List UInt8
  userAgent : List UInt8
  createdAt : Int
  lastActiveAt : Int
  expiresAt : Int
  revokedAt : Int
  revokedReason : String
deriving DecidableEq, Repr

variable (x : UserSession)

/-- `UserSession.cacheEntry`. -/
def UserSession.cacheEntry : SessionEntry where
  userId := x.userId
  version := x.version
  userAuthVersion := x.userAuthVersion
  status := x.status
  loginMethod := x.loginMethod
  ip := x.ip
  userAgent := x.userAgent
  createdAt := x.createdAt
  lastActiveAt := x.lastActiveAt
  expiresAt := x.expiresAt
  revokedAt := x.revokedAt
  revokedReason := x.revokedReason

variable (e : SessionEntry)

/-- `userSessionCacheEntry.session`. -/
def SessionEntry.session : UserSession where
  userId := e.userId
  version := e.version
  userAuthVersion := e.userAuthVersion
  status := e.status
  refreshHash := ""
  loginMethod := e.loginMethod
  ip := e.ip
  userAgent := e.userAgent
  createdAt := e.createdAt
  lastActiveAt := e.lastActiveAt
  expiresAt := e.expiresAt
  revokedAt := e.revokedAt
  revokedReason := e.revokedReason

/-- `AfterFind`. -/
def UserSession.afterFind : UserSession :=
  { x with previousRefreshHash := trimSpace x.previousRefreshHash }

/-- Active at `now` seconds, as every reader of a row asks. -/
def UserSession.Active (now : Int) : Prop :=
  x.status = .active ∧ x.revokedAt = 0 ∧ now < x.expiresAt
deriving Decidable

/-- The columns a revocation sets. -/
def UserSession.revoke (now : Int) (reason : String) : UserSession :=
  { x with status := .revoked, revokedAt := now, revokedReason := reason }

/-- What the calls return for an error. -/
inductive SessionErr where
  | invalid
  | inactive
  | refreshInvalid
  | refreshRace
  | refreshReuse
  | recordNotFound
  | db
deriving DecidableEq, Repr

/-! ### The key -/

/-- `RedisKeyCacheSeconds`. -/
structure SessionConfig where
  redisKeyCacheSeconds : Int := 60

variable (cfg : SessionConfig)

/-- `userCacheTTLSeconds`, in milliseconds. -/
def SessionConfig.cacheMillis : Int :=
  1000 * if cfg.redisKeyCacheSeconds ≤ 0 then 60 else cfg.redisKeyCacheSeconds

/-- The Redis key with its expiry. -/
structure SessionKey where
  entry : SessionEntry
  expireAt : Int
deriving DecidableEq, Repr

/-- The clock, the row, its lock, the key, and when the row was revoked. -/
structure SessionStore where
  clock : Int := 0
  row : Option UserSession := none
  /-- the call whose transaction holds the row -/
  lock : Option Nat := none
  key : Option SessionKey := none
  revokedClock : Int := 0
deriving DecidableEq, Repr

variable (s : SessionStore)

/-- `time.Now().Unix()`. -/
def SessionStore.unix : Int := s.clock / 1000

/-- The entry Redis finds under the key. -/
def SessionStore.cached : Option SessionEntry :=
  match s.key with
  | none => none
  | some key => if s.clock < key.expireAt then some key.entry else none

/-- The row as it is read. -/
def SessionStore.find : Option UserSession := s.row.map UserSession.afterFind

/-- The row of a user as it is read. -/
def SessionStore.findOf (userId : Int) : Option UserSession :=
  s.find.filter fun x => x.userId = userId

/-- The script of `writeUserSessionCache` lets the entry in. -/
def SessionStore.Admits : Prop :=
  match s.cached with
  | none => 0 ≤ e.version
  | some current =>
    ¬ (e.status = .active ∧ current.status ≠ .active) ∧ current.version ≤ e.version

instance SessionStore.decidableAdmits (s : SessionStore) (e : SessionEntry) : Decidable (s.Admits e) := by
  unfold SessionStore.Admits
  split
  · exact inferInstanceAs (Decidable (_ ≤ _))
  · exact inferInstanceAs (Decidable (_ ∧ _))

/-- The script of `writeUserSessionCache`: the entry is written with its
expiry, and a key whose expiry has come is gone. -/
def SessionStore.write (expireAt : Int) : SessionStore :=
  if s.Admits e then
    { s with key := if expireAt ≤ s.clock then none else some { entry := e, expireAt := expireAt } }
  else s

/-- What `writeUserSessionCache` makes of an active entry before it calls
Redis: the expiry, or `none` where the observation is stale. -/
def activeExpiry (deadline : Int) (e : SessionEntry) (clock : Int) : Except SessionErr (Option Int) :=
  if deadline - clock ≤ 0 then .ok none
  else if 1000 * e.expiresAt - clock ≤ 0 then .error .inactive
  else
    let cacheExpiresAt := if 1000 * e.expiresAt < deadline then 1000 * e.expiresAt else deadline
    if cacheExpiresAt - clock < 1 then .ok none else .ok (some cacheExpiresAt)

/-- The time to live `writeUserSessionCache` gives to an entry that denies. -/
def denyMillis (e : SessionEntry) (clock : Int) : Int :=
  let ttl := min (1000 * e.expiresAt - clock) cfg.cacheMillis
  if ttl ≤ 0 then 1000 else ttl

/-! ### Calls -/

/-- The calls. -/
inductive SessionCall where
  | getUserSessionCached
  | createUserSession (session : UserSession)
  | rotateUserSessionRefresh (userId : Int) (presentedHash nextHash : String)
      (now graceSeconds : Int)
  | advanceUserSessionAuthVersion
      (userId expectedSessionVersion expectedUserAuthVersion nextUserAuthVersion : Int)
  | revokeUserSession (userId : Int) (reason : String)
  | revokeUserSessionByRefreshHash (presentedHash reason : String)
  | revokeUserSessions (userId : Int) (reason : String)
deriving DecidableEq, Repr

/-- How a call ends.  The bulk revocation returns a count; what matters is
whether it revoked this session. -/
inductive SessionResult where
  /-- `GetUserSessionCached` returns the session -/
  | got (session : UserSession)
  | done
  | revoked
  | notRevoked
  | failed (e : SessionErr)
deriving DecidableEq, Repr

/-- Who publishes an active entry. -/
inductive Publisher where
  | get
  | create
  | rotate
  | advance
deriving DecidableEq, Repr

/-- Who revokes; `reuse` is `RotateUserSessionRefresh` on a replayed token. -/
inductive Revoker where
  | single
  | byHash
  | all
  | reuse
deriving DecidableEq, Repr

/-- Why an entry that denies is published. -/
inductive DenyGoal where
  /-- `GetUserSessionCached` found the row inactive -/
  | observed
  | fence (by_ : Revoker) (now : Int) (reason : String)
  | tombstone (by_ : Revoker)
deriving DecidableEq, Repr

/-- The arguments of `RotateUserSessionRefresh`. -/
structure RotateArgs where
  userId : Int
  presentedHash : String
  nextHash : String
  now : Int
  graceSeconds : Int
deriving DecidableEq, Repr

/-- The arguments of `AdvanceUserSessionAuthVersion`. -/
structure AdvanceArgs where
  userId : Int
  expectedSessionVersion : Int
  expectedUserAuthVersion : Int
  nextUserAuthVersion : Int
deriving DecidableEq, Repr

/-- Where a call is: what it does next, with what it holds. -/
inductive Call where
  /-- read the key -/
  | get
  /-- take the deadline -/
  | getMiss
  /-- read the row -/
  | getRow (deadline : Int)
  /-- look at the clock and decide -/
  | getFound (deadline : Int) (x : UserSession)
  /-- take the deadline -/
  | create (x : UserSession)
  /-- insert the row -/
  | createRow (deadline : Int) (x : UserSession)
  /-- take the deadline, with so many attempts left -/
  | rotate (args : RotateArgs) (left : Nat)
  /-- read the row -/
  | rotateRow (args : RotateArgs) (left : Nat) (deadline : Int)
  /-- exchange the digests -/
  | rotateSwap (args : RotateArgs) (left : Nat) (deadline : Int) (x : UserSession)
  /-- the transaction -/
  | advanceTx (args : AdvanceArgs) (deadline now : Int)
  /-- look at the clock before an active entry is written -/
  | publish (by_ : Publisher) (deadline : Int) (x : UserSession)
  /-- run the script -/
  | publishScript (by_ : Publisher) (deadline expireAt : Int) (x : UserSession)
  /-- look at the clock after it -/
  | published (by_ : Publisher) (deadline : Int) (x : UserSession)
  /-- `confirmUserSessionActiveSnapshot` -/
  | confirm (by_ : Publisher) (x : UserSession)
  /-- read the candidate -/
  | revoke (userId : Int) (reason : String) (now : Int)
  /-- lock and read the row -/
  | revokeByHash (presentedHash reason : String) (now : Int)
  /-- read the candidates -/
  | revokeAll (userId : Int) (reason : String) (now : Int)
  /-- look at the clock before an entry that denies is written -/
  | deny (goal : DenyGoal) (x : UserSession)
  /-- run the script -/
  | denyScript (goal : DenyGoal) (ttl : Int) (x : UserSession)
  /-- the transaction, or the rest of it -/
  | revokeTx (by_ : Revoker) (now : Int) (reason : String) (x : UserSession)
  | ended (result : SessionResult)
deriving DecidableEq, Repr

/-- A call with its arguments checked, at the clock of its start. -/
def SessionCall.begin (s : SessionStore) : SessionCall → Call
  | .getUserSessionCached => .get
  | .createUserSession x =>
    let now := s.unix
    if x.userId ≤ 0 ∨ x.userAuthVersion ≤ 0 ∨ x.refreshHash = "" ∨ x.expiresAt ≤ now then
      .ended (.failed .invalid)
    else if x.status ≠ .active ∨ x.revokedAt ≠ 0 then .ended (.failed .invalid)
    else
      .create { x with
        version := if x.version ≤ 0 then 1 else x.version
        lastActiveAt := if x.lastActiveAt = 0 then now else x.lastActiveAt
        createdAt := if x.createdAt = 0 then now else x.createdAt }
  | .rotateUserSessionRefresh userId presentedHash nextHash now graceSeconds =>
    if userId ≤ 0 ∨ presentedHash = "" ∨ nextHash = "" ∨ presentedHash = nextHash ∨
        graceSeconds < 0 then .ended (.failed .invalid)
    else
      .rotate { userId, presentedHash, nextHash, now := if now ≤ 0 then s.unix else now
                graceSeconds } 3
  | .advanceUserSessionAuthVersion userId expectedSessionVersion expectedUserAuthVersion
      nextUserAuthVersion =>
      if userId ≤ 0 ∨ expectedSessionVersion ≤ 0 ∨ expectedUserAuthVersion ≤ 0 ∨
          nextUserAuthVersion ≤ expectedUserAuthVersion then .ended (.failed .invalid)
      else
        .advanceTx { userId, expectedSessionVersion, expectedUserAuthVersion, nextUserAuthVersion }
          (s.clock + cfg.cacheMillis) s.unix
  | .revokeUserSession userId reason =>
    if userId ≤ 0 then .ended (.failed .invalid) else .revoke userId reason s.unix
  | .revokeUserSessionByRefreshHash presentedHash reason =>
    if presentedHash = "" then .ended (.failed .invalid)
    else .revokeByHash presentedHash reason s.unix
  | .revokeUserSessions userId reason =>
    if userId ≤ 0 then .ended (.failed .invalid) else .revokeAll userId reason s.unix

/-- What an active entry that stands lets its publisher return. -/
def Publisher.result (x : UserSession) : Publisher → SessionResult
  | .get => .got x
  | .create => .done
  | .rotate => .done
  | .advance => .done

/-- The entry that denies. -/
def DenyGoal.entry (x : UserSession) : DenyGoal → SessionEntry
  | .observed => { x.cacheEntry with status := .revoked }
  | .fence _ now reason =>
    { x.cacheEntry with status := .revoking, revokedAt := now, revokedReason := reason }
  | .tombstone _ => x.cacheEntry

/-- What a call does once the entry is published or refused.  A fence that is
refused fails the call, a tombstone that is refused is only logged. -/
def DenyGoal.after (admitted : Bool) (x : UserSession) : DenyGoal → Call
  | .observed => .ended (.failed .inactive)
  | .fence by_ now reason =>
    if admitted then .revokeTx by_ now reason x else .ended (.failed .inactive)
  | .tombstone .reuse => .ended (.failed .refreshReuse)
  | .tombstone _ => .ended .revoked

/-! ### Steps of a call -/

/-- The store once the row is revoked. -/
def SessionStore.revokeRow (r : UserSession) (now : Int) (reason : String) : SessionStore :=
  { s with row := some (r.revoke now reason), revokedClock := s.clock }

/-- The row is free for the transaction of call `k`. -/
def SessionStore.Free (k : Nat) : Prop := s.lock = none ∨ s.lock = some k
deriving Decidable

/-- The lock is given back, if call `k` has it. -/
def SessionStore.unlock (k : Nat) : SessionStore :=
  { s with lock := if s.lock = some k then none else s.lock }

/-- The read of `GetUserSessionCached` from the key. -/
def Call.afterKey (s : SessionStore) : Option SessionEntry → Call
  | none => .getMiss
  | some e =>
    if e.userId ≤ 0 ∨ e.version ≤ 0 ∨ e.userAuthVersion ≤ 0 then .getMiss
    else if e.status ≠ .active ∨ e.revokedAt ≠ 0 ∨ e.expiresAt ≤ s.unix then
      .ended (.failed .inactive)
    else .ended (.got e.session)

/-- The body of one attempt of `RotateUserSessionRefresh` on the row. -/
def Call.afterRotateRow (args : RotateArgs) (left : Nat) (deadline : Int) (x : UserSession) : Call :=
  if ¬ x.Active args.now then .ended (.failed .inactive)
  else if x.refreshHash = args.presentedHash then .rotateSwap args left deadline x
  else if x.previousRefreshHash = "" ∨ x.previousRefreshHash ≠ args.presentedHash then
    .ended (.failed .refreshInvalid)
  else if args.now ≤ x.previousValidUntil then .ended (.failed .refreshRace)
  else .deny (.fence .reuse args.now "refresh_reuse") x

/-- The row `RotateUserSessionRefresh` writes over `r`, having read `x`. -/
def UserSession.rotated (r x : UserSession) (args : RotateArgs) : UserSession :=
  { r with
    previousRefreshHash := x.refreshHash
    previousValidUntil := args.now + args.graceSeconds
    refreshHash := args.nextHash
    lastActiveAt := args.now }

/-- The row `AdvanceUserSessionAuthVersion` writes over `r`. -/
def UserSession.advanced (r : UserSession) (args : AdvanceArgs) (now : Int) : UserSession :=
  { r with
    version := r.version + 1
    userAuthVersion := args.nextUserAuthVersion
    lastActiveAt := now }

/-- `AdvanceUserSessionAuthVersion` accepts the row. -/
def AdvanceArgs.Accepts (args : AdvanceArgs) (now : Int) (r : UserSession) : Prop :=
  r.status = .active ∧ now < r.expiresAt ∧ r.version = args.expectedSessionVersion ∧
    r.userAuthVersion = args.expectedUserAuthVersion
deriving Decidable

/-- `confirmUserSessionActiveSnapshot` finds the row as it is in `x`. -/
def SessionStore.Confirms (x : UserSession) : Prop :=
  ∃ r ∈ s.row, r.userId = x.userId ∧ r.Active s.unix ∧ r.version = x.version ∧
    r.userAuthVersion = x.userAuthVersion
deriving Decidable

/-- `RevokeUserSessionByRefreshHash` accepts the digest. -/
def UserSession.AcceptsHash (presentedHash : String) (now : Int) : Prop :=
  x.refreshHash = presentedHash ∨
    (x.previousRefreshHash ≠ "" ∧ now ≤ x.previousValidUntil ∧ x.previousRefreshHash = presentedHash)
deriving Decidable

/-- The transaction of a revocation, and the row its tombstone is made of: the
bulk revocation reads the row again under the lock, `RevokeUserSession` and
`RotateUserSessionRefresh` keep the one they read at first. -/
def SessionStore.revokeTx (k : Nat) (now : Int) (reason : String)
    (x r : UserSession) : Revoker → SessionStore × Call
  | .single =>
    if r.Active now then
      (s.revokeRow r now reason, .deny (.tombstone .single) (x.revoke now reason))
    else (s, .ended .notRevoked)
  | .byHash =>
    if r.status = .active then
      ((s.revokeRow r now reason).unlock k, .deny (.tombstone .byHash) (x.revoke now reason))
    else (s.unlock k, .ended .notRevoked)
  | .all =>
    if r.status = .active then
      (s.revokeRow r now reason, .deny (.tombstone .all) (r.afterFind.revoke now reason))
    else (s, .revokeAll x.userId reason now)
  | .reuse =>
    if r.Active now then
      (s.revokeRow r now reason, .deny (.tombstone .reuse) (x.revoke now reason))
    else (s, .ended (.failed .inactive))

/-- The next step of call `k`; `ok` is whether the database, or the read of the
key, answers. -/
def Call.next (k : Nat) (ok : Bool) (s : SessionStore) : Call → SessionStore × Call
  | .get => (s, if ok then Call.afterKey s s.cached else .getMiss)
  | .getMiss => (s, .getRow (s.clock + cfg.cacheMillis))
  | .getRow deadline =>
    if ok = false then (s, .ended (.failed .db))
    else
      match s.find with
      | none => (s, .ended (.failed .recordNotFound))
      | some x => (s, .getFound deadline x)
  | .getFound deadline x =>
    (s, if x.Active s.unix then .publish .get deadline x else .deny .observed x)
  | .create x => (s, .createRow (s.clock + cfg.cacheMillis) x)
  | .createRow deadline x =>
    if ok ∧ s.row = none then ({ s with row := some x }, .publish .create deadline x)
    else (s, .ended (.failed .db))
  | .rotate _ 0 => (s, .ended (.failed .refreshInvalid))
  | .rotate args (left + 1) => (s, .rotateRow args left (s.clock + cfg.cacheMillis))
  | .rotateRow args left deadline =>
    if ok = false then (s, .ended (.failed .db))
    else
      match s.findOf args.userId with
      | none => (s, .ended (.failed .recordNotFound))
      | some x => (s, Call.afterRotateRow args left deadline x)
  | .rotateSwap args left deadline x =>
    if ¬ s.Free k then (s, .rotateSwap args left deadline x) -- the row is locked
    else if ok = false then (s, .ended (.failed .db))
    else
      match s.row with
      | none => (s, .rotate args left)
      | some r =>
        if r.userId = args.userId ∧ r.Active args.now ∧ r.refreshHash = args.presentedHash then
          ({ s with row := some (r.rotated x args) }, .publish .rotate deadline (x.rotated x args))
        else (s, .rotate args left)
  | .advanceTx args deadline now =>
    if ¬ s.Free k then (s, .advanceTx args deadline now)
    else if ok = false then (s, .ended (.failed .db))
    else
      match s.row with
      | none => (s, .ended (.failed .recordNotFound))
      | some r =>
        if r.userId ≠ args.userId then (s, .ended (.failed .recordNotFound))
        else if args.Accepts now r then
          ({ s with row := some (r.advanced args now) },
            .publish .advance deadline (r.afterFind.advanced args now))
        else (s, .ended (.failed .inactive))
  | .publish by_ deadline x =>
    match activeExpiry deadline x.cacheEntry s.clock with
    | .ok none => (s, .confirm by_ x)
    | .ok (some expireAt) => (s, .publishScript by_ deadline expireAt x)
    | .error e => (s, .ended (.failed e))
  | .publishScript by_ deadline expireAt x =>
    (s.write x.cacheEntry expireAt,
      if s.Admits x.cacheEntry then .published by_ deadline x else .ended (.failed .inactive))
  | .published by_ deadline x =>
    (s, if ¬ s.clock < deadline then .confirm by_ x
      else if ¬ s.clock < 1000 * x.expiresAt then .ended (.failed .inactive)
      else .ended (by_.result x))
  | .confirm by_ x =>
    (s, if x.userId ≤ 0 ∨ x.version ≤ 0 ∨ x.userAuthVersion ≤ 0 then .ended (.failed .invalid)
      else if ok = false then .ended (.failed .db)
      else if s.Confirms x then .ended (by_.result x)
      else .ended (.failed .inactive))
  | .revoke userId reason now =>
    if ok = false then (s, .ended (.failed .db))
    else
      match s.findOf userId with
      | none => (s, .ended .notRevoked)
      | some x =>
        (s, if x.Active now then .deny (.fence .single now reason) x else .ended .notRevoked)
  | .revokeByHash presentedHash reason now =>
    if ¬ s.Free k then (s, .revokeByHash presentedHash reason now)
    else if ok = false then (s, .ended (.failed .db))
    else
      match s.find with
      | none => (s, .ended .notRevoked)
      | some x =>
        if x.Active now ∧ x.AcceptsHash presentedHash now then
          ({ s with lock := some k }, .deny (.fence .byHash now reason) x)
        else (s, .ended .notRevoked)
  | .revokeAll userId reason now =>
    if ok = false then (s, .ended (.failed .db))
    else
      match s.findOf userId with
      | none => (s, .ended .notRevoked)
      | some x =>
        (s, if x.status = .active ∧ now < x.expiresAt then .deny (.fence .all now reason) x
          else .ended .notRevoked)
  | .deny goal x => (s, .denyScript goal (denyMillis cfg (goal.entry x) s.clock) x)
  | .denyScript goal ttl x =>
    if s.Admits (goal.entry x) then
      (s.write (goal.entry x) (s.clock + ttl), goal.after true x)
    else (s.unlock k, goal.after false x)
  | .revokeTx by_ now reason x =>
    if ¬ s.Free k then (s, .revokeTx by_ now reason x)
    else if ok = false then (s.unlock k, .ended (.failed .db))
    else
      match s.row with
      | none => (s.unlock k, .ended (.failed .recordNotFound))
      | some r => s.revokeTx k now reason x r by_
  | .ended result => (s, .ended result)

/-! ### Interleavings -/

/-- The store, and all calls so far. -/
structure Sessions where
  store : SessionStore := {}
  calls : List Call := []
deriving DecidableEq, Repr

/-- Time passes, a call starts, or a call goes on. -/
inductive SessionOp where
  | tick (millis : Nat)
  | start (call : SessionCall)
  | advance (k : Nat) (ok : Bool)
deriving DecidableEq, Repr

/-- One step of anybody. -/
def sessionStep (s : Sessions) : SessionOp → Sessions
  | .tick millis => { s with store := { s.store with clock := s.store.clock + millis } }
  | .start call => { s with calls := s.calls ++ [call.begin cfg s.store] }
  | .advance k ok =>
    match s.calls[k]? with
    | none => s
    | some c =>
      { store := (c.next cfg k ok s.store).1
        calls := s.calls.set k (c.next cfg k ok s.store).2 }

end MicrossApi
