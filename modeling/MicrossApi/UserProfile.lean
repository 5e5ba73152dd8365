/-
MicrossApi/UserProfile.lean

`User.UpdateWithTx` (model/user.go) and what happens to a user at the same
time: commissions (service/commission.go), quota and affiliate quota
(model/user.go, model/quota_reserve.go, controller/user.go), customer codes and
discount plans (model/agent_customer.go, model/discount.go).

The struct `User` has more columns than the shared store keeps; the others
stand next to it.  `UpdateWithTx` is given a struct that its caller read some
time before, with new values in the fields of the profile.  It hands the whole
struct to `Updates`, which skips the fields that are zero and those on the
omit list.  A label is one transaction or one statement; reading the struct
and writing it back are two.
-/
import MicrossApi.Commission
import MicrossApi.DiscountBinding
import MicrossApi.Wallet

namespace MicrossApi

open StepSystem
open Tx hiding read

/-! ### The struct -/

/-- The columns of `users` the shared store leaves out. -/
structure MoreColumns where
  username : String := ""
  password : String := ""
  displayName : String := ""
  role : Int := 1
  status : Int := 1
  gitHubId : String := ""
  discordId : String := ""
  oidcId : String := ""
  weChatId : String := ""
  telegramId : String := ""
  accessToken : Option String := none
  usedQuota : Int := 0
  requestCount : Int := 0
  affCode : String := ""
  affCount : Int := 0
  affHistoryQuota : Int := 0
  linuxDOId : String := ""
  setting : String := ""
  remark : String := ""
  createdAt : Int := 0
  lastLoginAt : Int := 0
  authVersion : Int := 1
deriving DecidableEq, Repr

/-- The struct `User`. -/
structure UserStruct extends User, MoreColumns
deriving DecidableEq, Repr

/-- The database: the shared store, and the other columns of each user. -/
structure AccountDB where
  store : BindingDB := {}
  more : Int → MoreColumns := fun _ => {}

variable (s : AccountDB)

/-- `First(&user, id)`. -/
def AccountDB.first (id : Int) : Option UserStruct :=
  (s.store.db.users.find? id).map fun u => { toUser := u, toMoreColumns := s.more id }

/-- A statement on the shared store. -/
def AccountDB.onUsers (f : DB → DB) : AccountDB :=
  { s with store := { s.store with db := f s.store.db } }

/-- A statement on the other columns of a user. -/
def AccountDB.onMore (id : Int) (f : MoreColumns → MoreColumns) : AccountDB :=
  { s with more := fun i => if i = id then f (s.more i) else s.more i }

/-! ### Writing a struct -/

/-- A column as `Updates(struct)` leaves it: a field that is zero is skipped. -/
def written {α : Type} [DecidableEq α] (zero old new : α) : α := if new = zero then old else new

/-- `Updates(newUser)` on the shared columns, without `quota` and `aff_quota`.
The subject type is never empty. -/
def User.updates (row new : User) : User :=
  { row with
    inviterId := written 0 row.inviterId new.inviterId
    affCommissionBalance := written 0 row.affCommissionBalance new.affCommissionBalance
    group := written "" row.group new.group
    email := written "" row.email new.email
    stripeCustomer := written "" row.stripeCustomer new.stripeCustomer
    subjectType := new.subjectType
    parentAgentId := written 0 row.parentAgentId new.parentAgentId
    discountPlanId := written 0 row.discountPlanId new.discountPlanId }

theorem User.id_updates (row new : User) : (row.updates new).id = row.id := rfl

/-- `Updates(newUser)` on the other columns, without `access_token`,
`used_quota`, `request_count`, `aff_count`, `aff_history` and
`auth_version`. -/
def MoreColumns.updates (row new : MoreColumns) : MoreColumns :=
  { row with
    username := written "" row.username new.username
    password := written "" row.password new.password
    displayName := written "" row.displayName new.displayName
    role := written 0 row.role new.role
    status := written 0 row.status new.status
    gitHubId := written "" row.gitHubId new.gitHubId
    discordId := written "" row.discordId new.discordId
    oidcId := written "" row.oidcId new.oidcId
    weChatId := written "" row.weChatId new.weChatId
    telegramId := written "" row.telegramId new.telegramId
    affCode := written "" row.affCode new.affCode
    linuxDOId := written "" row.linuxDOId new.linuxDOId
    setting := written "" row.setting new.setting
    remark := written "" row.remark new.remark
    createdAt := written 0 row.createdAt new.createdAt
    lastLoginAt := written 0 row.lastLoginAt new.lastLoginAt }

/-- `tx.Model(&current).Omit(…).Updates(newUser)`. -/
def AccountDB.updates (new : UserStruct) : AccountDB :=
  (s.onUsers fun db =>
    db.updateUser new.id (·.updates new.toUser) (fun row => row.id_updates _)).onMore new.id
      (·.updates new.toMoreColumns)

/-- What the hash function, Redis and the database answer to one
`UpdateWithTx`. -/
structure UpdateEnv where
  password2Hash : String → Except Err String := .ok
  firstOk : Bool := true
  lockOk : Bool := true
  fenceOk : Bool := true
  versionOk : Bool := true
  updateOk : Bool := true
  reloadOk : Bool := true

variable (env : UpdateEnv)

/-- `IncrementUserAuthVersionWithTx`.  The row is locked, so that the
conditional UPDATE matches the first time. -/
def incrementUserAuthVersionWithTx (userId : Int) : Tx AccountDB Err Int := do
  require (0 < userId) (.text "invalid user auth version update")
  require (env.lockOk = true) .db
  let user ← fetch (fun s : AccountDB => s.first userId) .recordNotFound
  let next := (if user.authVersion < 1 then 1 else user.authVersion) + 1
  require (env.fenceOk = true) .redis
  require (env.versionOk = true) .db
  update fun s : AccountDB => s.onMore userId fun m => { m with authVersion := next }
  pure next

variable (updatePassword : Bool)

/-- `authChanged` of `UpdateWithTx`. -/
def AuthChanged (current new : UserStruct) : Prop :=
  (updatePassword = true ∧ current.password ≠ new.password) ∨
    (new.role ≠ 0 ∧ current.role ≠ new.role) ∨
    (new.status ≠ 0 ∧ current.status ≠ new.status) ∨
    (new.group ≠ "" ∧ current.group ≠ new.group)
deriving Decidable

/-- A change of what authentication rests on raises the auth version. -/
def nextAuthVersion (current newUser : UserStruct) : Tx AccountDB Err Int :=
  if AuthChanged updatePassword current newUser then incrementUserAuthVersionWithTx env newUser.id
  else pure newUser.authVersion

/-- `UpdateWithTx`; the result is the struct as it is read back. -/
def updateWithTx (user : UserStruct) : Tx AccountDB Err UserStruct := do
  let password ← lift
    (if updatePassword then env.password2Hash user.password else .ok user.password)
  let newUser := { user with password := password }
  require (env.firstOk = true) .db
  let current ← fetch (fun s : AccountDB => s.first user.id) .recordNotFound
  let authVersion ← nextAuthVersion env updatePassword current newUser
  require (env.updateOk = true) .db
  update fun s : AccountDB => s.updates { newUser with authVersion := authVersion }
  require (env.reloadOk = true) .db
  fetch (fun s : AccountDB => s.first user.id) .recordNotFound

/-! ### What else happens to a user -/

/-- The statements that change `users.quota`. -/
inductive QuotaChange where
  /-- also top-ups, redemptions, refunds and grants -/
  | increaseUserQuota (id quota : Int)
  | decreaseUserQuota (id quota : Int)
  | reserveUserQuotaDB (id quota : Int)
  | updateUserQuotaUsedQuotaAndRequestCount (id quota usedQuota requestCount : Int)
  /-- `ManageUser` with the mode `override` -/
  | override (id value : Int)
deriving DecidableEq, Repr

/-- The database after the statement. -/
def QuotaChange.perform (s : AccountDB) : QuotaChange → AccountDB
  | .increaseUserQuota id quota => s.onUsers (·.addQuota id quota)
  | .decreaseUserQuota id quota => s.onUsers (·.addQuota id (-quota))
  | .reserveUserQuotaDB id quota =>
    s.onUsers (·.updateUser id
      (fun u => if quota ≤ u.quota then { u with quota := u.quota - quota } else u)
      (fun u => by split <;> rfl))
  | .updateUserQuotaUsedQuotaAndRequestCount id quota usedQuota requestCount =>
    (s.onUsers (·.addQuota id quota)).onMore id fun m =>
      { m with
        usedQuota := m.usedQuota + usedQuota
        requestCount := m.requestCount + requestCount }
  | .override id value =>
    s.onUsers (·.updateUser id (fun u => { u with quota := value }) (fun _ => rfl))

/-- `inviteUser`; where there is no such row it only returns an error. -/
def inviteUser (quotaForInviter inviterId : Int) (s : AccountDB) : AccountDB :=
  (s.onUsers (·.updateUser inviterId
    (fun u => { u with affQuota := u.affQuota + quotaForInviter }) (fun _ => rfl))).onMore inviterId
    fun m =>
      { m with affCount := m.affCount + 1, affHistoryQuota := m.affHistoryQuota + quotaForInviter }

/-! ### Interleavings -/

/-- What a caller of `UpdateWithTx` does to the struct it has read: it changes
fields of the profile only. -/
structure ProfileEdit where
  edit : UserStruct → UserStruct
  id : ∀ u, (edit u).id = u.id
  inviterId : ∀ u, (edit u).inviterId = u.inviterId
  subjectType : ∀ u, (edit u).subjectType = u.subjectType
  parentAgentId : ∀ u, (edit u).parentAgentId = u.parentAgentId
  discountPlanId : ∀ u, (edit u).discountPlanId = u.discountPlanId
  affCommissionBalance : ∀ u, (edit u).affCommissionBalance = u.affCommissionBalance

/-- The database, and the structs that have been read. -/
structure UserAccounts where
  rows : AccountDB := {}
  held : List UserStruct := []

/-- One transaction or statement; `updateWithTx` saves the `k`-th struct that
was read. -/
inductive AccountOp where
  | read (id : Int)
  | updateWithTx (env : UpdateEnv) (k : Nat) (updatePassword : Bool) (profile : ProfileEdit)
  | processCommission (env : CommissionEnv) (rate : String)
      (consumeLogId inviteeId gross margin : Int)
  | reverseCommission (env : ReverseEnv) (recordId : Int) (reason : String) (operatorId : Int)
  | changeQuota (change : QuotaChange)
  | inviteUser (quotaForInviter inviterId : Int)
  | transferAffQuotaToQuota (env : TransferEnv) (id quota : Int)
  | bindCustomerCode (env : CodeEnv) (now customerId : Int) (rawCode : String)
  | bindDiscountPlan (env : BindEnv) (now : Int) (binding : DiscountBinding)
  | unbindDiscountPlan (env : BindEnv) (now id : Int)

/-- The step is an `UpdateWithTx`. -/
def AccountOp.updatesProfile : AccountOp → Bool
  | .updateWithTx _ _ _ _ => true
  | _ => false

/-- The database after a step. -/
def AccountOp.perform (cfg : WalletConfig) (s : UserAccounts) : AccountOp → AccountDB
  | .read _ => s.rows
  | .updateWithTx env k updatePassword profile =>
    match s.held[k]? with
    | none => s.rows
    | some user =>
      (atomically (MicrossApi.updateWithTx env updatePassword (profile.edit user)) s.rows).2
  | .processCommission env rate consumeLogId inviteeId gross margin =>
    s.rows.onUsers fun db =>
      (MicrossApi.processCommission cfg.newFromString env rate consumeLogId inviteeId gross
        margin db).2
  | .reverseCommission env recordId reason operatorId =>
    s.rows.onUsers fun db => (MicrossApi.reverseCommission env recordId reason operatorId db).2
  | .changeQuota change => change.perform s.rows
  | .inviteUser quotaForInviter inviterId =>
    MicrossApi.inviteUser quotaForInviter inviterId s.rows
  | .transferAffQuotaToQuota env id quota =>
    s.rows.onUsers fun db =>
      (MicrossApi.transferAffQuotaToQuota cfg env id quota { db := db }).2.db
  | .bindCustomerCode env now customerId rawCode =>
    { s.rows with store := (MicrossApi.bindCustomerCode env now customerId rawCode s.rows.store).2 }
  | .bindDiscountPlan env now binding =>
    { s.rows with
      store := (atomically (MicrossApi.bindDiscountPlan env now binding) s.rows.store).2 }
  | .unbindDiscountPlan env now id =>
    { s.rows with
      store := (atomically (MicrossApi.unbindDiscountPlan env now id) s.rows.store).2 }

/-- One step; what is read is kept. -/
def accountStep (cfg : WalletConfig) (s : UserAccounts) (op : AccountOp) : UserAccounts where
  rows := op.perform cfg s
  held :=
    match op with
    | .read id => s.held ++ (s.rows.first id).toList
    | _ => s.held

end MicrossApi
