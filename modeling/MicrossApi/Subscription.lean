/-
MicrossApi/Subscription.lean

User subscriptions (model/subscription.go): the period arithmetic of a plan,
creating a subscription from a plan, the quota reset of a subscription whose
period has passed, and the four functions that move its used amount,
`PreConsumeUserSubscription`, `PostConsumeUserSubscriptionDelta`,
`RefundSubscriptionPreConsume` and `ResetDueSubscriptions`.

The amounts are `int64` as in the source, so sums wrap.  Instants are Unix
seconds.  The server's zone is a parameter (`Calendar`), and so is the plan a lookup
answers: it comes from a cache that may lag behind the table.  The loop that
advances a reset time takes fuel; a transaction that runs out of it has not committed.
-/
import Mathlib.Data.List.Sort
import MicrossApi.QuotaMath
import MicrossApi.Database

namespace MicrossApi

open Tx hiding read

/-! ### Plans -/

/-- `SubscriptionDuration…`; any other text is refused when it is used. -/
inductive DurationUnit where
  | year
  | month
  | day
  | hour
  | custom
  | other (unit : String)
deriving DecidableEq, Repr

/-- A subscription plan as the lookup hands it out. -/
structure SubscriptionPlan where
  id : Int
  priceAmount : ℚ := 0
  durationUnit : DurationUnit := .month
  durationValue : Int := 1
  customSeconds : Int := 0
  enabled : Bool := true
  allowBalancePay : Option Bool := none
  allowWalletOverflow : Option Bool := none
  maxPurchasePerUser : Int := 0
  discountPlanId : Int := 0
  upgradeGroup : String := ""
  downgradeGroup : String := ""
  totalAmount : Int64 := 0
  quotaResetPeriod : String := "never"
  quotaResetCustomSeconds : Int := 0
deriving DecidableEq

/-- `NormalizeDefaults`. -/
def SubscriptionPlan.normalizeDefaults (p : SubscriptionPlan) : SubscriptionPlan :=
  { p with
    allowBalancePay := some (p.allowBalancePay.getD true)
    allowWalletOverflow := some (p.allowWalletOverflow.getD true) }

/-- `getSubscriptionPlanByIdTx`; `lookup` is what the cache or the table
answers. -/
def getSubscriptionPlanByIdTx (lookup : Int → Except Err SubscriptionPlan) (id : Int) :
    Except Err SubscriptionPlan :=
  if id ≤ 0 then .error (.text "invalid plan id")
  else (lookup id).map SubscriptionPlan.normalizeDefaults

/-! ### The `time` package -/

/-- The server's zone, and the months.  Days are counted from 1 January 1970, and
months one after the other. -/
structure Calendar where
  /-- seconds east of UTC at an instant -/
  offset : Int → Int
  /-- the month of a day -/
  month : Int → Int
  /-- the first day of a month -/
  monthStart : Int → Int
  monthStart_le : ∀ d, monthStart (month d) ≤ d
  lt_monthStart : ∀ d, d < monthStart (month d + 1)
  month_monthStart : ∀ k, month (monthStart k) = k

namespace Calendar

variable (cal : Calendar)

/-- The time on the wall, in seconds from the start of day 0. -/
def wallTime (t : Int) : Int := t + cal.offset t

def day (t : Int) : Int := cal.wallTime t / 86400

/-- `time.Date`, for a time on the wall: the offset is looked up as if that were UTC,
and then at the instant this gives. -/
def date (wall : Int) : Int := wall - cal.offset (wall - cal.offset wall)

/-- `t.AddDate(years, months, days)`: the day of the month and the time of day stay. -/
def addDate (t years months days : Int) : Int :=
  let month := cal.month (cal.day t)
  let first := cal.monthStart (month + 12 * years + months)
  cal.date (86400 * (first + (cal.day t - cal.monthStart month) + days) + cal.wallTime t % 86400)

/-- `time.Date` at midnight of the day of `t`. -/
def startOfDay (t : Int) : Int := cal.date (86400 * cal.day t)

/-- `time.Date` at midnight of the first day of the month of `t`. -/
def startOfMonth (t : Int) : Int := cal.date (86400 * cal.monthStart (cal.month (cal.day t)))

/-- `t.Weekday()`, Sunday being 0; day 0 is a Thursday. -/
def weekday (t : Int) : Int := (cal.day t + 4) % 7

end Calendar

/-- `t.Add(time.Duration(n) * time.Second)`: a duration is a 64-bit number of
nanoseconds. -/
def addSeconds (t n : Int) : Int := t + (n * 10 ^ 9).bmod (2 ^ 64) / 10 ^ 9

/-- Universal time, with months of 31 days. -/
def utcDays : Calendar where
  offset _ := 0
  month d := d / 31
  monthStart k := 31 * k
  monthStart_le d := by omega
  lt_monthStart d := by omega
  month_monthStart k := by omega

/-! ### Periods of a plan -/

/-- `calcPlanEndTime`. -/
def calcPlanEndTime (cal : Calendar) (start : Int) (plan : SubscriptionPlan) : Except Err Int :=
  if plan.durationValue ≤ 0 ∧ plan.durationUnit ≠ .custom then
    .error (.text "duration_value must be > 0")
  else
    match plan.durationUnit with
    | .year => .ok (cal.addDate start plan.durationValue 0 0)
    | .month => .ok (cal.addDate start 0 plan.durationValue 0)
    | .day => .ok (addSeconds start (plan.durationValue * 24 * 3600))
    | .hour => .ok (addSeconds start (plan.durationValue * 3600))
    | .custom =>
      if plan.customSeconds ≤ 0 then .error (.text "custom_seconds must be > 0")
      else .ok (addSeconds start plan.customSeconds)
    | .other unit => .error (.text s!"invalid duration_unit: {unit}")

/-- The end that the plan is given at `start` lies after it.  Long durations wrap. -/
def SubscriptionPlan.EndsAfter (cal : Calendar) (start : Int) (plan : SubscriptionPlan) : Prop :=
  ∀ endUnix ∈ (calcPlanEndTime cal start plan).toOption, start < endUnix
deriving Decidable

variable {cal : Calendar} {plan : SubscriptionPlan}

theorem SubscriptionPlan.EndsAfter.lt {start endUnix : Int} (h : plan.EndsAfter cal start)
    (hend : calcPlanEndTime cal start plan = .ok endUnix) : start < endUnix :=
  h endUnix (by rw [hend]; rfl)

/-- `SubscriptionReset…`. -/
inductive ResetPeriod where
  | never
  | daily
  | weekly
  | monthly
  | custom
deriving DecidableEq, Repr

/-- `NormalizeResetPeriod`. -/
def normalizeResetPeriod (period : String) : ResetPeriod :=
  match trimSpace period with
  | "daily" => .daily
  | "weekly" => .weekly
  | "monthly" => .monthly
  | "custom" => .custom
  | _ => .never

/-- The reset `calcNextResetTime` aims at, before it is compared with the end
of the subscription. -/
def nextResetCandidate (cal : Calendar) (base : Int) (plan : SubscriptionPlan) : Option Int :=
  match normalizeResetPeriod plan.quotaResetPeriod with
  | .never => none
  | .daily => some (cal.addDate (cal.startOfDay base) 0 0 1)
  | .weekly =>
    -- Monday is 1 and Sunday is 7
    let weekday := if cal.weekday base = 0 then 7 else cal.weekday base
    some (cal.addDate (cal.startOfDay base) 0 0 (8 - weekday))
  | .monthly => some (cal.addDate (cal.startOfMonth base) 0 1 0)
  | .custom =>
    if plan.quotaResetCustomSeconds ≤ 0 then none
    else some (addSeconds base plan.quotaResetCustomSeconds)

/-- `calcNextResetTime`; 0 means that there is no further reset. -/
def calcNextResetTime (cal : Calendar) (base : Int) (plan : SubscriptionPlan) (endUnix : Int) : Int :=
  match nextResetCandidate cal base plan with
  | none => 0
  | some next => if 0 < endUnix ∧ endUnix < next then 0 else next

/-! ### Creating a subscription -/

/-- What the database answers while a subscription is created. -/
structure CreateEnv where
  now : Int
  newId : Int
  countOk : Bool := true
  readGroupOk : Bool := true
  updateGroupOk : Bool := true
  createOk : Bool := true
  /-- the `discount_plan_id` the binding leaves, if it goes through -/
  bind : Option Int := some 0
deriving DecidableEq, Repr

variable (env : CreateEnv)

/-- The purchase limit of a plan, 0 being none. -/
def checkPurchaseLimit (userId : Int) (plan : SubscriptionPlan) : Tx DB Err Unit :=
  if 0 < plan.maxPurchasePerUser then do
    require (env.countOk = true) .db
    let count ← Tx.read fun db : DB =>
      (db.userSubscriptions.rows.filter fun s => s.userId = userId ∧ s.planId = plan.id).length
    require ((count : Int) < plan.maxPurchasePerUser) (.text "已达到该套餐购买上限")
  else pure ()

/-- `getUserGroupByIdTx`: no row reads as no group. -/
def getUserGroupByIdTx (readGroupOk : Bool) (userId : Int) : Tx DB Err String := do
  require (0 < userId) (.text "invalid userId")
  require (readGroupOk = true) .db
  Tx.read fun db : DB => ((db.users.find? userId).map (·.group)).getD ""

/-- Move the user into the plan's group; the answer is the group left, empty
when nothing changed. -/
def upgradeUserGroup (userId : Int) (upgradeGroup : String) : Tx DB Err String :=
  if upgradeGroup = "" then pure ""
  else do
    let currentGroup ← getUserGroupByIdTx env.readGroupOk userId
    if currentGroup = upgradeGroup then pure ""
    else do
      require (env.updateGroupOk = true) .db
      update fun db : DB =>
        db.updateUser userId (fun u => { u with group := upgradeGroup }) (fun _ => rfl)
      pure currentGroup

/-- `bindSubscriptionDiscountTx`, as far as `users` sees it. -/
def bindSubscriptionDiscountTx (userId : Int) (plan : SubscriptionPlan) : Tx DB Err Unit :=
  if plan.discountPlanId ≤ 0 then pure ()
  else do
    let discountPlanId ← fetch (fun _ : DB => env.bind)
      (.text s!"bind subscription discount: {Err.db.message}")
    update fun db : DB =>
      db.updateUser userId (fun u => { u with discountPlanId := discountPlanId }) (fun _ => rfl)

/-- The subscription a plan gives. -/
def subscriptionFromPlan (cal : Calendar) (env : CreateEnv) (userId : Int)
    (plan : SubscriptionPlan) (source : String) (endUnix : Int) (prevGroup : String) : UserSubscription :=
  let nextReset := calcNextResetTime cal env.now plan endUnix
  { id := env.newId
    userId := userId
    planId := plan.id
    amountTotal := plan.totalAmount
    amountUsed := 0
    startTime := env.now
    endTime := endUnix
    status := .active
    source := source
    lastResetTime := if 0 < nextReset then env.now else 0
    nextResetTime := nextReset
    upgradeGroup := trimSpace plan.upgradeGroup
    prevUserGroup := prevGroup
    downgradeGroup := trimSpace plan.downgradeGroup
    allowWalletOverflow := plan.allowWalletOverflow.getD true }

/-- `CreateUserSubscriptionFromPlanTx` up to the limit. -/
def purchaseAllowed (env : CreateEnv) (userId : Int) (plan : SubscriptionPlan) : Tx DB Err Unit := do
  require (plan.id ≠ 0) (.text "invalid plan")
  require (0 < userId) (.text "invalid user id")
  checkPurchaseLimit env userId plan

/-- `CreateUserSubscriptionFromPlanTx` after the limit. -/
def insertFromPlan (cal : Calendar) (env : CreateEnv) (userId : Int) (plan : SubscriptionPlan)
    (source : String) : Tx DB Err UserSubscription := do
  let endUnix ← lift (calcPlanEndTime cal env.now plan)
  let prevGroup ← upgradeUserGroup env userId (trimSpace plan.upgradeGroup)
  let sub := subscriptionFromPlan cal env userId plan source endUnix prevGroup
  let taken ← Tx.read fun db : DB => (db.userSubscriptions.find? env.newId).isSome
  require (env.createOk = true ∧ taken = false) .db
  update fun db : DB => { db with userSubscriptions := db.userSubscriptions.insert sub }
  bindSubscriptionDiscountTx env userId plan
  pure sub

/-- `CreateUserSubscriptionFromPlanTx`. -/
def createUserSubscriptionFromPlanTx (cal : Calendar) (env : CreateEnv) (userId : Int)
    (plan : SubscriptionPlan) (source : String) : Tx DB Err UserSubscription := do
  purchaseAllowed env userId plan
  insertFromPlan cal env userId plan source

theorem ok_checkPurchaseLimit {env : CreateEnv} {userId : Int}
    {db db' : DB} {x : Unit} (h : checkPurchaseLimit env userId plan db = .ok (x, db')) : db' = db := by
  unfold checkPurchaseLimit at h
  split at h
  · simp only [ok_require_bind_iff, ok_read_bind_iff, ok_require_iff] at h
    exact h.2.2
  · exact (ok_pure_iff.mp h).2

/-! ### Resetting the used amount -/

/-- Write a subscription back. -/
def DB.saveSubscription (db : DB) (sub : UserSubscription) : DB :=
  { db with userSubscriptions := db.userSubscriptions.save sub }

/-- The loop of `maybeResetUserSubscriptionWithPlanTx`: step from reset to
reset while the next one is not in the future.  The answer is whether it
stepped at all, the last base and the reset after it. -/
def advanceReset (cal : Calendar) (plan : SubscriptionPlan) (endTime now : Int) :
    Nat → Bool → Int → Int → Option (Bool × Int × Int)
  | fuel, advanced, base, next =>
    if 0 < next ∧ next ≤ now then
      match fuel with
      | 0 => none
      | fuel + 1 =>
        advanceReset cal plan endTime now fuel true next
          (calcNextResetTime cal next plan endTime)
    else some (advanced, base, next)

/-- The subscription as `maybeResetUserSubscriptionWithPlanTx` leaves it, and
whether it is to be written back. -/
def maybeReset (cal : Calendar) (fuel : Nat) (sub : UserSubscription) (plan : SubscriptionPlan)
    (now : Int) : Option (UserSubscription × Bool) :=
  if 0 < sub.nextResetTime ∧ now < sub.nextResetTime then some (sub, false)
  else if normalizeResetPeriod plan.quotaResetPeriod = .never then some (sub, false)
  else
    let base := if sub.lastResetTime ≤ 0 then sub.startTime else sub.lastResetTime
    let next := calcNextResetTime cal base plan sub.endTime
    match advanceReset cal plan sub.endTime now fuel false base next with
    | none => none
    | some (false, base, next) =>
      if sub.nextResetTime = 0 ∧ 0 < next then
        some ({ sub with nextResetTime := next, lastResetTime := base }, true)
      else some (sub, false)
    | some (true, base, next) =>
      some ({ sub with amountUsed := 0, lastResetTime := base, nextResetTime := next }, true)

/-- `maybeResetUserSubscriptionWithPlanTx`. -/
def maybeResetUserSubscriptionWithPlanTx (cal : Calendar) (fuel : Nat) (saveOk : Bool)
    (sub : UserSubscription) (plan : SubscriptionPlan) (now : Int) : Tx DB Err UserSubscription := do
  -- running out of fuel is a transaction that never commits
  let r ← fetch (fun _ : DB => maybeReset cal fuel sub plan now) .db
  if r.2 = true then do
    require (saveOk = true) .db
    update fun db : DB => db.saveSubscription r.1
    pure r.1
  else pure r.1

/-! ### Pre-consumption -/

/-- What the caller and the database contribute to a pre-consumption. -/
structure PreConsumeEnv where
  now : Int
  lookup : Int → Except Err SubscriptionPlan
  fuel : Nat := 1000
  queryOk : Bool := true
  readSubOk : Bool := true
  lockOk : Bool := true
  /-- whether the reset of the subscription with this id can be written -/
  resetOk : Int → Bool := fun _ => true
  createOk : Bool := true
  saveOk : Bool := true

/-- `SubscriptionPreConsumeResult`. -/
structure SubscriptionPreConsumeResult where
  userSubscriptionId : Int
  preConsumed : Int64
  amountTotal : Int64
  amountUsedBefore : Int64
  amountUsedAfter : Int64
deriving DecidableEq

/-- The subscriptions a request may draw on, the first to end first. -/
def DB.activeSubscriptions (db : DB) (userId now : Int) : List UserSubscription :=
  (db.userSubscriptions.rows.filter fun s =>
      s.userId = userId ∧ s.status = .active ∧ now < s.endTime).insertionSort
    fun a b => a.endTime < b.endTime ∨ (a.endTime = b.endTime ∧ a.id ≤ b.id)

/-- The request was answered before with `r`. -/
def alreadyConsumed (sub : UserSubscription) (r : SubscriptionPreConsumeRecord) :
    Tx DB Err SubscriptionPreConsumeResult :=
  if r.status = .refunded then fail (.text "subscription pre-consume already refunded")
  else pure ⟨sub.id, r.preConsumed, sub.amountTotal, sub.amountUsed, sub.amountUsed⟩

/-- File the request and take the amount from `sub`. -/
def consumeSubscription (env : PreConsumeEnv) (requestId : String) (userId : Int) (amount : Int64)
    (sub : UserSubscription) : Tx DB Err SubscriptionPreConsumeResult := do
  let filed ← Tx.read fun db : DB => db.preConsumeRecords.find? requestId
  match env.createOk, filed with
  | true, none => do
    update fun db : DB =>
      { db with
        preConsumeRecords := db.preConsumeRecords.insert ⟨requestId, userId, sub.id, amount, .consumed⟩ }
    require (env.saveOk = true) .db
    let used := { sub with amountUsed := sub.amountUsed + amount }
    update fun db : DB => db.saveSubscription used
    pure ⟨sub.id, amount, sub.amountTotal, sub.amountUsed, used.amountUsed⟩
  -- the INSERT fails: a row of this request id answers, else the error stands
  | _, some dup => alreadyConsumed sub dup
  | false, none => fail .db

/-- The loop of `PreConsumeUserSubscription` over the candidates. -/
def consumeFirst (cal : Calendar) (env : PreConsumeEnv) (requestId : String) (userId : Int)
    (amount : Int64) : List UserSubscription → Tx DB Err SubscriptionPreConsumeResult
  | [] => fail (.text s!"subscription quota insufficient, need={amount}")
  | candidate :: rest => do
    let plan ← lift (getSubscriptionPlanByIdTx env.lookup candidate.planId)
    let sub ← maybeResetUserSubscriptionWithPlanTx cal env.fuel (env.resetOk candidate.id)
      candidate plan env.now
    if 0 < sub.amountTotal ∧ sub.amountTotal - sub.amountUsed < amount then
      consumeFirst cal env requestId userId amount rest
    else consumeSubscription env requestId userId amount sub

/-- The transaction of `PreConsumeUserSubscription`. -/
def preConsumeTx (cal : Calendar) (env : PreConsumeEnv) (requestId : String) (userId : Int)
    (amount : Int64) : Tx DB Err SubscriptionPreConsumeResult := do
  require (env.queryOk = true) .db
  let existing ← Tx.read fun db : DB => db.preConsumeRecords.find? requestId
  match existing with
  | some r => do
    require (r.status ≠ .refunded) (.text "subscription pre-consume already refunded")
    require (env.readSubOk = true) .db
    let sub ← fetch (fun db : DB => db.userSubscriptions.find? r.userSubscriptionId)
      .recordNotFound
    alreadyConsumed sub r
  | none => do
    require (env.lockOk = true) (.text "no active subscription")
    let subs ← Tx.read fun db : DB => db.activeSubscriptions userId env.now
    require (subs ≠ []) (.text "no active subscription")
    consumeFirst cal env requestId userId amount subs

/-- `PreConsumeUserSubscription`. -/
def preConsumeUserSubscription (cal : Calendar) (env : PreConsumeEnv) (requestId : String)
    (userId : Int) (amount : Int64) (db : DB) : Except Err SubscriptionPreConsumeResult × DB :=
  if userId ≤ 0 then (.error (.text "invalid userId"), db)
  else if trimSpace requestId = "" then (.error (.text "requestId is empty"), db)
  else if amount ≤ 0 then (.error (.text "amount must be > 0"), db)
  else atomically (preConsumeTx cal env requestId userId amount) db

/-! ### Corrections and refunds -/

/-- What the database answers to a correction. -/
structure PostConsumeEnv where
  lockOk : Bool := true
  saveOk : Bool := true
deriving DecidableEq, Repr

/-- The transaction of `PostConsumeUserSubscriptionDelta`. -/
def postConsumeTx (env : PostConsumeEnv) (userSubscriptionId : Int) (delta : Int64) : Tx DB Err Unit := do
  require (env.lockOk = true) .db
  let sub ← fetch (fun db : DB => db.userSubscriptions.find? userSubscriptionId) .recordNotFound
  let newUsed := if sub.amountUsed + delta < 0 then 0 else sub.amountUsed + delta
  require (¬ (0 < sub.amountTotal ∧ sub.amountTotal < newUsed))
    (.text s!"subscription used exceeds total, used={newUsed} total={sub.amountTotal}")
  require (env.saveOk = true) .db
  update fun db : DB => db.saveSubscription { sub with amountUsed := newUsed }

/-- `PostConsumeUserSubscriptionDelta`. -/
def postConsumeUserSubscriptionDelta (env : PostConsumeEnv) (userSubscriptionId : Int)
    (delta : Int64) (db : DB) : Except Err Unit × DB :=
  if userSubscriptionId ≤ 0 then (.error (.text "invalid userSubscriptionId"), db)
  else if delta = 0 then (.ok (), db)
  else atomically (postConsumeTx env userSubscriptionId delta) db

/-- What the database answers to a refund. -/
structure RefundPreConsumeEnv where
  lockOk : Bool := true
  post : PostConsumeEnv := {}
  saveOk : Bool := true
deriving DecidableEq, Repr

/-- Mark the pre-consumption as refunded, the last statement of the refund. -/
def markRefunded (saveOk : Bool) (r : SubscriptionPreConsumeRecord) (db : DB) : Except Err Unit × DB :=
  if saveOk then
    (.ok (), { db with preConsumeRecords := db.preConsumeRecords.save { r with status := .refunded } })
  else (.error .db, db)

/-- `RefundSubscriptionPreConsume`.  The correction it calls runs on a
connection of its own: it stays committed when marking the record fails. -/
def refundSubscriptionPreConsume (env : RefundPreConsumeEnv) (requestId : String) (db : DB) :
    Except Err Unit × DB :=
  if trimSpace requestId = "" then (.error (.text "requestId is empty"), db)
  else if env.lockOk = false then (.error .db, db)
  else
    match db.preConsumeRecords.find? requestId with
    | none => (.error .recordNotFound, db)
    | some r =>
      if r.status = .refunded then (.ok (), db)
      else if r.preConsumed ≤ 0 then markRefunded env.saveOk r db
      else
        match postConsumeUserSubscriptionDelta env.post r.userSubscriptionId (-r.preConsumed) db
          with
        | (.error e, db') => (.error e, db')
        | (.ok _, db') => markRefunded env.saveOk r db'

/-! ### The reset task -/

/-- What the batch reset is answered. -/
structure ResetDueEnv where
  now : Int
  lookup : Int → Except Err SubscriptionPlan
  fuel : Nat := 1000
  queryOk : Bool := true
  lockOk : Int → Bool := fun _ => true
  saveOk : Int → Bool := fun _ => true

/-- Whether the reset of `s` is due. -/
def UserSubscription.ResetDue (s : UserSubscription) (now : Int) : Prop :=
  0 < s.nextResetTime ∧ s.nextResetTime ≤ now
deriving Decidable

/-- The transaction of one iteration of `ResetDueSubscriptions`: the row is
read again under its lock, and one that is no longer due is left alone.  The
answer says whether it counts. -/
def resetDueTx (cal : Calendar) (env : ResetDueEnv) (id : Int) (plan : SubscriptionPlan) :
    Tx DB Err Bool := do
  let locked ← Tx.read fun db : DB =>
    if env.lockOk id then (db.userSubscriptions.find? id).filter (·.ResetDue env.now) else none
  match locked with
  | none => pure false
  | some sub => do
    let _ ← maybeResetUserSubscriptionWithPlanTx cal env.fuel (env.saveOk id) sub plan env.now
    pure true

/-- One iteration; a plan that cannot be read is skipped. -/
def resetDueOne (cal : Calendar) (env : ResetDueEnv) (sub : UserSubscription) (db : DB) :
    Except Err Bool × DB :=
  match getSubscriptionPlanByIdTx env.lookup sub.planId with
  | .error _ => (.ok false, db)
  | .ok plan => atomically (resetDueTx cal env sub.id plan) db

/-- The loop of `ResetDueSubscriptions`, which stops at the first error. -/
def resetDueLoop (cal : Calendar) (env : ResetDueEnv) :
    List UserSubscription → Nat → DB → (Nat × Option Err) × DB
  | [], n, db => ((n, none), db)
  | sub :: rest, n, db =>
    match resetDueOne cal env sub db with
    | (.error e, db') => ((n, some e), db')
    | (.ok counted, db') => resetDueLoop cal env rest (if counted then n + 1 else n) db'

/-- The subscriptions the reset task picks up, the longest due first. -/
def DB.dueSubscriptions (db : DB) (now : Int) (limit : Int) : List UserSubscription :=
  ((db.userSubscriptions.rows.filter fun s => s.ResetDue now ∧ s.status = .active).insertionSort
    fun a b => a.nextResetTime ≤ b.nextResetTime).take (if limit ≤ 0 then 200 else limit.toNat)

/-- `ResetDueSubscriptions`. -/
def resetDueSubscriptions (cal : Calendar) (env : ResetDueEnv) (limit : Int) (db : DB) :
    (Nat × Option Err) × DB :=
  if env.queryOk = false then ((0, some .db), db)
  else resetDueLoop cal env (db.dueSubscriptions env.now limit) 0 db

/-! ### Resets by an administrator -/

/-- What an administrator's reset is answered. -/
structure AdminResetEnv where
  now : Int
  lookup : Int → Except Err SubscriptionPlan
  lockOk : Bool := true
  saveOk : Int → Bool := fun _ => true

/-- The subscription as `resetUserSubscriptionTx` leaves it. -/
def UserSubscription.restarted (sub : UserSubscription) (cal : Calendar) (plan : SubscriptionPlan)
    (now : Int) (advanceResetTime : Bool) : UserSubscription :=
  let nextReset := calcNextResetTime cal now plan sub.endTime
  if advanceResetTime then
    { sub with
      amountUsed := 0
      nextResetTime := nextReset
      lastResetTime := if 0 < nextReset then now else 0 }
  else { sub with amountUsed := 0 }

/-- `resetUserSubscriptionTx` over the subscriptions found. -/
def resetUserSubscriptionsTx (cal : Calendar) (env : AdminResetEnv) (plan : SubscriptionPlan)
    (advanceResetTime : Bool) : List UserSubscription → Tx DB Err Unit
  | [] => pure ()
  | sub :: rest => do
    require (env.saveOk sub.id = true) .db
    update fun db : DB =>
      db.saveSubscription (sub.restarted cal plan env.now advanceResetTime)
    resetUserSubscriptionsTx cal env plan advanceResetTime rest

/-- The transaction of an administrator's reset: `user` narrows it to one
user, and then it must find something.  The answer is how many it reset. -/
def adminResetTx (cal : Calendar) (env : AdminResetEnv) (user : Option Int) (planId : Int)
    (advanceResetTime : Bool) : Tx DB Err Nat := do
  let plan ← lift (getSubscriptionPlanByIdTx env.lookup planId)
  require (env.lockOk = true) .db
  let subs ← Tx.read fun db : DB => db.userSubscriptions.rows.filter fun s =>
    (user = none ∨ user = some s.userId) ∧ s.planId = plan.id ∧ s.status = .active ∧
      env.now < s.endTime
  require (user = none ∨ subs ≠ []) (.text "该用户没有有效的此套餐订阅")
  resetUserSubscriptionsTx cal env plan advanceResetTime subs
  pure subs.length

/-- `AdminResetUserSubscriptionsByPlan`. -/
def adminResetUserSubscriptionsByPlan (cal : Calendar) (env : AdminResetEnv)
    (userId planId : Int) (advanceResetTime : Bool) (db : DB) : Except Err Nat × DB :=
  if userId ≤ 0 ∨ planId ≤ 0 then (.error (.text "invalid userId or planId"), db)
  else atomically (adminResetTx cal env (some userId) planId advanceResetTime) db

/-- `AdminResetPlanSubscriptions`. -/
def adminResetPlanSubscriptions (cal : Calendar) (env : AdminResetEnv) (planId : Int)
    (advanceResetTime : Bool) (db : DB) : Except Err Nat × DB :=
  if planId ≤ 0 then (.error (.text "invalid planId"), db)
  else atomically (adminResetTx cal env none planId advanceResetTime) db

/-! ### What a reset does -/

/-- A reset writes the row back under its own id, with the used amount as it
was or at zero. -/
theorem maybeReset_eq_some {fuel : Nat} {sub sub' : UserSubscription}
    {now : Int} {written : Bool}
    (h : maybeReset cal fuel sub plan now = some (sub', written)) :
    sub'.id = sub.id ∧ sub'.amountTotal = sub.amountTotal ∧
      (sub'.amountUsed = sub.amountUsed ∨ sub'.amountUsed = 0) ∧ (written = false → sub' = sub) := by
  simp only [maybeReset] at h
  split at h
  · cases h
    exact ⟨rfl, rfl, Or.inl rfl, fun _ => rfl⟩
  split at h
  · cases h
    exact ⟨rfl, rfl, Or.inl rfl, fun _ => rfl⟩
  split at h
  · cases h
  · -- nothing was due: at most the schedule is filled in
    split at h
    · cases h
      exact ⟨rfl, rfl, Or.inl rfl, by simp⟩
    · cases h
      exact ⟨rfl, rfl, Or.inl rfl, fun _ => rfl⟩
  · cases h
    exact ⟨rfl, rfl, Or.inr rfl, by simp⟩

theorem ok_maybeResetTx_iff {fuel : Nat} {saveOk : Bool}
    {sub sub' : UserSubscription} {now : Int} {db db' : DB} :
    maybeResetUserSubscriptionWithPlanTx cal fuel saveOk sub plan now db = .ok (sub', db') ↔
      ∃ written, maybeReset cal fuel sub plan now = some (sub', written) ∧ (written = true → saveOk = true) ∧
        db' = if written then db.saveSubscription sub' else db := by
  simp only [maybeResetUserSubscriptionWithPlanTx, ok_fetch_bind_iff]
  constructor
  · rintro ⟨⟨s, written⟩, hr, h⟩
    cases written with
    | false =>
      obtain ⟨rfl, rfl⟩ := ok_pure_iff.mp h
      exact ⟨false, hr, by simp, rfl⟩
    | true =>
      simp only [if_true, ok_require_bind_iff, ok_update_bind_iff] at h
      obtain ⟨hok, rfl, rfl⟩ := h
      exact ⟨true, hr, fun _ => hok, rfl⟩
  · rintro ⟨written, hr, hok, rfl⟩
    refine ⟨(sub', written), hr, ?_⟩
    cases written with
    | false => exact ok_pure_iff.mpr ⟨rfl, rfl⟩
    | true =>
      simp only [if_true, ok_require_bind_iff, ok_update_bind_iff, ok_pure_iff]
      exact ⟨hok rfl, trivial, trivial⟩

end MicrossApi
