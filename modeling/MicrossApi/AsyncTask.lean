/-
MicrossApi/AsyncTask.lean

Asynchronous tasks (model/task.go, service/task_polling.go, service/task_billing.go,
`tryRealtimeFetch` of relay/relay_task.go).  A task is charged when it is
submitted; what its quota column says is what it has been charged.  Pollers, the
timeout sweep and realtime fetches load the task as a struct, change the struct
as the upstream answers, and write all columns back by a compare-and-swap of the
status.  The one that moves the task to its final status then refunds it or
settles the difference, in statements of their own: first the funding, then the
quota column.

What an answer makes of a struct is a pure function (`updateSunoTask`,
`updateVideoSingleTask`, `sweepTimedOutTask`, `tryRealtimeFetch`); its result says
what is written and what is billed.  The rest of a process is the same for all
four and is the thread `TaskProc`.
-/
import MicrossApi.Interleaving
import Mathlib.Algebra.Order.Group.Int

namespace MicrossApi

open StepSystem Interleaving

/-! ### Tasks -/

/-- `TaskStatus`; the upstream may send any text. -/
inductive TaskStatus where
  | notStart
  | submitted
  | queued
  | inProgress
  | failure
  | success
  | unknown
  | other (text : String)
deriving DecidableEq, Repr

/-- No process looks for a task of this status. -/
def TaskStatus.Final (s : TaskStatus) : Prop := s = .failure ∨ s = .success
deriving Decidable

/-- `Task`; `resultURL` and `perCallBilling` are of its private data. -/
structure Task where
  taskId : String := "task"
  status : TaskStatus := .notStart
  progress : String := "0%"
  failReason : String := ""
  submitTime : Int := 0
  startTime : Int := 0
  finishTime : Int := 0
  resultURL : String := ""
  data : List UInt8 := []
  quota : Int
  perCallBilling : Bool := false
deriving DecidableEq, Repr

/-- `taskSnapshot`. -/
structure TaskSnapshot where
  status : TaskStatus
  progress : String
  startTime : Int
  finishTime : Int
  failReason : String
  resultURL : String
  data : List UInt8
deriving DecidableEq, Repr

/-- `Snapshot`. -/
def Task.snapshot (t : Task) : TaskSnapshot where
  status := t.status
  progress := t.progress
  startTime := t.startTime
  finishTime := t.finishTime
  failReason := t.failReason
  resultURL := t.resultURL
  data := t.data

/-- `TaskRefundLegacyCutoff`: 2026-02-22 00:00:00 UTC. -/
def taskRefundLegacyCutoff : Int := 1771718400

/-- A task from before refunds on timeout. -/
def Task.IsLegacy (t : Task) : Prop := 0 < t.submitTime ∧ t.submitTime < taskRefundLegacyCutoff
deriving Decidable

/-- The settings that are read. -/
structure TaskConfig where
  taskTimeoutMinutes : Int := 1440
  serverAddress : String := ""

variable (cfg : TaskConfig)

/-- `BuildProxyURL`. -/
def TaskConfig.buildProxyURL (taskId : String) : String :=
  cfg.serverAddress ++ "/v1/videos/" ++ taskId ++ "/content"

/-! ### What an answer makes of a struct -/

/-- What is billed once the task is final. -/
inductive TaskBill where
  | none
  /-- `RefundTaskQuota` -/
  | refund
  /-- `RecalculateTaskQuota` with the actual quota -/
  | settle (actualQuota : Int)
deriving DecidableEq, Repr

/-- The struct after an answer, the status from which it is written (if it is),
whether it is billed only if that write wins, and what is billed. -/
structure TaskUpdate where
  task : Task
  write : Option TaskStatus := none
  guarded : Bool := true
  bill : TaskBill := .none
deriving DecidableEq, Repr

/-- `SunoDataResponse`. -/
structure SunoItem where
  status : TaskStatus
  failReason : String := ""
  submitTime : Int := 0
  startTime : Int := 0
  finishTime : Int := 0
  data : List UInt8 := []
deriving DecidableEq, Repr

/-- `taskNeedsUpdate`; the data are compared with their bytes sorted. -/
def taskNeedsUpdate (old : Task) (new : SunoItem) : Prop :=
  old.submitTime ≠ new.submitTime ∨ old.startTime ≠ new.startTime ∨
    old.finishTime ≠ new.finishTime ∨ old.status ≠ new.status ∨ old.failReason ≠ new.failReason ∨
    (old.status.Final ∧ old.progress ≠ "100%") ∨ old.data.mergeSort ≠ new.data.mergeSort
deriving Decidable

variable (task : Task)

/-- The body of the loop of `updateSunoTasks`. -/
def updateSunoTask (item : SunoItem) : TaskUpdate :=
  if taskNeedsUpdate task item then
    let status := if item.status ≠ .other "" then item.status else task.status
    let isFailure := item.failReason ≠ "" ∨ status = .failure
    { task := { task with
        status := if isFailure then .failure else status
        failReason := if item.failReason ≠ "" then item.failReason else task.failReason
        submitTime := if item.submitTime ≠ 0 then item.submitTime else task.submitTime
        startTime := if item.startTime ≠ 0 then item.startTime else task.startTime
        finishTime := if item.finishTime ≠ 0 then item.finishTime else task.finishTime
        progress := if isFailure ∨ item.status = .success then "100%" else task.progress
        data := item.data }
      write := some task.status
      bill := if isFailure ∧ task.status ≠ .failure then .refund else .none }
  else { task }

/-- `TaskInfo`, with what `AdjustBillingOnComplete` says of the answer and the
quota that `RecalculateTaskQuotaByTokens` works out (0 if it gives up). -/
structure TaskInfo where
  status : TaskStatus
  reason : String := ""
  url : String := ""
  progress : String := ""
  totalTokens : Int := 0
  adjustBillingOnComplete : Int := 0
  quotaByTokens : Int := 0
deriving DecidableEq, Repr

/-- `FailTaskInfo`. -/
def failTaskInfo (reason : String) : TaskInfo where
  status := .failure
  reason := reason

/-- What the body of an answer without a status is. -/
inductive ErrorBody where
  | notJson
  | openAI (code : String)
  | unrecognized
deriving DecidableEq, Repr

/-- An answer to a poll for a video: the parsed result, the redacted body, and
the error in the body. -/
structure VideoAnswer where
  info : TaskInfo
  data : List UInt8 := []
  error : ErrorBody := .notJson
deriving DecidableEq, Repr

/-- The result after errors have been looked at; `none` for a rate limit. -/
def VideoAnswer.taskResult (a : VideoAnswer) : Option TaskInfo :=
  if a.info.status = .other "" then
    match a.error with
    | .notJson => some a.info
    | .openAI code =>
      if code = "429" then none else some (failTaskInfo "upstream returned error")
    | .unrecognized => some (failTaskInfo "upstream returned unrecognized message")
  else some a.info

/-- `settleTaskBillingOnComplete`. -/
def settleTaskBillingOnComplete (info : TaskInfo) : TaskBill :=
  if task.perCallBilling then .none
  else if 0 < info.adjustBillingOnComplete then .settle info.adjustBillingOnComplete
  else if 0 < info.totalTokens then .settle info.quotaByTokens
  else .none

variable (now : Int)

/-- The `switch` of `updateVideoSingleTask`: the struct and what is billed, `none`
for a status it does not know. -/
def applyTaskResult (task : Task) (info : TaskInfo) : Option (Task × TaskBill) :=
  match info.status with
  | .submitted => some ({ task with progress := "10%" }, .none)
  | .queued => some ({ task with progress := "20%" }, .none)
  | .inProgress =>
    some ({ task with
      progress := "30%", startTime := if task.startTime = 0 then now else task.startTime }, .none)
  | .success =>
    some ({ task with
      progress := "100%"
      finishTime := if task.finishTime = 0 then now else task.finishTime
      resultURL :=
        if info.url.startsWith "data:" then cfg.buildProxyURL task.taskId
        else if info.url ≠ "" then info.url
        else cfg.buildProxyURL task.taskId }, settleTaskBillingOnComplete task info)
  | .failure =>
    some ({ task with
      progress := "100%"
      finishTime := if task.finishTime = 0 then now else task.finishTime
      failReason := info.reason }, .refund)
  | _ => none

/-- `updateVideoSingleTask`. -/
def updateVideoSingleTask (task : Task) (a : VideoAnswer) : TaskUpdate :=
  match a.taskResult with
  | none => { task := { task with data := a.data } }
  | some info =>
    let task' := { task with data := a.data, status := info.status }
    match applyTaskResult cfg now task' info with
    | none => { task := task' }
    | some (task', bill) =>
      -- a failure is always complete
      let progress := if info.status = .failure then "100%" else info.progress
      let task' := if progress ≠ "" then { task' with progress } else task'
      if task'.status.Final ∧ task.status ≠ task'.status then
        { task := task', write := some task.status, bill }
      else if task.snapshot ≠ task'.snapshot then
        { task := task', write := some task.status, guarded := false, bill }
      else { task := task', bill }

/-- The body of the loop of `sweepTimedOutTasks`. -/
def sweepTimedOutTask (task : Task) : TaskUpdate :=
  let task' := { task with status := .failure, progress := "100%", finishTime := now }
  if task.IsLegacy then
    { task := { task' with failReason := "任务超时（旧系统遗留任务，不进行退款，请联系管理员）", quota := 0 }
      write := some task.status }
  else
    { task := { task' with failReason := "任务超时（" ++ toString cfg.taskTimeoutMinutes ++ "分钟）" }
      write := some task.status
      bill := .refund }

/-- `tryRealtimeFetch`, from the parsed answer to the write. -/
def tryRealtimeFetch (info : TaskInfo) : TaskUpdate :=
  let status := if info.status ≠ .other "" then info.status else task.status
  let task' := { task with
    status
    progress := if info.progress ≠ "" then info.progress else task.progress
    resultURL :=
      if info.url.startsWith "data:" then task.resultURL
      else if info.url ≠ "" then info.url
      else if status = .success then cfg.buildProxyURL task.taskId
      else task.resultURL }
  { task := task', write := if task.snapshot ≠ task'.snapshot then some task.status else none }

/-! ### Processes -/

/-- The clock, the row, and the net amount that the funding was charged for the
task.  The rest is kept for the record: how often the task was refunded, how often
settled, whether its quota was cleared without a refund, and who made it final. -/
structure TaskStore where
  now : Int := 0
  row : Task
  charged : Int
  refunds : Nat := 0
  settlements : Nat := 0
  cleared : Bool := false
  winner : Option Nat := none
deriving DecidableEq, Repr

inductive TaskJob where
  | suno
  | video
  | sweep
  | realtime
deriving DecidableEq, Repr

/-- The struct of a poller may be given another answer in the same pass: a
response may name a task twice, and two rows may have the same upstream id. -/
inductive TaskProc where
  | load (job : TaskJob)
  | holding (job : TaskJob) (task : Task)
  /-- `UpdateWithStatus` from status `status` -/
  | writing (job : TaskJob) (update : TaskUpdate) (status : TaskStatus)
  /-- `taskAdjustFunding` by `delta`, after which the quota is `quota` -/
  | funding (job : TaskJob) (task : Task) (refund : Bool) (delta quota : Int)
  /-- `UpdateQuota` -/
  | marking (job : TaskJob) (task : Task)
  | ended
deriving DecidableEq

/-- The answer of the upstream. -/
inductive Upstream where
  | none
  | suno (item : SunoItem)
  | video (answer : VideoAnswer)
  | realtime (info : TaskInfo)
deriving DecidableEq, Repr

/-- What a step is answered: whether the statement succeeds, and by the upstream. -/
structure TaskAnswer where
  ok : Bool := true
  upstream : Upstream := .none
deriving DecidableEq, Repr

/-- `GetAllUnFinishSyncTasks`, `GetTimedOutUnfinishedTasks` or `GetByTaskId`
returns the task. -/
def TaskJob.Selects (s : TaskStore) : TaskJob → Prop
  | .suno | .video => s.row.progress ≠ "100%" ∧ ¬ s.row.status.Final
  | .sweep => 0 < cfg.taskTimeoutMinutes ∧ s.row.progress ≠ "100%" ∧ ¬ s.row.status.Final ∧
      s.row.submitTime < s.now - cfg.taskTimeoutMinutes * 60
  | .realtime => True

instance decidableSelects (cfg s) (job : TaskJob) : Decidable (job.Selects cfg s) := by
  unfold TaskJob.Selects
  split <;> infer_instance

/-- A poller goes on with its struct, the others are done with it. -/
def TaskJob.back : TaskJob → TaskProc
  | .suno => .holding .suno task
  | .video => .holding .video task
  | .sweep | .realtime => .ended

/-- The start of `RefundTaskQuota` or `RecalculateTaskQuota`, up to the funding. -/
def TaskJob.startBill (s : TaskStore) (job : TaskJob) (task : Task) : TaskBill → TaskStore × TaskProc
  | .none => (s, job.back task)
  | .refund =>
    (s, if task.quota = 0 then job.back task else .funding job task true (-task.quota) 0)
  | .settle actualQuota =>
    ({ s with settlements := s.settlements + 1 },
      if actualQuota ≤ 0 ∨ actualQuota = task.quota then job.back task
      else .funding job task false (actualQuota - task.quota) actualQuota)

/-- What a process makes of the struct it holds, if it is answered. -/
def TaskJob.update (task : Task) : TaskJob → Upstream → Option TaskUpdate
  | .suno, .suno item => some (updateSunoTask task item)
  | .video, .video answer => some (updateVideoSingleTask cfg now task answer)
  | .sweep, _ => some (sweepTimedOutTask cfg now task)
  | .realtime, .realtime info => some (tryRealtimeFetch cfg task info)
  | _, _ => none

/-- The next step of process `k`. -/
def TaskProc.next (k : Nat) (a : TaskAnswer) (s : TaskStore) : TaskProc → TaskStore × TaskProc
  | .load job => (s, if a.ok = true ∧ job.Selects cfg s then .holding job s.row else .ended)
  | .holding job task =>
    match job.update cfg s.now task a.upstream with
    | none => (s, .holding job task)
    | some update =>
      match update.write with
      | some status => (s, .writing job update status)
      | none => job.startBill s update.task update.bill
  | .writing job update status =>
    if a.ok = true ∧ s.row.status = status then
      job.startBill
        { s with
          row := update.task
          cleared := s.cleared || decide (job = .sweep ∧ update.task.IsLegacy)
          winner := if update.task.status.Final then some k else s.winner }
        update.task update.bill
    else if update.guarded then (s, job.back update.task)
    else job.startBill s update.task update.bill
  | .funding job task refund delta quota =>
    if a.ok then
      ({ s with charged := s.charged + delta, refunds := if refund then s.refunds + 1 else s.refunds },
        .marking job { task with quota })
    else (s, job.back task)
  | .marking job task =>
    (if a.ok then { s with row := { s.row with quota := task.quota } } else s, job.back task)
  | .ended => (s, .ended)

/-- Time passes, or `TaskBulkUpdateByID` fails the task: it has no upstream id, or
its channel is missing, which gives a reason. -/
inductive TaskEvent where
  | tick (seconds : Nat)
  | bulkFailure (failReason : Option String)
deriving DecidableEq, Repr

/-- The processes that handle one task. -/
def taskProgram : Program TaskStore TaskProc TaskEvent TaskJob TaskAnswer where
  event s
    | .tick seconds => { s with now := s.now + seconds }
    | .bulkFailure failReason =>
      { s with row := { s.row with
        status := .failure, progress := "100%", failReason := failReason.getD s.row.failReason } }
  start s job := (s, .load job)
  next k a s t := t.next cfg k a s

end MicrossApi
