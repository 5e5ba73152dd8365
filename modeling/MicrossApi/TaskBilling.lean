/-
MicrossApi/TaskBilling.lean

Who bills a task.  A compare-and-swap from a status that is not final is won at
most once with a final one, so that one process bills the task, as long as no
process writes from a final status: the struct that is written has to be open
itself when the answer arrives (`TaskProc.Open`).  Then the task is billed once,
and the quota column is what the funding was charged as soon as no billing is
under way (`Books`, `taskInv_go`).

The struct of a poller is not loaded anew between two answers of one pass.  The
second of two answers for one task is written from the final status that the
first has left in memory, and the compare-and-swap wins from there.
-/
import MicrossApi.AsyncTask

namespace MicrossApi

open StepSystem Interleaving

/-! ### What an answer makes of an open struct -/

variable {q : Int} {cfg : TaskConfig} {now : Int} {task : Task} {job : TaskJob} {u : TaskUpdate}
  {info : TaskInfo} {s s' : TaskStore} {t t' : TaskProc} {j k : Nat} {a : TaskAnswer}

/-- What is written and billed for a task that was charged `q`. -/
structure UpdateOk (q : Int) (job : TaskJob) (u : TaskUpdate) : Prop where
  from_open : ∀ status ∈ u.write, ¬ status.Final
  unwritten : u.write = none → u.bill = .none
  quota : u.task.quota = q ∨
    job = .sweep ∧ u.task.IsLegacy ∧ u.task.status = .failure ∧ u.task.quota = 0 ∧ u.bill = .none
  billed : u.bill = .none ∨ u.guarded = true ∧
    (u.task.status = .failure ∧ u.bill = .refund ∨ ∃ n, u.task.status = .success ∧ u.bill = .settle n)
  failed : u.task.status = .failure → job = .realtime ∨ u.bill = .refund ∨ u.task.quota = 0

theorem UpdateOk.final_or_quota (h : UpdateOk q job u) : u.task.status.Final ∨ u.task.quota = q := by
  rcases h.quota with hq | ⟨-, -, hs, -⟩
  · exact .inr hq
  · exact .inl (.inl hs)

/-- A struct that is open, or written unguarded, is not billed. -/
theorem UpdateOk.bill_eq_none (h : UpdateOk q job u)
    (hu : ¬ u.task.status.Final ∨ ¬ u.guarded = true) : u.bill = .none := by
  rcases h.billed with hnone | ⟨hguarded, hbill⟩
  · exact hnone
  rcases hu with hopen | hu
  · rcases hbill with ⟨hs, -⟩ | ⟨n, hs, -⟩
    · exact absurd (.inl hs) hopen
    · exact absurd (.inr hs) hopen
  · exact absurd hguarded hu

theorem UpdateOk.quota_of_bill (h : UpdateOk q job u) (hu : u.bill ≠ .none) : u.task.quota = q := by
  rcases h.quota with hq | ⟨-, -, -, -, hbill⟩
  · exact hq
  · exact absurd hbill hu

theorem settleTaskBillingOnComplete_cases (task : Task) (info : TaskInfo) :
    settleTaskBillingOnComplete task info = .none ∨
      ∃ n, settleTaskBillingOnComplete task info = .settle n := by
  unfold settleTaskBillingOnComplete
  split
  · exact .inl rfl
  split
  · exact .inr ⟨_, rfl⟩
  split
  · exact .inr ⟨_, rfl⟩
  · exact .inl rfl

theorem applyTaskResult_eq_some {task' : Task} {bill : TaskBill}
    (h : applyTaskResult cfg now task info = some (task', bill)) :
    task'.status = task.status ∧ task'.quota = task.quota ∧
      (bill = .none ∧ info.status ≠ .failure ∨ info.status = .failure ∧ bill = .refund ∨
        ∃ n, info.status = .success ∧ bill = .settle n) := by
  unfold applyTaskResult at h
  split at h
  next hs =>
    cases h
    exact ⟨rfl, rfl, .inl ⟨rfl, by simp [hs]⟩⟩
  next hs =>
    cases h
    exact ⟨rfl, rfl, .inl ⟨rfl, by simp [hs]⟩⟩
  next hs =>
    cases h
    exact ⟨rfl, rfl, .inl ⟨rfl, by simp [hs]⟩⟩
  next hs =>
    cases h
    refine ⟨rfl, rfl, ?_⟩
    rcases settleTaskBillingOnComplete_cases task info with hn | ⟨n, hn⟩
    · exact .inl ⟨hn, by simp [hs]⟩
    · exact .inr (.inr ⟨n, hs, hn⟩)
  next hs =>
    cases h
    exact ⟨rfl, rfl, .inr (.inl ⟨hs, rfl⟩)⟩
  · cases h

/-- Both final statuses are known. -/
theorem applyTaskResult_eq_none (h : applyTaskResult cfg now task info = none) :
    ¬ info.status.Final := by
  unfold applyTaskResult at h
  rintro (hs | hs) <;> rw [hs] at h <;> cases h

section Update

variable (hopen : ¬ task.status.Final) (hq : task.quota = q)
include hopen hq

theorem updateSunoTask_ok (item : SunoItem) : UpdateOk q .suno (updateSunoTask task item) := by
  have hne : task.status ≠ .failure := fun h => hopen (.inl h)
  dsimp only [updateSunoTask]
  split
  · by_cases hfail : item.failReason ≠ "" ∨
      (if item.status ≠ .other "" then item.status else task.status) = .failure
    · refine ⟨?_, nofun, .inl hq, .inr ⟨rfl, .inl ⟨if_pos hfail, if_pos ⟨hfail, hne⟩⟩⟩, fun _ => ?_⟩
      · rintro status ⟨⟩
        exact hopen
      · exact .inr (.inl (if_pos ⟨hfail, hne⟩))
    · refine ⟨?_, nofun, .inl hq, .inl (if_neg fun h => hfail h.1), fun h => ?_⟩
      · rintro status ⟨⟩
        exact hopen
      · refine absurd (.inr ?_) hfail
        rwa [if_neg hfail] at h
  · refine ⟨nofun, fun _ => rfl, .inl hq, .inl rfl, fun h => absurd h hne⟩

theorem updateVideoSingleTask_ok (answer : VideoAnswer) :
    UpdateOk q .video (updateVideoSingleTask cfg now task answer) := by
  unfold updateVideoSingleTask
  split
  · exact ⟨nofun, fun _ => rfl, .inl hq, .inl rfl, fun h => absurd (.inl h) hopen⟩
  rename_i info _
  dsimp only
  split
  next hres =>
    exact ⟨nofun, fun _ => rfl, .inl hq, .inl rfl,
      fun h => absurd (.inl h) (applyTaskResult_eq_none hres)⟩
  rename_i task₁ bill hres
  obtain ⟨hstatus, hquota, hbill⟩ := applyTaskResult_eq_some hres
  -- the progress does not matter
  generalize (if info.status = .failure then "100%" else info.progress) = progress
  obtain ⟨task₂, htask₂⟩ : ∃ task₂ : Task, task₂ =
      if progress ≠ "" then { task₁ with progress } else task₁ := ⟨_, rfl⟩
  have hstatus₂ : task₂.status = info.status := by
    rw [htask₂]
    split <;> exact hstatus
  have hquota₂ : task₂.quota = q := by
    rw [htask₂]
    split <;> exact hquota.trans hq
  rw [← htask₂]
  have hfrom : ∀ status ∈ some task.status, ¬ status.Final := by
    rintro status ⟨⟩
    exact hopen
  split
  · refine ⟨hfrom, nofun, .inl hquota₂, ?_, fun h => ?_⟩
    · rcases hbill with ⟨hbill, -⟩ | ⟨hs, hbill⟩ | ⟨n, hs, hbill⟩
      · exact .inl hbill
      · exact .inr ⟨rfl, .inl ⟨hstatus₂.trans hs, hbill⟩⟩
      · exact .inr ⟨rfl, .inr ⟨n, hstatus₂.trans hs, hbill⟩⟩
    · rcases hbill with ⟨-, hs⟩ | ⟨-, hbill⟩ | ⟨n, hs, -⟩
      · exact absurd (hstatus₂.symm.trans h) hs
      · exact .inr (.inl hbill)
      · rw [hstatus₂, hs] at h
        cases h
  · -- from an open status a final one is a change, so here it is open still
    rename_i hkept
    have hopen₂ : ¬ task₂.status.Final := fun hfinal =>
      hkept ⟨hfinal, fun heq => hopen (heq ▸ hfinal)⟩
    have hnone : bill = .none := by
      rcases hbill with ⟨hbill, -⟩ | ⟨hs, -⟩ | ⟨n, hs, -⟩
      · exact hbill
      · exact absurd (.inl (hstatus₂.trans hs)) hopen₂
      · exact absurd (.inr (hstatus₂.trans hs)) hopen₂
    split
    · exact ⟨hfrom, nofun, .inl hquota₂, .inl hnone, fun h => absurd (.inl h) hopen₂⟩
    · exact ⟨nofun, fun _ => hnone, .inl hquota₂, .inl hnone, fun h => absurd (.inl h) hopen₂⟩

theorem sweepTimedOutTask_ok : UpdateOk q .sweep (sweepTimedOutTask cfg now task) := by
  have hfrom : ∀ status ∈ some task.status, ¬ status.Final := by
    rintro status ⟨⟩
    exact hopen
  dsimp only [sweepTimedOutTask]
  split
  next hlegacy =>
    exact ⟨hfrom, nofun, .inr ⟨rfl, hlegacy, rfl, rfl, rfl⟩, .inl rfl, fun _ => .inr (.inr rfl)⟩
  · exact ⟨hfrom, nofun, .inl hq, .inr ⟨rfl, .inl ⟨rfl, rfl⟩⟩, fun _ => .inr (.inl rfl)⟩

theorem tryRealtimeFetch_ok (info : TaskInfo) : UpdateOk q .realtime (tryRealtimeFetch cfg task info) := by
  refine ⟨fun status hstatus => ?_, fun _ => rfl, .inl hq, .inl rfl, fun _ => .inl rfl⟩
  obtain ⟨-, hfrom⟩ := Option.ite_none_right_eq_some.mp hstatus
  cases hfrom
  exact hopen

theorem TaskJob.update_ok {upstream : Upstream}
    (h : job.update cfg now task upstream = some u) : UpdateOk q job u := by
  unfold TaskJob.update at h
  split at h
  · cases h
    exact updateSunoTask_ok hopen hq _
  · cases h
    exact updateVideoSingleTask_ok hopen hq _
  · cases h
    exact sweepTimedOutTask_ok hopen hq
  · cases h
    exact tryRealtimeFetch_ok hopen hq _
  · cases h

end Update

/-! ### One step of a process -/

/-- The process is in the middle of billing. -/
def TaskProc.InBilling : TaskProc → Prop
  | .funding .. | .marking .. => True
  | _ => False

instance decidableInBilling (t : TaskProc) : Decidable t.InBilling := by
  unfold TaskProc.InBilling
  split <;> infer_instance

/-- The struct that an answer is for is not final itself. -/
def TaskProc.Open : TaskProc → Prop
  | .holding _ task => ¬ task.status.Final
  | _ => True

instance decidableOpen (t : TaskProc) : Decidable t.Open := by
  unfold TaskProc.Open
  split <;> infer_instance

/-- What process `j` knows about a task that was charged `q`. -/
def TaskProc.Ok (q : Int) (s : TaskStore) (j : Nat) : TaskProc → Prop
  | .holding _ task => task.status.Final ∨ task.quota = q
  | .writing job u status => ¬ status.Final ∧ UpdateOk q job u
  | .funding _ task refund delta quota =>
    s.winner = some j ∧ task.status.Final ∧ s.charged = q ∧ s.refunds = 0 ∧ delta = quota - q ∧
      (refund = true → quota = 0 ∧ s.settlements = 0)
  | .marking _ task => s.winner = some j ∧ task.status.Final ∧ s.charged = task.quota
  | _ => True

/-- What the store says about a task that was charged `q`. -/
structure Books (q : Int) (s : TaskStore) : Prop where
  opened : ¬ s.row.status.Final → s.winner = none
  unbilled : s.winner = none →
    s.charged = q ∧ s.row.quota = q ∧ s.refunds = 0 ∧ s.settlements = 0
  once : s.refunds ≤ 1 ∧ (s.refunds = 0 ∨ s.settlements = 0)

/-- The steps of a process that holds an open struct, with statements that
succeed. -/
inductive TaskStep (q : Int) (k : Nat) (s : TaskStore) : TaskProc → TaskStore → TaskProc → Prop where
  | idle {t t' : TaskProc} (ht : ¬ t.InBilling) (ht' : ¬ t'.InBilling) (hok : t'.Ok q s k) :
      TaskStep q k s t s t'
  /-- an open struct is written -/
  | saved {job : TaskJob} {u : TaskUpdate} {c : Bool} (hrow : ¬ s.row.status.Final)
      (hopen : ¬ u.task.status.Final) (hq : u.task.quota = q) :
      TaskStep q k s (.writing job u s.row.status) { s with row := u.task, cleared := c }
        (job.back u.task)
  /-- a final struct is written, and nothing is billed -/
  | unbilled {job : TaskJob} {u : TaskUpdate} {n : Nat} {c : Bool} (hrow : ¬ s.row.status.Final)
      (hfinal : u.task.status.Final) (hq : c = true ∨ u.task.quota = q)
      (hfailed : u.task.status = .failure → job = .realtime ∨ u.task.quota = 0) :
      TaskStep q k s (.writing job u s.row.status)
        { s with row := u.task, cleared := c, winner := some k, settlements := s.settlements + n }
        (job.back u.task)
  /-- a final struct is written, and billing starts -/
  | billed {job : TaskJob} {u : TaskUpdate} {n : Nat} {c refund : Bool} {delta quota : Int}
      (hrow : ¬ s.row.status.Final) (hfinal : u.task.status.Final) (hdelta : delta = quota - q)
      (hrefund : refund = true → quota = 0 ∧ n = 0)
      (hsettle : refund = false → u.task.status = .success) :
      TaskStep q k s (.writing job u s.row.status)
        { s with row := u.task, cleared := c, winner := some k, settlements := s.settlements + n }
        (.funding job u.task refund delta quota)
  | funded (job : TaskJob) (task : Task) (refund : Bool) (delta quota : Int) :
      TaskStep q k s (.funding job task refund delta quota)
        { s with charged := s.charged + delta, refunds := if refund then s.refunds + 1 else s.refunds }
        (.marking job { task with quota })
  | marked (job : TaskJob) (task : Task) :
      TaskStep q k s (.marking job task) { s with row := { s.row with quota := task.quota } }
        (job.back task)

theorem TaskJob.back_idle (job : TaskJob) (task : Task) : ¬ (job.back task).InBilling := by
  cases job <;> exact not_false

theorem TaskJob.back_ok (job : TaskJob) (h : task.status.Final ∨ task.quota = q) :
    (job.back task).Ok q s k := by
  cases job <;> first | exact h | trivial

theorem TaskJob.startBill_step (hu : UpdateOk q job u)
    (hrow : ¬ s.row.status.Final) (hfinal : u.task.status.Final) :
    TaskStep q k s (.writing job u s.row.status) (job.startBill { s with
          row := u.task
          cleared := s.cleared || decide (job = .sweep ∧ u.task.IsLegacy)
          winner := some k } u.task u.bill).1
      (job.startBill
        { s with
          row := u.task
          cleared := s.cleared || decide (job = .sweep ∧ u.task.IsLegacy)
          winner := some k } u.task u.bill).2 := by
  -- a quota that is not the one charged is of a legacy task
  have hquota : (s.cleared || decide (job = .sweep ∧ u.task.IsLegacy)) = true ∨ u.task.quota = q := by
    rcases hu.quota with hq | ⟨hjob, hlegacy, -⟩
    · exact .inr hq
    · exact .inl (by simp [hjob, hlegacy])
  rcases hu.billed with hnone | ⟨-, ⟨hs, hrefund⟩ | ⟨n, hs, hsettle⟩⟩
  · rw [hnone]
    refine .unbilled (n := 0) hrow hfinal hquota fun h => ?_
    rcases hu.failed h with hjob | hbill | hzero
    · exact .inl hjob
    · rw [hnone] at hbill
      cases hbill
    · exact .inr hzero
  · rw [hrefund]
    dsimp only [TaskJob.startBill]
    split
    next hzero =>
      exact .unbilled (n := 0) hrow hfinal hquota fun _ => .inr hzero
    have hq := hu.quota_of_bill (by simp [hrefund])
    refine .billed (n := 0) hrow hfinal ?_ (fun _ => ⟨rfl, rfl⟩) nofun
    omega
  · have hq := hu.quota_of_bill (by simp [hsettle])
    have hne : u.task.status ≠ .failure := by
      rw [hs]
      nofun
    rw [hsettle]
    dsimp only [TaskJob.startBill]
    split
    · exact .unbilled (n := 1) hrow hfinal hquota fun h => absurd h hne
    · exact .billed (n := 1) hrow hfinal (by rw [hq]) nofun fun _ => hs

theorem TaskProc.next_step (ha : a.ok = true) (hopen : t.Open) (hok : t.Ok q s k)
    (hbooks : Books q s) : TaskStep q k s t (t.next cfg k a s).1 (t.next cfg k a s).2 := by
  cases t with
  | load =>
    dsimp only [TaskProc.next]
    refine .idle not_false ?_ ?_
    · split <;> exact not_false
    · split
      · by_cases hfinal : s.row.status.Final
        · exact .inl hfinal
        · exact .inr (hbooks.unbilled (hbooks.opened hfinal)).2.1
      · trivial
  | holding job task =>
    have hq : task.quota = q := hok.resolve_left hopen
    dsimp only [TaskProc.next]
    split
    · exact .idle not_false not_false hok
    rename_i u hupdate
    have hu := TaskJob.update_ok hopen hq hupdate
    split
    next status hwrite =>
      exact .idle not_false not_false ⟨hu.from_open status hwrite, hu⟩
    rename_i hwrite
    rw [hu.unwritten hwrite]
    exact .idle not_false (job.back_idle _) (job.back_ok hu.final_or_quota)
  | writing job u =>
    obtain ⟨hfrom, hu⟩ := hok
    dsimp only [TaskProc.next]
    split
    next hwon =>
      obtain ⟨-, rfl⟩ := hwon
      by_cases hfinal : u.task.status.Final
      · rw [if_pos hfinal]
        exact TaskJob.startBill_step hu hfrom hfinal
      · rw [if_neg hfinal, hu.bill_eq_none (.inl hfinal)]
        exact .saved hfrom hfinal (hu.final_or_quota.resolve_left hfinal)
    · split
      · exact .idle not_false (job.back_idle _) (job.back_ok hu.final_or_quota)
      rename_i hguarded
      rw [hu.bill_eq_none (.inr hguarded)]
      exact .idle not_false (job.back_idle _) (job.back_ok hu.final_or_quota)
  | funding =>
    dsimp only [TaskProc.next]
    rw [if_pos ha]
    exact .funded ..
  | marking =>
    dsimp only [TaskProc.next]
    rw [if_pos ha]
    exact .marked ..
  | ended => exact .idle not_false not_false trivial

/-! ### Runs -/

/-- The books are right, and closed whenever no process is billing. -/
structure TaskInv (q : Int) (p : Pool TaskStore TaskProc) : Prop where
  threads : Holds (Books q) (fun s j t => t.Ok q s j) p
  closed : (∀ t ∈ p.threads, ¬ t.InBilling) →
    p.shared.cleared = true ∨ p.shared.charged = p.shared.row.quota

variable {p : Pool TaskStore TaskProc}

/-- A process that is not the winner knows nothing that a winner changes. -/
theorem TaskProc.Ok.of_not_winner (h : t.Ok q s j) (hne : s.winner ≠ some j) : t.Ok q s' j := by
  cases t with
  | funding | marking => exact absurd h.1 hne
  | _ => exact h

theorem TaskProc.Ok.of_winner (h : t.Ok q s j) (hs : s.winner = some k) (hj : j ≠ k) : t.Ok q s' j := by
  apply h.of_not_winner
  rw [hs]
  intro heq
  exact hj (Option.some.inj heq).symm

theorem TaskProc.Ok.of_winner_none (h : t.Ok q s j) (hs : s.winner = none) : t.Ok q s' j := by
  apply h.of_not_winner
  rw [hs]
  nofun

theorem TaskStep.books (h : TaskStep q k s t s' t') (hok : t.Ok q s k) (hbooks : Books q s) :
    Books q s' ∧ t'.Ok q s' k ∧ ∀ (j : Nat) (u : TaskProc), j ≠ k → u.Ok q s j → u.Ok q s' j := by
  cases h with
  | idle ht ht' hok' => exact ⟨hbooks, hok', fun _ _ _ hu => hu⟩
  | saved hrow hopen hq =>
    have hwinner := hbooks.opened hrow
    obtain ⟨hcharged, -, hrefunds, hsettlements⟩ := hbooks.unbilled hwinner
    refine ⟨⟨fun _ => hwinner, fun _ => ⟨hcharged, hq, hrefunds, hsettlements⟩, hbooks.once⟩, ?_, ?_⟩
    · exact TaskJob.back_ok _ (.inr hq)
    · exact fun j u _ hu => hu.of_winner_none hwinner
  | unbilled hrow hfinal =>
    have hwinner := hbooks.opened hrow
    obtain ⟨hcharged, -, hrefunds, hsettlements⟩ := hbooks.unbilled hwinner
    refine ⟨⟨fun h => absurd hfinal h, nofun, ⟨hbooks.once.1, .inl hrefunds⟩⟩, ?_, ?_⟩
    · exact TaskJob.back_ok _ (.inl hfinal)
    · exact fun j u _ hu => hu.of_winner_none hwinner
  | billed hrow hfinal hdelta hrefund =>
    have hwinner := hbooks.opened hrow
    obtain ⟨hcharged, -, hrefunds, hsettlements⟩ := hbooks.unbilled hwinner
    refine ⟨⟨fun h => absurd hfinal h, nofun, ⟨hbooks.once.1, .inl hrefunds⟩⟩, ?_, ?_⟩
    · refine ⟨rfl, hfinal, hcharged, hrefunds, hdelta, fun h => ⟨(hrefund h).1, ?_⟩⟩
      show s.settlements + _ = 0
      rw [(hrefund h).2, hsettlements]
    · exact fun j u _ hu => hu.of_winner_none hwinner
  | funded job task refund delta quota =>
    obtain ⟨hwinner, hfinal, hcharged, hrefunds, hdelta, hrefund⟩ := hok
    refine ⟨⟨hbooks.opened, fun h => absurd (hwinner.symm.trans h) nofun, ?_⟩, ⟨hwinner, hfinal, ?_⟩, ?_⟩
    · cases refund with
      | true =>
        refine ⟨?_, .inr (hrefund rfl).2⟩
        show s.refunds + 1 ≤ 1
        omega
      | false => exact ⟨hbooks.once.1, .inl hrefunds⟩
    · show s.charged + delta = quota
      omega
    · exact fun j u hj hu => hu.of_winner hwinner hj
  | marked =>
    obtain ⟨hwinner, hfinal, hcharged⟩ := hok
    refine ⟨⟨hbooks.opened, fun h => absurd (hwinner.symm.trans h) nofun, hbooks.once⟩, ?_, ?_⟩
    · exact TaskJob.back_ok _ (.inl hfinal)
    · exact fun j u hj hu => hu.of_winner hwinner hj

theorem TaskStep.closed (h : TaskStep q k s t s' t') (hok : t.Ok q s k) (hbooks : Books q s)
    (ht' : ¬ t'.InBilling) (hs : ¬ t.InBilling → s.cleared = true ∨ s.charged = s.row.quota) :
    s'.cleared = true ∨ s'.charged = s'.row.quota := by
  cases h with
  | idle ht => exact hs ht
  | saved hrow hopen hq =>
    obtain ⟨hcharged, -⟩ := hbooks.unbilled (hbooks.opened hrow)
    exact .inr (hcharged.trans hq.symm)
  | unbilled hrow hfinal hq =>
    obtain ⟨hcharged, -⟩ := hbooks.unbilled (hbooks.opened hrow)
    exact hq.imp_right fun hq => hcharged.trans hq.symm
  | billed | funded => exact absurd trivial ht'
  | marked => exact .inr hok.2.2

/-- The statement of the step succeeds. -/
def Succeeds (_ : Pool TaskStore TaskProc) : Op TaskEvent TaskJob TaskAnswer → Prop
  | .go _ a => a.ok = true
  | _ => True

instance decidableSucceeds (p op) : Decidable (Succeeds p op) := by
  unfold Succeeds
  split <;> infer_instance

/-- The process that goes on does not hold a struct that is final already. -/
def HoldsOpen (p : Pool TaskStore TaskProc) : Op TaskEvent TaskJob TaskAnswer → Prop
  | .go k _ => ∀ t ∈ p.threads[k]?, t.Open
  | _ => True

instance decidableHoldsOpen (p op) : Decidable (HoldsOpen p op) := by
  unfold HoldsOpen
  split <;> infer_instance

theorem taskInv_event (h : TaskInv q p) (e : TaskEvent) :
    TaskInv q ((taskProgram cfg).step p (.event e)) := by
  cases e with
  | tick =>
    have hbooks := h.threads.shared
    refine ⟨h.threads.event ⟨hbooks.opened, hbooks.unbilled, hbooks.once⟩ fun j t ht => ?_, h.closed⟩
    cases t with
    | _ => exact ht
  | bulkFailure =>
    have hbooks := h.threads.shared
    refine ⟨h.threads.event ⟨fun hopen => absurd (.inl rfl) hopen, hbooks.unbilled, hbooks.once⟩
      fun j t ht => ?_, h.closed⟩
    cases t with
    | _ => exact ht

theorem taskInv_start (h : TaskInv q p) (job : TaskJob) :
    TaskInv q ((taskProgram cfg).step p (.start job)) := by
  refine ⟨h.threads.start h.threads.shared (fun _ _ ht => ht) trivial, fun hidle => h.closed ?_⟩
  intro t ht
  exact hidle t (List.mem_append_left _ ht)

theorem taskInv_go (h : TaskInv q p) (ha : a.ok = true) (hopen : HoldsOpen p (.go k a)) :
    TaskInv q ((taskProgram cfg).step p (.go k a)) := by
  rcases hk : p.threads[k]? with - | t
  · rw [step_go_none a hk]
    exact h
  have hok := h.threads.thread k t hk
  have hstep : TaskStep q k p.shared t (t.next cfg k a p.shared).1 (t.next cfg k a p.shared).2 :=
    TaskProc.next_step ha (hopen t hk) hok h.threads.shared
  refine ⟨h.threads.go fun u hu => ?_, ?_⟩
  · obtain rfl : t = u := Option.mem_unique hk hu
    exact hstep.books hok h.threads.shared
  · rw [step_go a hk]
    intro hidle
    obtain ⟨ht', hbefore⟩ := forall_mem_of_set hk hidle
    exact hstep.closed hok h.threads.shared ht' fun ht => h.closed (hbefore ht)

theorem taskInv_init {row : Task} :
    TaskInv row.quota { shared := { now, row, charged := row.quota } } :=
  ⟨⟨⟨fun _ => rfl, fun _ => ⟨rfl, rfl, rfl, rfl⟩, ⟨Nat.zero_le _, .inl rfl⟩⟩, by simp⟩,
    fun _ => .inr rfl⟩

/-- **A task is billed once.**  It is refunded at most once and not if it was
settled, and when no process is billing, the quota column is what was charged,
unless it was cleared as a legacy task. -/
theorem task_billed_once (cfg : TaskConfig) (row : Task) (now : Int)
    (ops : List (Op TaskEvent TaskJob TaskAnswer))
    (hok : Along (taskProgram cfg).step Succeeds { shared := { now, row, charged := row.quota } } ops)
    (hopen : Along (taskProgram cfg).step HoldsOpen { shared := { now, row, charged := row.quota } } ops) :
    let p := exec (taskProgram cfg).step { shared := { now, row, charged := row.quota } } ops
    p.shared.refunds ≤ 1 ∧ ¬ (0 < p.shared.refunds ∧ 0 < p.shared.settlements) ∧
      ((∀ t ∈ p.threads, ¬ t.InBilling) → p.shared.cleared = false →
        p.shared.charged = p.shared.row.quota) := by
  have hinv : TaskInv row.quota
      (exec (taskProgram cfg).step { shared := { now, row, charged := row.quota } } ops) := by
    refine exec_inv_along (fun p op hop hp => ?_) taskInv_init (hok.and hopen)
    cases op with
    | event e => exact taskInv_event hp e
    | start job => exact taskInv_start hp job
    | go => exact taskInv_go hp hop.1 hop.2
  refine ⟨hinv.threads.shared.once.1, ?_, fun hidle hcleared => ?_⟩
  · rintro ⟨hrefunds, hsettlements⟩
    rcases hinv.threads.shared.once.2 with h | h <;> omega
  · rcases hinv.closed hidle with h | h
    · rw [h] at hcleared
      cases hcleared
    · exact h

/-- A task of quota 100 that is in progress. -/
def runningTask : Task where
  status := .inProgress
  quota := 100

/-- Process `k` is answered, writes its struct and bills. -/
def answered (k : Nat) (upstream : Upstream) : List (Op TaskEvent TaskJob TaskAnswer) :=
  [.go k { upstream }, .go k {}, .go k {}, .go k {}]

/-- Two pollers have loaded the task. -/
def twoPollers : List (Op TaskEvent TaskJob TaskAnswer) :=
  [.start .suno, .start .suno, .go 0 {}, .go 1 {}]

/-- Both are told that it has failed; the second one is late. -/
def bothFail : List (Op TaskEvent TaskJob TaskAnswer) :=
  twoPollers ++ answered 0 (.suno { status := .failure })
    ++ [.go 1 { upstream := .suno { status := .failure } }, .go 1 {}]

theorem task_billed_once_by_two_pollers :
    let p := exec (taskProgram {}).step { shared := { now := 0, row := runningTask, charged := 100 } }
      bothFail
    p.shared.refunds ≤ 1 ∧ ¬ (0 < p.shared.refunds ∧ 0 < p.shared.settlements) ∧
      ((∀ t ∈ p.threads, ¬ t.InBilling) → p.shared.cleared = false →
        p.shared.charged = p.shared.row.quota) :=
  task_billed_once {} runningTask 0 bothFail (by decide +kernel) (by decide +kernel)

/-- The first poller is told that the task has failed and, in the same pass, that
it is in progress again.  Then the second is told that it has failed. -/
theorem task_refunded_twice :
    let ops := twoPollers ++ answered 0 (.suno { status := .failure })
      ++ [.go 0 { upstream := .suno { status := .inProgress } }, .go 0 {}]
      ++ answered 1 (.suno { status := .failure })
    let p := exec (taskProgram {}).step { shared := { now := 0, row := runningTask, charged := 100 } } ops
    Along (taskProgram {}).step Succeeds
        { shared := { now := 0, row := runningTask, charged := 100 } } ops ∧
      (∀ t ∈ p.threads, ¬ t.InBilling) ∧ p.shared.cleared = false ∧
      p.shared.refunds = 2 ∧ p.shared.charged = -100 ∧ p.shared.row.quota = 0 := by
  decide +kernel

/-! ### Failed tasks -/

/-- A realtime fetch is about to write that the task has failed, and wins. -/
def TaskProc.FailsUnbilled (s : TaskStore) : TaskProc → Prop
  | .writing .realtime u status => u.task.status = .failure ∧ s.row.status = status
  | _ => False

instance decidableFailsUnbilled : Decidable (t.FailsUnbilled s) := by
  unfold TaskProc.FailsUnbilled
  split <;> infer_instance

/-- No step makes the task fail without a refund: a bulk update finds it failed
already, and no realtime fetch wins with a failure. -/
def FailsBilled (p : Pool TaskStore TaskProc) : Op TaskEvent TaskJob TaskAnswer → Prop
  | .event (.bulkFailure _) => p.shared.row.status = .failure
  | .go k _ => ∀ t ∈ p.threads[k]?, ¬ t.FailsUnbilled p.shared
  | _ => True

instance decidableFailsBilled (p op) : Decidable (FailsBilled p op) := by
  unfold FailsBilled
  split <;> infer_instance

/-- A bill of a failed task is a refund. -/
def TaskProc.Refunds (s : TaskStore) : TaskProc → Prop
  | .funding _ _ refund _ _ => s.row.status = .failure → refund = true
  | .marking _ task => s.row.status = .failure → task.quota = 0
  | _ => True

/-- A failed task is refunded, or a process is about to. -/
structure FailInv (q : Int) (p : Pool TaskStore TaskProc) : Prop extends TaskInv q p where
  refunds : ∀ (j : Nat) (t : TaskProc), p.threads[j]? = some t → t.Refunds p.shared
  refunded : (∀ t ∈ p.threads, ¬ t.InBilling) → p.shared.row.status = .failure →
    p.shared.row.quota = 0

theorem TaskProc.refunds_of_idle (h : ¬ t.InBilling) : t.Refunds s := by
  cases t with
  | funding | marking => exact absurd trivial h
  | _ => trivial

theorem TaskProc.refunds_congr (h : t.Refunds s) (hs : s'.row.status = s.row.status) : t.Refunds s' := by
  cases t with
  | funding | marking => exact fun hfail => h (hs.symm.trans hfail)
  | _ => trivial

theorem TaskProc.Ok.idle (h : t.Ok q s j) (hs : s.winner = none) : ¬ t.InBilling := by
  have hne : s.winner ≠ some j := by
    rw [hs]
    nofun
  cases t with
  | funding | marking => exact absurd h.1 hne
  | _ => exact not_false

theorem TaskStep.refunds (h : TaskStep q k s t s' t') (hok : t.Ok q s k) (hbooks : Books q s)
    (ht : t.Refunds s) :
    t'.Refunds s' ∧ ∀ (j : Nat) (u : TaskProc), u.Ok q s j → u.Refunds s → u.Refunds s' := by
  cases h with
  | idle _ ht' => exact ⟨TaskProc.refunds_of_idle ht', fun _ _ _ hu => hu⟩
  | saved hrow | unbilled hrow =>
    refine ⟨TaskProc.refunds_of_idle (TaskJob.back_idle _ _), fun j u hu _ => ?_⟩
    exact TaskProc.refunds_of_idle (hu.idle (hbooks.opened hrow))
  | billed hrow hfinal hdelta hrefund hsettle =>
    refine ⟨fun hfail => ?_, fun j u hu _ => ?_⟩
    · by_contra hne
      rw [hsettle (Bool.eq_false_iff.mpr hne)] at hfail
      cases hfail
    · exact TaskProc.refunds_of_idle (hu.idle (hbooks.opened hrow))
  | funded =>
    obtain ⟨-, -, -, -, -, hrefund⟩ := hok
    exact ⟨fun hfail => (hrefund (ht hfail)).1, fun j u _ hu => TaskProc.refunds_congr hu rfl⟩
  | marked =>
    exact ⟨TaskProc.refunds_of_idle (TaskJob.back_idle _ _),
      fun j u _ hu => TaskProc.refunds_congr hu rfl⟩

theorem TaskStep.refunded (h : TaskStep q k s t s' t') (ht : t.Refunds s)
    (hbilled : ¬ t.FailsUnbilled s) (ht' : ¬ t'.InBilling)
    (hs : ¬ t.InBilling → s.row.status = .failure → s.row.quota = 0)
    (hfail : s'.row.status = .failure) : s'.row.quota = 0 := by
  cases h with
  | idle hidle => exact hs hidle hfail
  | saved hrow hopen => exact absurd (.inl hfail) hopen
  | unbilled hrow hfinal hq hfailed =>
    rcases hfailed hfail with rfl | hzero
    · exact absurd ⟨hfail, rfl⟩ hbilled
    · exact hzero
  | billed | funded => exact absurd trivial ht'
  | marked => exact ht hfail

theorem failInv_event (h : FailInv q p) {e : TaskEvent} (hbilled : FailsBilled p (.event e)) :
    FailInv q ((taskProgram cfg).step p (.event e)) := by
  refine ⟨taskInv_event h.toTaskInv e, fun j t ht => ?_, ?_⟩
  · refine TaskProc.refunds_congr (h.refunds j t ht) ?_
    cases e with
    | tick => rfl
    | bulkFailure => exact hbilled.symm
  · intro hidle hfail
    cases e with
    | tick => exact h.refunded hidle hfail
    | bulkFailure => exact h.refunded hidle hbilled

theorem failInv_start (h : FailInv q p) (job : TaskJob) :
    FailInv q ((taskProgram cfg).step p (.start job)) := by
  refine ⟨taskInv_start h.toTaskInv job, fun j t ht => ?_, fun hidle => h.refunded ?_⟩
  · rcases getElem?_concat_cases ht with ht | ⟨-, rfl⟩
    · exact h.refunds j t ht
    · trivial
  · exact fun t ht => hidle t (List.mem_append_left _ ht)

theorem failInv_go (h : FailInv q p) (ha : a.ok = true) (hopen : HoldsOpen p (.go k a))
    (hbilled : FailsBilled p (.go k a)) : FailInv q ((taskProgram cfg).step p (.go k a)) := by
  have hinv : TaskInv q ((taskProgram cfg).step p (.go k a)) := taskInv_go h.toTaskInv ha hopen
  rcases hk : p.threads[k]? with - | t
  · rw [step_go_none a hk]
    exact h
  have hok := h.threads.thread k t hk
  have hstep : TaskStep q k p.shared t (t.next cfg k a p.shared).1 (t.next cfg k a p.shared).2 :=
    TaskProc.next_step ha (hopen t hk) hok h.threads.shared
  obtain ⟨hself, hothers⟩ := hstep.refunds hok h.threads.shared (h.refunds k t hk)
  refine ⟨hinv, fun j u hu => ?_, ?_⟩
  · rw [step_go a hk] at hu ⊢
    rcases getElem?_set_cases hu with ⟨-, rfl⟩ | ⟨-, hu⟩
    · exact hself
    · exact hothers j u (h.threads.thread j u hu) (h.refunds j u hu)
  · rw [step_go a hk]
    intro hidle
    obtain ⟨ht', hbefore⟩ := forall_mem_of_set hk hidle
    exact hstep.refunded (h.refunds k t hk) (hbilled t hk) ht' fun ht => h.refunded (hbefore ht)

end MicrossApi
