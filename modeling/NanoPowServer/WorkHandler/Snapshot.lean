import NanoPowServer.WorkHandler.SharedData

/-! The queue report as a snapshot. The report copies the queue while it holds all
three mutexes and keeps the other two until it has answered, so what it reads later
is what there was when it copied the queue. -/
namespace NanoPowServer.WorkHandler

open PriorityQueue Execution Locking

variable {Queue : Type}

/-- These jobs are reported with these ids, in this order. -/
def Lists (reported : List JobReport) (jobIds : List UInt32) : Prop :=
  reported.map (fun job => job.fields.getOptional "id") =
    jobIds.map fun jobId => some (toString jobId.toNat)

theorem id_populateJson (env : Environment) (job : Job) :
    (populateJson env job).fields.getOptional "id" = some (toString job.jobId.toNat) := by
  simp only [populateJson]
  rw [Ptree.getOptional_put_of_ne (by decide), Ptree.getOptional_put_of_ne (by decide),
    Ptree.getOptional_put_of_ne (by decide), Ptree.getOptional_put]

theorem lists_populateJson (env : Environment) (jobs : List Job) :
    Lists (jobs.map (populateJson env)) (jobs.map Job.jobId) := by
  simp [Lists, id_populateJson]

theorem toString_jobId_injective :
    Function.Injective fun jobId : UInt32 => some (toString jobId.toNat) := by
  intro jobId other hSame
  have hDigits := congrArg (fun text => Nat.ofDigitChars 10 text.toList 0) (Option.some.inj hSame)
  exact UInt32.toNat_inj.mp (by simpa using hDigits)

theorem Lists.append {first second : List JobReport} {ids others : List UInt32}
    (hFirst : Lists first ids) (hSecond : Lists second others) :
    Lists (first ++ second) (ids ++ others) := by
  unfold Lists at *
  rw [List.map_append, List.map_append, hFirst, hSecond]

/-- Reported ids are as distinct as the ids they stand for. -/
theorem Lists.nodup {reported : List JobReport} {jobIds : List UInt32} (h : Lists reported jobIds)
    (hNodup : jobIds.Nodup) :
    (reported.map fun job => job.fields.getOptional "id").Nodup := by
  rw [h]
  exact hNodup.map toString_jobId_injective

/-- The steps of a report between its locks, and what then remains of its program. -/
theorem act_of_suffix {effect : Effect} {rest : Program}
    (h : .act effect :: rest <:+ reportProgram) :
    (effect = .copyJobs ∧ rest = [.unlock .jobs, .act .listQueued, .act .listActive,
      .act .listCompleted, .act .respond, .unlock .completed, .unlock .active]) ∨
    (effect = .listQueued ∧ rest = [.act .listActive, .act .listCompleted, .act .respond,
      .unlock .completed, .unlock .active]) ∨
    (effect = .listActive ∧ rest = [.act .listCompleted, .act .respond, .unlock .completed,
      .unlock .active]) ∨
    (effect = .listCompleted ∧ rest = [.act .respond, .unlock .completed, .unlock .active]) ∨
    (effect = .respond ∧ rest = [.unlock .completed, .unlock .active]) := by
  simpa [reportProgram, List.suffix_cons_iff] using h

/-- A report that has copied the queue takes no more mutexes. -/
theorem not_lock_of_suffix {instrs : Program} (h : instrs <:+ reportProgram)
    (copied : .act .copyJobs ∉ instrs) (mutex : Mutex) : .lock mutex ∉ instrs := by
  simp only [reportProgram, List.suffix_cons_iff, List.suffix_nil] at h
  rcases h with rfl | rfl | rfl | rfl | rfl | rfl | rfl | rfl | rfl | rfl | rfl | rfl <;>
    simp_all

variable [PriorityQueue Queue Job Job.comparator]

/-- The report is under way and past this effect. -/
def Past (s : Server Queue) (n : Nat) (effect : Effect) : Prop :=
  s.threads (.report n) ≠ [] ∧ .act effect ∉ s.threads (.report n)

/-- What is known of a report that has copied the queue in this state: what it has
read is what there was in that state, and what it has still to read is so as well,
since it holds the mutexes. -/
structure Reported (env : Environment) (s : Server Queue) (n : Nat) (c : System Queue) : Prop where
  copied : .act .copyJobs ∉ s.threads (.report n)
  jobsL : (s.shared.reports n).jobsL = some c.members.jobs
  queued : Past s n .listQueued → Lists (s.shared.reports n).queued c.pendingIds
  active : Past s n .listActive → Lists (s.shared.reports n).active (c.activeIds env)
  completed : Past s n .listCompleted → Lists (s.shared.reports n).completed c.completedIds
  response : ∀ response, (s.shared.reports n).response = some response →
    Lists response.queued c.pendingIds ∧ Lists response.active (c.activeIds env) ∧
      Lists response.completed c.completedIds
  activeIds : .unlock .active ∈ s.threads (.report n) →
    s.shared.system.activeIds env = c.activeIds env
  completedIds : .unlock .completed ∈ s.threads (.report n) →
    s.shared.system.completedIds = c.completedIds
  created : c.created.length ≤ s.shared.system.created.length

structure ReportInv (env : Environment) (s : Server Queue) (n : Nat) : Prop where
  waiting : (s.shared.reports n).snapshot = none → (s.shared.reports n).response = none ∧
    (s.threads (.report n) = [] ∨ .act .copyJobs ∈ s.threads (.report n))
  taken : ∀ c, (s.shared.reports n).snapshot = some c → Reported env s n c

section Report

variable {env : Environment} {s next : Server Queue} {n : Nat}

/-- Before the copy there is no snapshot. -/
theorem ReportInv.snapshot_eq_none (h : ReportInv env s n)
    (toCopy : .act .copyJobs ∈ s.threads (.report n)) :
    (s.shared.reports n).snapshot = none := by
  cases hTaken : (s.shared.reports n).snapshot with
  | none => rfl
  | some c => exact absurd toCopy (h.taken c hTaken).copied

/-- Past the copy there is one. -/
theorem ReportInv.exists_reported (h : ReportInv env s n) (underWay : s.threads (.report n) ≠ [])
    (copied : .act .copyJobs ∉ s.threads (.report n)) :
    ∃ c, (s.shared.reports n).snapshot = some c ∧ Reported env s n c := by
  cases hTaken : (s.shared.reports n).snapshot with
  | none =>
      rcases (h.waiting hTaken).2 with hNil | hMem
      · exact absurd hNil underWay
      · exact absurd hMem copied
  | some c => exact ⟨c, rfl, h.taken c hTaken⟩

/-- What others do is of no concern to the report as long as they leave alone what it
has locked. -/
theorem ReportInv.of_other (h : ReportInv env s n)
    (threads : next.threads (.report n) = s.threads (.report n))
    (reports : next.shared.reports n = s.shared.reports n)
    (created : s.shared.system.created.length ≤ next.shared.system.created.length)
    (activeIds : .act .copyJobs ∉ s.threads (.report n) →
      .unlock .active ∈ s.threads (.report n) →
        next.shared.system.activeIds env = s.shared.system.activeIds env)
    (completedIds : .act .copyJobs ∉ s.threads (.report n) →
      .unlock .completed ∈ s.threads (.report n) →
        next.shared.system.completedIds = s.shared.system.completedIds) : ReportInv env next n where
  waiting := by
    rw [reports, threads]
    exact h.waiting
  taken c hSnapshot := by
    rw [reports] at hSnapshot
    have hReported := h.taken c hSnapshot
    constructor
    case activeIds =>
      rw [threads]
      intro hHolds
      rw [activeIds hReported.copied hHolds, hReported.activeIds hHolds]
    case completedIds =>
      rw [threads]
      intro hHolds
      rw [completedIds hReported.copied hHolds, hReported.completedIds hHolds]
    case created => exact Nat.le_trans hReported.created created
    all_goals
      simp only [Past, threads, reports]
    · exact hReported.copied
    · exact hReported.jobsL
    · exact hReported.queued
    · exact hReported.active
    · exact hReported.completed
    · exact hReported.response

/-- Another thread starts an operation, or takes or gives back a mutex. -/
theorem ReportInv.of_same (h : ReportInv env s n)
    (threads : next.threads (.report n) = s.threads (.report n))
    (shared : next.shared = s.shared) : ReportInv env next n := by
  apply h.of_other threads <;> rw [shared]
  · intro _ _
    rfl
  · intro _ _
    rfl

/-- The report takes or gives back a mutex. -/
theorem ReportInv.of_mutex (h : ReportInv env s n) {instr : Instr Mutex Effect} {rest : Program}
    (hNext : s.threads (.report n) = instr :: rest) (hInstr : ∀ effect, instr ≠ .act effect)
    (threads : next.threads (.report n) = rest) (shared : next.shared = s.shared) :
    ReportInv env next n where
  waiting hNone := by
    rw [shared] at hNone ⊢
    obtain ⟨hResponse, hProgram⟩ := h.waiting hNone
    refine ⟨hResponse, .inr ?_⟩
    rw [threads]
    rw [hNext] at hProgram
    rcases hProgram with hNil | hMem
    · cases hNil
    · exact List.mem_of_ne_of_mem (hInstr .copyJobs).symm hMem
  taken c hSnapshot := by
    rw [shared] at hSnapshot
    have hReported := h.taken c hSnapshot
    have hPast : ∀ effect, Past next n effect → Past s n effect := by
      intro effect hPast
      unfold Past at hPast ⊢
      rw [threads] at hPast
      rw [hNext]
      refine ⟨List.cons_ne_nil _ _, fun hMem => hPast.2 ?_⟩
      exact List.mem_of_ne_of_mem (hInstr effect).symm hMem
    constructor
    case copied =>
      rw [threads]
      intro hMem
      exact hReported.copied (hNext ▸ List.mem_cons_of_mem _ hMem)
    case activeIds =>
      rw [threads, shared]
      intro hMem
      exact hReported.activeIds (hNext ▸ List.mem_cons_of_mem _ hMem)
    case completedIds =>
      rw [threads, shared]
      intro hMem
      exact hReported.completedIds (hNext ▸ List.mem_cons_of_mem _ hMem)
    all_goals rw [shared]
    · exact hReported.jobsL
    · exact fun h => hReported.queued (hPast _ h)
    · exact fun h => hReported.active (hPast _ h)
    · exact fun h => hReported.completed (hPast _ h)
    · exact hReported.response
    · exact hReported.created

/-- The report assigns to its local variables, after it has copied the queue. -/
theorem Reported.assign {c : System Queue} (h : Reported env s n c) {effect : Effect} {rest : Program}
    (hNext : s.threads (.report n) = .act effect :: rest) {after : Report Queue}
    (snapshot : after.snapshot = some c) (jobsL : after.jobsL = (s.shared.reports n).jobsL)
    (queued : .act .listQueued ∉ rest → Lists after.queued c.pendingIds)
    (active : .act .listActive ∉ rest → Lists after.active (c.activeIds env))
    (completed : .act .listCompleted ∉ rest → Lists after.completed c.completedIds)
    (response : ∀ response, after.response = some response →
      Lists response.queued c.pendingIds ∧ Lists response.active (c.activeIds env) ∧
        Lists response.completed c.completedIds) :
    ReportInv env ({ s with shared := s.shared.onReport n after }.goto (.report n) rest) n where
  waiting hAbsent := by simp [State.goto, snapshot] at hAbsent
  taken taken hSame := by
    obtain rfl : c = taken := by simpa [State.goto, snapshot] using hSame
    have hCopied := h.copied
    have hActive := h.activeIds
    have hCompleted := h.completedIds
    rw [hNext] at hCopied hActive hCompleted
    have hRest : ∀ earlier,
        Past ({ s with shared := s.shared.onReport n after }.goto (.report n) rest) n earlier →
          .act earlier ∉ rest := by
      intro earlier hPast
      simpa using hPast.2
    have hAfter : ({ s with shared := s.shared.onReport n after }.goto (.report n) rest).shared.reports
        n = after := Shared.onReport_self _ _ _
    constructor
    case copied =>
      rw [State.goto_self]
      exact fun hMem => hCopied (List.mem_cons_of_mem _ hMem)
    case activeIds =>
      rw [State.goto_self]
      exact fun hMem => hActive (List.mem_cons_of_mem _ hMem)
    case completedIds =>
      rw [State.goto_self]
      exact fun hMem => hCompleted (List.mem_cons_of_mem _ hMem)
    case created => exact h.created
    all_goals rw [hAfter]
    · rw [jobsL, h.jobsL]
    · exact fun hPast => queued (hRest _ hPast)
    · exact fun hPast => active (hRest _ hPast)
    · exact fun hPast => completed (hRest _ hPast)
    · exact response

/-- The report copies the queue, or reads on. -/
theorem ReportInv.of_effect (h : ReportInv env s n) (suffix : s.threads (.report n) <:+ reportProgram)
    {effect : Effect} {rest : Program} {shared : Shared Queue}
    (hNext : s.threads (.report n) = .act effect :: rest)
    (performs : performReport env s.shared n effect = some shared) :
    ReportInv env ({ s with shared }.goto (.report n) rest) n := by
  rw [hNext] at suffix
  have hUnderWay : s.threads (.report n) ≠ [] := by simp [hNext]
  have hPast : ∀ earlier, earlier ≠ effect → .act earlier ∉ rest → Past s n earlier := by
    intro earlier hOther hDone
    refine ⟨by simp [hNext], ?_⟩
    rw [hNext]
    exact fun hMem => hDone (List.mem_of_ne_of_mem (by simpa using hOther) hMem)
  rcases act_of_suffix suffix with ⟨rfl, rfl⟩ | ⟨rfl, rfl⟩ | ⟨rfl, rfl⟩ | ⟨rfl, rfl⟩ | ⟨rfl, rfl⟩
  · have hNone := h.snapshot_eq_none (by simp [hNext])
    cases performs
    refine ⟨fun hAbsent => ?_, fun c hTaken => ?_⟩
    · simp [State.goto] at hAbsent
    · obtain rfl : s.shared.system = c := by simpa [State.goto] using hTaken
      constructor <;> simp [Past, State.goto, (h.waiting hNone).1]
  · obtain ⟨c, hTaken, hReported⟩ := h.exists_reported hUnderWay (by simp [hNext])
    have hLoop := (queuedLoop_spec env _ c.members.jobs [] (Nat.le_refl _)).2
    simp only [performReport, hReported.jobsL, Option.map_some, Option.some.injEq] at performs
    subst performs
    refine hReported.assign hNext hTaken hReported.jobsL.symm (fun _ => ?_) (by simp) (by simp)
      hReported.response
    rw [hLoop]
    exact lists_populateJson env _
  · obtain ⟨c, hTaken, hReported⟩ := h.exists_reported hUnderWay (by simp [hNext])
    cases performs
    refine hReported.assign hNext hTaken rfl (fun _ => ?_) (fun _ => ?_) (by simp)
      hReported.response
    · exact hReported.queued (hPast _ (by simp) (by simp))
    · rw [← hReported.activeIds (by simp [hNext])]
      have hListed := lists_populateJson env
        (s.shared.system.members.activeJobs.map (taskJob env s.shared.system.calls))
      rw [List.map_map, List.map_map] at hListed
      exact hListed
  · obtain ⟨c, hTaken, hReported⟩ := h.exists_reported hUnderWay (by simp [hNext])
    cases performs
    refine hReported.assign hNext hTaken rfl (fun _ => ?_) (fun _ => ?_) (fun _ => ?_)
      hReported.response
    · exact hReported.queued (hPast _ (by simp) (by simp))
    · exact hReported.active (hPast _ (by simp) (by simp))
    · rw [← hReported.completedIds (by simp [hNext])]
      exact lists_populateJson env _
  · obtain ⟨c, hTaken, hReported⟩ := h.exists_reported hUnderWay (by simp [hNext])
    have hQueued := hReported.queued (hPast _ (by simp) (by simp))
    have hActive := hReported.active (hPast _ (by simp) (by simp))
    have hCompleted := hReported.completed (hPast _ (by simp) (by simp))
    cases performs
    refine hReported.assign hNext hTaken rfl (fun _ => hQueued) (fun _ => hActive)
      (fun _ => hCompleted) ?_
    rintro _ ⟨⟩
    exact ⟨hQueued, hActive, hCompleted⟩

/-- The report is left by an exception. -/
theorem ReportInv.of_throw (h : ReportInv env s n) (threads : next.threads (.report n) = [])
    (shared : next.shared = s.shared) : ReportInv env next n where
  waiting hNone := by
    rw [shared] at hNone ⊢
    exact ⟨(h.waiting hNone).1, .inl threads⟩
  taken c hSnapshot := by
    rw [shared] at hSnapshot
    have hReported := h.taken c hSnapshot
    have hOver : ∀ effect, ¬ Past next n effect := fun effect hPast => hPast.1 threads
    constructor
    case queued => exact fun hPast => absurd hPast (hOver _)
    case active => exact fun hPast => absurd hPast (hOver _)
    case completed => exact fun hPast => absurd hPast (hOver _)
    case jobsL =>
      rw [shared]
      exact hReported.jobsL
    case response =>
      rw [shared]
      exact hReported.response
    case created =>
      rw [shared]
      exact hReported.created
    all_goals simp [threads]

omit [PriorityQueue Queue Job Job.comparator] in
/-- Nobody else performs an effect that is guarded by a mutex the report will give
back. -/
theorem not_guards (ordered : Ordered guards s) (suffix : s.threads (.report n) <:+ reportProgram)
    (copied : .act .copyJobs ∉ s.threads (.report n)) {mutex : Mutex}
    (holds : .unlock mutex ∈ s.threads (.report n)) {k : Thread} (hOther : .report n ≠ k)
    {effect : Effect} {rest : Program} (hNext : s.threads k = .act effect :: rest) :
    mutex ∉ guards effect := by
  intro hGuarded
  have hMine := ordered.owner_of_unlock holds (not_lock_of_suffix suffix copied mutex)
  have hTheirs := ordered.owner_of_act hNext hGuarded
  exact hOther (Option.some.inj (hMine.symm.trans hTheirs))

/-- An effect of another thread. -/
theorem ReportInv.of_change (h : ReportInv env s n) (ordered : Ordered guards s)
    (suffix : s.threads (.report n) <:+ reportProgram) (hSet : ActiveSet s.shared.system)
    {k : Thread} (hOther : .report n ≠ k) {effect : Effect} {rest : Program}
    (hNext : s.threads k = .act effect :: rest) {shared : Shared Queue}
    (hChange : Change env raisesInactive s.shared (guards effect) k shared)
    (threads : next.threads (.report n) = s.threads (.report n)) (hShared : next.shared = shared) :
    ReportInv env next n := by
  subst hShared
  apply h.of_other threads (hChange.reports hOther) hChange.created_length_le
  · intro hCopied hHolds
    exact hChange.activeIds hSet (not_guards ordered suffix hCopied hHolds hOther hNext)
  · intro hCopied hHolds
    exact hChange.completedIds (not_guards ordered suffix hCopied hHolds hOther hNext)

theorem reportInv (run : Reaches (Server.step env) accountable (Server.initial env) s)
    (hFew : s.shared.system.created.length < 2 ^ 32) (n : Nat) : ReportInv env s n := by
  revert hFew
  refine run.invariant (fun s => s.shared.system.created.length < 2 ^ 32 → ReportInv env s n) ?_ ?_
  · intro _
    exact ⟨fun _ => ⟨rfl, .inl rfl⟩, fun c hSnapshot => by cases hSnapshot⟩
  · intro s action next prior ih allowed hStep hFew
    have hNew := prior.mono fun _ _ both => both.1
    have hOrdered := ordered prior
    have hSuffix := suffix_reportProgram prior n
    cases State.step_cases hStep with
    | @start k operation program idle begins =>
        by_cases hSame : .report n = k
        · subst hSame
          obtain ⟨rfl, hNone⟩ := eq_reportProgram_of_program begins
          refine ⟨fun _ => ⟨((ih hFew).waiting hNone).1, .inr ?_⟩, fun c hTaken => ?_⟩
          · simp [reportProgram]
          · simp [State.goto, hNone] at hTaken
        · exact (ih hFew).of_same (State.goto_of_ne s hSame _) rfl
    | @lock k mutex rest hNext free =>
        by_cases hSame : .report n = k
        · subst hSame
          exact (ih hFew).of_mutex hNext (by simp) (State.goto_self _ _ _) rfl
        · exact (ih hFew).of_same (State.goto_of_ne _ hSame _) rfl
    | @unlock k mutex rest hNext held =>
        by_cases hSame : .report n = k
        · subst hSame
          exact (ih hFew).of_mutex hNext (by simp) (State.goto_self _ _ _) rfl
        · exact (ih hFew).of_same (State.goto_of_ne _ hSame _) rfl
    | @act k effect rest shared hNext performs =>
        have hChange := (change_of_accountable hNew hNext).1 performs
        have hBefore := Nat.lt_of_le_of_lt hChange.created_length_le hFew
        by_cases hSame : .report n = k
        · subst hSame
          exact (ih hBefore).of_effect hSuffix hNext performs
        · exact (ih hBefore).of_change hOrdered hSuffix ((accounted prior).active hBefore) hSame
            hNext hChange (State.goto_of_ne _ hSame _) rfl
    | @throw k effect caught rest shared hNext catches =>
        have hChange := (change_of_accountable hNew hNext).2 _ allowed.2 catches
        have hBefore := Nat.lt_of_le_of_lt hChange.created_length_le hFew
        by_cases hSame : .report n = k
        · subst hSame
          refine (ih hBefore).of_throw (State.unwind_self _ _) ?_
          cases caught <;> cases catches
          rfl
        · exact (ih hBefore).of_change hOrdered hSuffix ((accounted prior).active hBefore) hSame
            hNext hChange (State.unwind_of_ne _ hSame) rfl

/-- A snapshot is taken of the present state, by the report. -/
theorem snapshot_of_step (run : Reaches (Server.step env) accountable (Server.initial env) s)
    {action : Locking.Action Thread Effect Operation} (allowed : throwsInactive s action)
    (hStep : Server.step env s action = some next) {c : System Queue}
    (hBefore : (s.shared.reports n).snapshot ≠ some c)
    (hAfter : (next.shared.reports n).snapshot = some c) :
    s.shared.system = c ∧ .act .copyJobs ∈ s.threads (.report n) := by
  have hNew := run.mono fun _ _ both => both.1
  cases State.step_cases hStep with
  | start _ _ | lock _ _ | unlock _ _ => exact absurd hAfter hBefore
  | @act k effect rest shared hNext performs =>
      by_cases hSame : .report n = k
      · subst hSame
        rcases act_of_suffix (hNext ▸ suffix_reportProgram run n) with
          ⟨rfl, -⟩ | ⟨rfl, -⟩ | ⟨rfl, -⟩ | ⟨rfl, -⟩ | ⟨rfl, -⟩
        · cases performs
          refine ⟨by simpa [State.goto] using hAfter, ?_⟩
          rw [hNext]
          exact List.mem_cons_self
        · obtain ⟨jobsL, -, rfl⟩ := Option.map_eq_some_iff.mp performs
          exact absurd (by simpa [State.goto] using hAfter) hBefore
        all_goals
          cases performs
          exact absurd (by simpa [State.goto] using hAfter) hBefore
      · have hChange := (change_of_accountable hNew hNext).1 performs
        exact absurd (hChange.reports hSame ▸ hAfter) hBefore
  | @throw k effect caught rest shared hNext catches =>
      by_cases hSame : .report n = k
      · subst hSame
        cases caught <;> cases catches
        exact absurd hAfter hBefore
      · have hChange := (change_of_accountable hNew hNext).2 _ allowed catches
        exact absurd (hChange.reports hSame ▸ hAfter) hBefore

end Report

/-- The report is a consistent snapshot: it lists exactly the ids that were pending, active
and completed in one state that the run went through while the report was being made, and
lists no id twice. -/
def Consistent (env : Environment) (actions : List (Locking.Action Thread Effect Operation))
    (n : Nat) (response : QueueReport) : Prop :=
  ∃ front back, ∃ instant : Server Queue, actions = front ++ back ∧
    runActions (Server.step env) (Server.initial env) front = some instant ∧
    instant.threads (.report n) ≠ [] ∧ (instant.shared.reports n).response = none ∧
    Lists response.queued instant.shared.system.pendingIds ∧
    Lists response.active (instant.shared.system.activeIds env) ∧
    Lists response.completed instant.shared.system.completedIds ∧
    ((response.queued ++ response.active ++ response.completed).map
      fun job => job.fields.getOptional "id").Nodup

/-- In every run of the threads in which fewer than 2^32 jobs are constructed, whatever is
pushed is a new job, and no task ends by an exception while its job is in the active set,
every report that was answered is a consistent snapshot. -/
theorem report_consistent (env : Environment)
    {actions : List (Locking.Action Thread Effect Operation)} {s : Server Queue}
    (hRun : runActions (Server.step env) (Server.initial env) actions = some s)
    (hNew : AllAllowed (Server.step env) pushesNew (Server.initial env : Server Queue) actions)
    (hThrows : AllAllowed (Server.step env) throwsInactive (Server.initial env : Server Queue)
      actions)
    (hFew : s.shared.system.created.length < 2 ^ 32) {n : Nat} {response : QueueReport}
    (hResponse : (s.shared.reports n).response = some response) :
    @Consistent Queue _ env actions n response := by
  have hBoth := hNew.and hThrows
  have hInv := reportInv (reaches_of_runActions actions hRun hBoth) hFew n
  obtain ⟨c, hTaken⟩ : ∃ c, (s.shared.reports n).snapshot = some c := by
    cases hSnapshot : (s.shared.reports n).snapshot with
    | none => simp [(hInv.waiting hSnapshot).1] at hResponse
    | some c => exact ⟨c, rfl⟩
  have hReported := hInv.taken c hTaken
  obtain ⟨front, action, back, instant, after, rfl, hFront, hStep, hBefore, hAfter⟩ :=
    exists_step_of_run (fun s => (s.shared.reports n).snapshot = some c) hRun
      (by simp [Server.initial, State.initial, Shared.initial]) hTaken
  have hReaches := reaches_of_runActions front hFront hBoth.of_append
  obtain ⟨rfl, hCopies⟩ := snapshot_of_step hReaches (hThrows.guard_of_append hFront) hStep
    hBefore hAfter
  have hEarlier := Nat.lt_of_le_of_lt hReported.created hFew
  have hWaiting := reportInv hReaches hEarlier n
  have hNone := hWaiting.snapshot_eq_none hCopies
  obtain ⟨hQueued, hActive, hCompleted⟩ := hReported.response response hResponse
  refine ⟨front, action :: back, instant, rfl, hFront, List.ne_nil_of_mem hCopies,
    (hWaiting.waiting hNone).1, hQueued, hActive, hCompleted, ?_⟩
  exact ((hQueued.append hActive).append hCompleted).nodup
    ((accounted hReaches).nodup_ids hEarlier)

/-- A thread starts an operation and takes its first steps. -/
def operate (k : Thread) (operation : Operation) (steps : Nat) :
    List (Locking.Action Thread Effect Operation) :=
  .start k operation :: List.replicate steps (.run k)

/-- The request of a call is accepted, and its task takes a job and tries the first device. -/
def tryDevice (i : Nat) (body : String) : List (Locking.Action Thread Effect Operation) :=
  [operate (.call i) (.request body) 1, operate (.call i) (.proceed 0) 3,
    operate (.call i) (.proceed 0) 1, operate (.call i) (.proceed 0) 3,
    operate (.call i) (.proceed 0) 1].flatten

/-- A first task fails before its job is in the active set. The job of a second one is
active, and another job is pending, when a report copies the queue. The pending job is
taken while the report reads on. -/
def reportRun : List (Locking.Action Thread Effect Operation) :=
  [tryDevice 0 generateOne, [.start (.call 0) (.proceed 0), .run (.call 0),
      .throw (.call 0) (.raise "logging failed")],
    tryDevice 1 generateOne, operate (.call 1) (.proceed 0) 1, operate (.call 1) (.proceed 0) 3,
    operate (.direct 0) (.pushNewJob { jobId := 0 }) 4, operate (.report 0) .report 5,
    operate (.direct 1) .popJob 3, List.replicate 6 (.run (.report 0))].flatten

theorem report_consistent_two :
    ∃ (s : Server JobQueue) (response : QueueReport),
      runActions (Server.step pairEnvironment) (Server.initial pairEnvironment) reportRun = some s ∧
      (s.shared.reports 0).response = some response ∧
      response.queued.length = 1 ∧ response.active.length = 1 ∧
      drain s.shared.system.members.jobs = [] ∧
      @Consistent JobQueue _ pairEnvironment reportRun 0 response := by
  have hNew : AllAllowed (Server.step pairEnvironment) pushesNew
      (Server.initial pairEnvironment : Server JobQueue) reportRun := by
    decide +kernel
  have hFacts : ∃ s ∈ runActions (Server.step pairEnvironment)
      (Server.initial pairEnvironment : Server JobQueue) reportRun,
      s.shared.system.created.length < 2 ^ 32 ∧ drain s.shared.system.members.jobs = [] ∧
      ∃ response ∈ (s.shared.reports 0).response,
        response.queued.length = 1 ∧ response.active.length = 1 := by
    decide +kernel
  have hThrows : AllAllowed (Server.step pairEnvironment) throwsInactive
      (Server.initial pairEnvironment : Server JobQueue) reportRun := by
    decide +kernel
  obtain ⟨s, hRun, hFew, hEmpty, response, hResponse, hQueued, hActive⟩ := hFacts
  exact ⟨s, response, hRun, hResponse, hQueued, hActive, hEmpty,
    report_consistent pairEnvironment hRun hNew hThrows hFew hResponse⟩

/-- The memory of a destroyed job holds a job with id 2. -/
def reusingEnvironment : Environment :=
  { sampleEnvironment with destroyedJob := fun _ _ => { jobId := 2 } }

/-- The response handler of the first task raises while its job is in the active set. Then
a second job is queued, and a report is made. -/
def destroyedRun : List (Locking.Action Thread Effect Operation) :=
  [tryDevice 0 generateOne, operate (.call 0) (.proceed 0) 3,
    [.start (.call 0) (.proceed 0), .throw (.call 0) (.raise "write error")],
    operate (.call 1) (.request generateTwo) 1, operate (.call 1) (.proceed 0) 3,
    operate (.report 0) .report 11].flatten

/-- The report lists the second job as queued, and as active what it reads in the place of
the first one. -/
theorem not_report_consistent :
    ¬ ∀ (env : Environment) (actions : List (Locking.Action Thread Effect Operation))
      (s : Server JobQueue),
      runActions (Server.step env) (Server.initial env) actions = some s →
      AllAllowed (Server.step env) pushesNew (Server.initial env : Server JobQueue) actions →
      s.shared.system.created.length < 2 ^ 32 → ∀ n response,
        (s.shared.reports n).response = some response →
        @Consistent JobQueue _ env actions n response := by
  intro hAll
  have hNew : AllAllowed (Server.step reusingEnvironment) pushesNew
      (Server.initial reusingEnvironment : Server JobQueue) destroyedRun := by
    decide +kernel
  have hFacts : ∃ s ∈ runActions (Server.step reusingEnvironment)
      (Server.initial reusingEnvironment : Server JobQueue) destroyedRun,
      s.shared.system.created.length < 2 ^ 32 ∧
      ∃ response ∈ (s.shared.reports 0).response,
        (response.queued ++ response.active ++ response.completed).map
          (fun job => job.fields.getOptional "id") = [some "2", some "2"] := by
    decide +kernel
  obtain ⟨s, hRun, hFew, response, hResponse, hIds⟩ := hFacts
  obtain ⟨_, _, _, -, -, -, -, -, -, -, hNodup⟩ :=
    hAll reusingEnvironment destroyedRun s hRun hNew hFew 0 response hResponse
  rw [hIds] at hNodup
  exact absurd hNodup (by decide)

end NanoPowServer.WorkHandler
