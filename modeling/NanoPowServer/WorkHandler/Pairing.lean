import NanoPowServer.WorkHandler.Ledger

/-! Which job a request is answered with. The pool task of a request captures
its correlation id and its response handler, but takes whatever job is on top of
the queue. -/
namespace NanoPowServer.WorkHandler

open PriorityQueue Execution

variable {Queue : Type}

/-- The call has passed a result to the response handler. -/
def Call.hasWork (call : Call) : Prop :=
  ∃ response ∈ call.responses, (response.getOptional "work").isSome = true

instance (call : Call) : Decidable call.hasWork :=
  inferInstanceAs (Decidable (∃ response ∈ call.responses, _ = true))

@[simp] theorem Call.hasWork_goto (call : Call) (phase : Phase) :
    (call.goto phase).hasWork ↔ call.hasWork := Iff.rfl

@[simp] theorem Call.hasWork_answer (call : Call) (phase : Phase) (response : Ptree) :
    (call.answer phase response).hasWork ↔
      call.hasWork ∨ (response.getOptional "work").isSome = true := by
  simp [Call.hasWork, or_and_right, exists_or]

@[simp] theorem Call.hasWork_fail (call : Call) (phase : Phase) (what : String) :
    (call.fail phase what).hasWork ↔ call.hasWork := by
  simp [Call.fail]

/-- Every call that was answered with work has processed the job it pushed: the
same id, and with it the root hash and difficulty of its own request. -/
def AnswersOwnJob (c : System Queue) : Prop :=
  ∀ i call, c.calls[i]? = some call → call.hasWork →
    ∃ task, call.phase.task? = some task ∧ .accepted i task.own ∈ c.trace ∧
      task.job.ticket = task.own.ticket

variable [PriorityQueue Queue Job Job.comparator]

/-- The queue is empty, or this job is pending and ranks above all others. -/
def ownFirst (jobs : Queue) (own : Job) : Prop :=
  items jobs = 0 ∨ own ∈ items jobs ∧
    ∀ other ∈ items jobs, other ≠ own → Job.comparator other own = true

/-- A task takes its turn at the queue only while the job of its own request is
the first in line, or no job is pending. -/
def takesOwnJob (c : System Queue) : Action → Prop
  | .proceed i _ =>
      match (c.calls[i]?).map Call.phase with
      | some (.posted own) => ownFirst c.members.jobs own
      | _ => True
  | _ => True

instance (jobs : Queue) (own : Job) : Decidable (ownFirst jobs own) :=
  inferInstanceAs (Decidable (_ ∨ _))

instance (c : System Queue) (action : Action) : Decidable (takesOwnJob c action) := by
  unfold takesOwnJob
  split
  · split <;> infer_instance
  · infer_instance

/-- What is invariant of a call whose turns all meet the guard. -/
structure Paired (call : Call) : Prop where
  ticket : ∀ task, call.phase.task? = some task → task.job.ticket = task.own.ticket
  answered : call.hasWork → call.phase.task?.isSome = true

/-- At its turn the task takes its own job, and no later step exchanges it. -/
theorem paired_of_moves {env : Environment} {c : System Queue} {i now : Nat} {call next : Call}
    {members : Members Queue} {events : List Event} (h : Paired call)
    (allowed : takesOwnJob c (.proceed i now)) (found : c.calls[i]? = some call)
    (moves : Moves env c i now call members next events) : Paired next := by
  obtain ⟨hTicket, hAnswered⟩ := h
  cases moves with
  | @cancelled rootHash phase _ =>
      have hNone : (attachCorrelationId call.correlationId
          (Ptree.put "status" "cancelled" [])).getOptional "work" = none := by
        rw [getOptional_attachCorrelationId (by decide)]
        rfl
      rw [phase] at hAnswered
      constructor
      · simp [Phase.task?]
      · simpa [hNone, Phase.task?] using hAnswered
  | @popped own job phase _ hTop =>
      have hFirst : ownFirst c.members.jobs own := by simpa [takesOwnJob, found, phase] using allowed
      have hOwn : job = own := by
        rcases hFirst with hEmpty | ⟨hMem, hAbove⟩
        · rw [(top_eq_none_iff _).mpr hEmpty] at hTop
          simp at hTop
        · rw [top_eq_of_highest hMem hAbove] at hTop
          exact (Option.some.inj hTop).symm
      constructor
      · intro task hTask
        obtain rfl : (⟨own, job⟩ : Task) = task := by simpa [Phase.task?] using hTask
        rw [hOwn]
      · simp [Phase.task?]
  | notFound phase _ | admitted phase _ | rejected phase _ | posted phase | starved phase _ _ =>
      rw [phase] at hAnswered
      constructor
      · simp [Phase.task?]
      · simpa [Phase.task?] using hAnswered
  | busy phase _ _ | acquired phase _ _ | noDevice phase _ | inserted phase | answered phase
  | released phase _ | finished phase =>
      rw [phase] at hTicket
      constructor
      · intro task hTask
        have hBefore := hTicket _ rfl
        simp only [Call.goto_phase, Call.answer_phase, Call.fail_phase, Phase.task?,
          Option.some.injEq] at hTask
        rw [← hTask]
        exact hBefore
      · simp [Phase.task?]

/-- In a run in which every task takes its turn while its own job is first in
line, every work response answers the job of its own request. -/
theorem answers_own_job (env : Environment) {c : System Queue}
    (run : Reaches (System.step env) takesOwnJob (System.initial env) c) : AnswersOwnJob c := by
  have hPaired : ∀ call ∈ c.calls, Paired call := by
    apply calls_invariant run Paired
    · intro jobId body call _ hArrives
      cases hArrives <;> constructor <;> simp_all [Call.hasWork, Phase.task?]
    · intro c i now call members next events _ allowed found h moves
      exact paired_of_moves h allowed found moves
    · intro c i call task what _ _ h raises
      constructor
      · intro other hOther
        obtain rfl : task = other := by simpa [Phase.task?] using hOther
        apply h.ticket
        cases raises <;> simp [*, Phase.task?]
      · simp [Phase.task?]
  intro i call hCall hWork
  have h := hPaired call (List.mem_of_getElem? hCall)
  obtain ⟨task, hTask⟩ := Option.isSome_iff_exists.mp (h.answered hWork)
  refine ⟨task, hTask, accepted_of_own run i call hCall task.own ?_, h.ticket task hTask⟩
  cases hPhase : call.phase <;> simp_all [Phase.task?, Phase.own?]

/-- Request 1 without priority, request 2 with priority 1, and then the tasks
take their turns in the order in which they were posted. -/
def overtakingRun : List Action :=
  [.request generateOne, .proceed 0 0, .proceed 0 0, .request generateTwo, .proceed 1 0,
    .proceed 1 0, .proceed 0 0, .proceed 0 0, .proceed 0 0, .proceed 0 0]

/-- The task of request 1 answers it with the job of request 2. -/
theorem answers_other_job :
    ¬ ∀ (env : Environment) (c : System JobQueue), env.config.devices ≠ [] →
      Reaches (System.step env) anyAction (System.initial env) c → AnswersOwnJob c := by
  intro hAll
  have hOther : ∃ h : (sampleRun overtakingRun).isSome = true,
      (((sampleRun overtakingRun).get h).calls[0]?).any (fun call =>
        call.hasWork ∧ call.phase.task?.all fun task => task.job.ticket ≠ task.own.ticket) =
        true := ⟨by decide, by decide⟩
  obtain ⟨hEnabled, hFirst⟩ := hOther
  have hRun := reaches_get hEnabled (allAllowed_anyAction overtakingRun _)
  obtain ⟨call, hCall, hBoth⟩ := (Option.any_eq_true _ _).mp hFirst
  obtain ⟨hWork, hApart⟩ := of_decide_eq_true hBoth
  obtain ⟨task, hTask, -, hSame⟩ :=
    hAll sampleEnvironment _ (by decide) hRun 0 call hCall hWork
  simp [hTask, hSame] at hApart

/-- Request 1 is served before request 2 is made. -/
theorem answers_own_job_two :
    let actions : List Action :=
      [.request generateOne, .proceed 0 0, .proceed 0 0, .proceed 0 0, .proceed 0 0,
        .proceed 0 0, .proceed 0 0, .request generateTwo, .proceed 1 0]
    ∃ h : (sampleRun actions).isSome = true,
      (((sampleRun actions).get h).calls.map fun call => decide call.hasWork) = [true, false] ∧
      AnswersOwnJob ((sampleRun actions).get h) :=
  ⟨by decide, by decide,
    answers_own_job sampleEnvironment (reaches_get (by decide) (by decide))⟩

end NanoPowServer.WorkHandler
