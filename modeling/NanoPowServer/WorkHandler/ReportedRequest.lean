import NanoPowServer.WorkHandler.Difficulty
import NanoPowServer.WorkHandler.Lifecycle
import NanoPowServer.WorkHandler.QueueReport

/-! What the queue report says about the request that a job was made for. The fields of
a job that come from its request never change on the way from the queue to the buffer
of completed jobs, so the report shows what was put into them at the beginning. -/
namespace NanoPowServer.WorkHandler

open Execution PriorityQueue

variable {Queue : Type}

def QueueReport.entries (report : QueueReport) : List JobReport :=
  report.queued ++ report.active ++ report.completed

/-- The entry shows the root hash of the request. -/
def ReportsHash (request : Ptree) (entry : JobReport) : Prop :=
  ∃ (text : String) (rootHash : U256), request.getOptional "hash" = some text ∧
    Bigint.ofHex text = .ok rootHash ∧ entry.request.getOptional "hash" = some rootHash.toHex

/-- The entry shows the multiplied base difficulty. -/
def ReportsDifficulty (env : Environment) (request : Ptree) (entry : JobReport) : Prop :=
  ∃ difficulty : U128, difficulty.number.toNat = multiplied env request ∧
    entry.request.getOptional "difficulty" = some difficulty.toHex

/-- The entry shows the multiplier of the request. -/
def ReportsMultiplier (env : Environment) (request : Ptree) (entry : JobReport) : Prop :=
  (entry.request.getOptional "multiplier").bind env.readDouble = some (multiplierOf env request)

/-- The entry describes the request: its root hash in every case, its multiplier and
difficulty if a positive multiplier asks for a 128-bit difficulty. -/
structure Describes (env : Environment) (request : Ptree) (entry : JobReport) : Prop where
  hash : ReportsHash request entry
  multiplied : 0 < multiplierOf env request → multiplied env request < 2 ^ 128 →
    ReportsMultiplier env request entry ∧ ReportsDifficulty env request entry

section Entry

variable {env : Environment} {request : Ptree} {jobId : UInt32} {job : Job}

/-- The request of a job as `work_generate` leaves it: the multiplier is not set. -/
theorem workGenerate_request (h : workGenerate env jobId request = .ok job) :
    (∃ text, request.getOptional "hash" = some text ∧
      Bigint.ofHex text = .ok job.request.rootHash) ∧ job.request.multiplier = 1 := by
  obtain ⟨text, hText, h⟩ := bind_eq_ok.mp h
  obtain ⟨rootHash, hHash, h⟩ := bind_eq_ok.mp h
  obtain ⟨difficulty, -, h⟩ := bind_eq_ok.mp h
  obtain rfl := Except.ok.inj h
  refine ⟨⟨text, ?_, hHash⟩, rfl⟩
  cases hField : request.getOptional "hash" <;> simp_all [required]

@[simp] theorem populateJson_hash (env : Environment) (job : Job) :
    (populateJson env job).request.getOptional "hash" = some job.request.rootHash.toHex := rfl

@[simp] theorem populateJson_difficulty (env : Environment) (job : Job) :
    (populateJson env job).request.getOptional "difficulty" =
      some job.request.difficulty.toHex := rfl

@[simp] theorem populateJson_multiplier (env : Environment) (job : Job) :
    (populateJson env job).request.getOptional "multiplier" =
      some (env.writeDouble job.request.multiplier) := rfl

/-- Whatever has become of the job, its entry shows the hash and the difficulty of the
request, and one as the multiplier. -/
theorem reports_of_workGenerate {own : Job} (h : workGenerate env jobId request = .ok own)
    (hTicket : own.ticket = job.ticket) :
    ReportsHash request (populateJson env job) ∧
      (0 < multiplierOf env request → multiplied env request < 2 ^ 128 →
        ReportsDifficulty env request (populateJson env job)) ∧
      (populateJson env job).request.getOptional "multiplier" = some (env.writeDouble 1) := by
  have hRequest : own.request = job.request := congrArg Job.Ticket.request hTicket
  obtain ⟨⟨text, hText, hHash⟩, hMultiplier⟩ := workGenerate_request h
  rw [hRequest] at hHash hMultiplier
  refine ⟨⟨text, _, hText, hHash, populateJson_hash env job⟩, fun hPositive hFits => ?_, ?_⟩
  · have hDifficulty := workGenerate_difficulty h
    have hAsked := (asRequested_iff hDifficulty).mpr fun _ => hFits
    rw [AsRequested, if_pos hPositive, hRequest] at hAsked
    exact ⟨_, hAsked, populateJson_difficulty env job⟩
  · rw [populateJson_multiplier, hMultiplier]

theorem describes_iff {own : Job} (hOne : env.readDouble (env.writeDouble 1) = some 1)
    (h : workGenerate env jobId request = .ok own) (hTicket : own.ticket = job.ticket) :
    Describes env request (populateJson env job) ↔
      (0 < multiplierOf env request → multiplied env request < 2 ^ 128 →
        multiplierOf env request = 1) := by
  obtain ⟨hHash, hDifficulty, hMultiplier⟩ := reports_of_workGenerate h hTicket
  have hReports : ReportsMultiplier env request (populateJson env job) ↔
      multiplierOf env request = 1 := by
    rw [ReportsMultiplier, hMultiplier, Option.bind_some, hOne, Option.some.injEq, eq_comm]
  constructor
  · intro hDescribes hPositive hFits
    exact hReports.mp (hDescribes.multiplied hPositive hFits).1
  · intro hSame
    refine ⟨hHash, fun hPositive hFits => ⟨?_, hDifficulty hPositive hFits⟩⟩
    exact hReports.mpr (hSame hPositive hFits)

end Entry

section Listed

variable [PriorityQueue Queue Job Job.comparator] {env : Environment} {c : System Queue}
  {guard : System Queue → Action → Prop}

/-- The jobs that a report lists. -/
def listedJobs (env : Environment) (members : Members Queue) (calls : List Call) : List Job :=
  drain members.jobs ++ members.activeJobs.map (taskJob env calls) ++ members.completedJobs

theorem entries_handleQueueRequest (env : Environment) (members : Members Queue)
    (calls : List Call) :
    (handleQueueRequest env members calls).2.entries =
      (listedJobs env members calls).map (populateJson env) := by
  rw [QueueReport.entries, queued_handleQueueRequest, listedJobs, List.map_append,
    List.map_append, List.map_map]
  rfl

/-- What stands anywhere was accepted. -/
theorem accepted_of_counted (run : Reaches (System.step env) guard (System.initial env) c)
    {ticket : Job.Ticket}
    (hSome : 0 < c.pending (isTicket ticket) + c.eventsOf Event.finished? (isTicket ticket)) :
    Accepted c ticket := by
  have hSum := conserved run (isTicket ticket)
  have hPos : 0 < c.eventsOf Event.accepted? (isTicket ticket) := by omega
  obtain ⟨event, hEvent, job, hJob, hTicket⟩ := (eventsOf_pos_iff c _ ticket).mp hPos
  cases event <;> simp only [Event.accepted?, Option.some.injEq, reduceCtorEq] at hJob
  case accepted i own =>
    subst hJob
    exact ⟨i, _, hEvent, hTicket⟩

theorem accepted_of_pending (run : Reaches (System.step env) guard (System.initial env) c)
    {job : Job} (hJob : job ∈ items c.members.jobs) : Accepted c job.ticket := by
  have hPending : 0 < c.pending (isTicket job.ticket) :=
    Multiset.countP_pos.mpr ⟨job, hJob, by simp⟩
  exact accepted_of_counted run (by omega)

theorem accepted_of_completed (run : Reaches (System.step env) guard (System.initial env) c)
    {job : Job} (hJob : job ∈ c.members.completedJobs) : Accepted c job.ticket := by
  rw [completedJobs_eq run, List.rtake] at hJob
  have hFinished : .finished job ∈ c.trace := by
    obtain ⟨event, hEvent, hKind⟩ :=
      List.mem_filterMap.mp (List.mem_reverse.mp (List.mem_of_mem_drop hJob))
    cases event <;> simp only [Event.finished?, Option.some.injEq, reduceCtorEq] at hKind
    exact hKind ▸ hEvent
  have hCounted : 0 < c.eventsOf Event.finished? (isTicket job.ticket) :=
    (eventsOf_pos_iff c _ _).mpr ⟨_, hFinished, job, rfl, rfl⟩
  exact accepted_of_counted run (by omega)

omit [PriorityQueue Queue Job Job.comparator] in
theorem Phase.task_of_active {phase : Phase} {job : Job} (h : phase.active? = some job) :
    ∃ task, phase.task? = some task ∧ task.job = job := by
  cases phase with
  | active task _ | answered task _ | released task => exact ⟨task, rfl, Option.some.inj h⟩
  | _ => cases h

/-- A task works on a job that was pending when it took its turn. -/
theorem accepted_of_task (run : Reaches (System.step env) guard (System.initial env) c) :
    ∀ (i : Nat) (call : Call), c.calls[i]? = some call →
      ∀ task, call.phase.task? = some task → Accepted c task.job.ticket := by
  apply history_invariant run fun trace i call => ∀ task, call.phase.task? = some task →
    ∃ j own, .accepted j own ∈ trace ∧ own.ticket = task.job.ticket
  · intro events trace i call h task hTask
    obtain ⟨j, own, hEvent, hTicket⟩ := h task hTask
    exact ⟨j, own, List.mem_append_right events hEvent, hTicket⟩
  · intro trace i jobId body call _ hArrives task hTask
    cases hArrives <;> simp [Phase.task?] at hTask
  · intro c i now call members next events prior _ _ h moves task hTask
    suffices Accepted c task.job.ticket by
      obtain ⟨j, own, hEvent, hTicket⟩ := this
      exact ⟨j, own, List.mem_append_right events hEvent, hTicket⟩
    cases moves with
    | popped phase _ hTop =>
        obtain rfl := Option.some.inj hTask
        exact accepted_of_pending prior (top_mem hTop)
    | cancelled phase _ | notFound phase _ | admitted phase _ | rejected phase _ | posted phase
    | starved phase _ _ => simp [Phase.task?] at hTask
    | busy phase _ _ | acquired phase _ _ | noDevice phase _ | inserted phase | answered phase
    | released phase _ | finished phase =>
        rw [phase] at h
        have hBefore := h _ rfl
        obtain rfl := Option.some.inj hTask
        exact hBefore
  · intro c i call task what _ _ h raises other hOther
    obtain rfl := Option.some.inj hOther
    cases raises <;> exact h task (by simp [*, Phase.task?])

theorem accepted_of_active (run : Reaches (System.step env) raisesInactive (System.initial env) c)
    {i : Nat} (hMem : i ∈ c.members.activeJobs) : Accepted c (taskJob env c.calls i).ticket := by
  obtain ⟨call, found, job, hActive⟩ := (Registered.of_reaches run).active i hMem
  rw [taskJob_of_active found hActive]
  obtain ⟨task, hTask, rfl⟩ := Phase.task_of_active hActive
  exact accepted_of_task run i call found task hTask

theorem accepted_of_listed (run : Reaches (System.step env) raisesInactive (System.initial env) c)
    {job : Job} (hJob : job ∈ listedJobs env c.members c.calls) : Accepted c job.ticket := by
  rcases List.mem_append.mp hJob with hWaiting | hCompleted
  · rcases List.mem_append.mp hWaiting with hQueued | hActive
    · exact accepted_of_pending run (mem_drain.mp hQueued)
    · obtain ⟨i, hMem, rfl⟩ := List.mem_map.mp hActive
      exact accepted_of_active run hMem
  · exact accepted_of_completed run hCompleted

/-- As long as no task has failed while its job was in the active set, every entry of a
report is about a job that was accepted. It shows the root hash of the request, and the
difficulty that a multiplier asks for, but it describes the request only if this
multiplier is one. -/
theorem report_describes
    (run : Reaches (System.step env) raisesInactive (System.initial env) c)
    (hOne : env.readDouble (env.writeDouble 1) = some 1) :
    (handleQueueRequest env c.members c.calls).2.entries =
        (listedJobs env c.members c.calls).map (populateJson env) ∧
      ∀ job ∈ listedJobs env c.members c.calls, Accepted c job.ticket ∧
        ∀ i own request, .accepted i own ∈ c.trace → own.ticket = job.ticket →
          RequestOf env c i request →
          ReportsHash request (populateJson env job) ∧
          (0 < multiplierOf env request → multiplied env request < 2 ^ 128 →
            ReportsDifficulty env request (populateJson env job)) ∧
          (Describes env request (populateJson env job) ↔
            (0 < multiplierOf env request → multiplied env request < 2 ^ 128 →
              multiplierOf env request = 1)) := by
  refine ⟨entries_handleQueueRequest env c.members c.calls, fun job hJob => ?_⟩
  refine ⟨accepted_of_listed run hJob, fun i own request hEvent hTicket hRequest => ?_⟩
  obtain ⟨read, jobId, hRead, hMade⟩ := made_of_accepted run hEvent
  obtain rfl := hRequest.unique hRead
  obtain ⟨hHash, hDifficulty, -⟩ := reports_of_workGenerate hMade hTicket
  exact ⟨hHash, hDifficulty, describes_iff hOne hMade hTicket⟩

end Listed

/-- A request for twice the base difficulty. -/
def doubledRequest : Ptree := [("action", "work_generate"), ("hash", "1"), ("multiplier", "2")]

/-- Doubles are written as the shortest text that reads back. -/
def reportingEnvironment : Environment :=
  { sampleEnvironment with
    readJson := fun _ => .ok doubledRequest
    readDouble := fun text => if text = "1" then some 1 else if text = "2" then some 2 else none
    writeDouble := fun value => if value = 2 then "2" else "1" }

theorem readDouble_writeDouble_one :
    reportingEnvironment.readDouble (reportingEnvironment.writeDouble 1) = some 1 := by
  have hText : reportingEnvironment.writeDouble 1 = "1" := by
    simp [reportingEnvironment]
  rw [hText]
  simp [reportingEnvironment]

/-- The run that queues the request. -/
theorem reports_sample :
    ∃ (c : System JobQueue) (job : Job),
      Reaches (System.step reportingEnvironment) raisesInactive
        (System.initial reportingEnvironment) c ∧
      job ∈ listedJobs reportingEnvironment c.members c.calls ∧ job.request.multiplier = 1 ∧
      .accepted 0 job ∈ c.trace ∧ RequestOf reportingEnvironment c 0 doubledRequest := by
  have hAllowed : ∀ action ∈ [Action.request "", .proceed 0 0],
      ∀ c : System JobQueue, raisesInactive c action := by
    intro action hAction c
    cases action with
    | raise i what => simp at hAction
    | _ => trivial
  refine ⟨_, _, reaches_of_runActions [.request "", .proceed 0 0] rfl (.of_forall hAllowed),
    ?_, rfl, List.mem_cons_self, _, rfl, rfl⟩
  have hQueued : ∀ job : Job, job ∈ items (push (empty : JobQueue) job) := by simp
  exact List.mem_append_left _ (List.mem_append_left _ (mem_drain.mpr (hQueued _)))

theorem multiplierOf_doubled : multiplierOf reportingEnvironment doubledRequest = 2 := by
  change (Option.bind (some "2") reportingEnvironment.readDouble).getD 0 = 2
  simp [reportingEnvironment]

theorem multiplied_doubled : multiplied reportingEnvironment doubledRequest = 2 ^ 62 := by
  have hBase : reportingEnvironment.config.work.baseDifficulty.number.toNat = 2 ^ 61 := by
    change ({} : Config.Work).baseDifficulty.number.toNat = 2 ^ 61
    decide
  rw [multiplied, hBase, multiplierOf_doubled]
  norm_num

/-- The report of this run shows the hash and the difficulty of the request, and not its
multiplier. -/
theorem report_describes_doubled :
    ∃ (c : System JobQueue) (job : Job), job ∈ listedJobs reportingEnvironment c.members c.calls ∧
      ReportsHash doubledRequest (populateJson reportingEnvironment job) ∧
      ReportsDifficulty reportingEnvironment doubledRequest
        (populateJson reportingEnvironment job) ∧
      ¬ Describes reportingEnvironment doubledRequest (populateJson reportingEnvironment job) := by
  obtain ⟨c, job, run, hListed, -, hEvent, hRequest⟩ := reports_sample
  obtain ⟨hHash, hDifficulty, hDescribes⟩ :=
    ((report_describes run readDouble_writeDouble_one).2 job hListed).2 0 job doubledRequest hEvent
      rfl hRequest
  have hPositive : 0 < multiplierOf reportingEnvironment doubledRequest := by
    rw [multiplierOf_doubled]
    norm_num
  have hFits : multiplied reportingEnvironment doubledRequest < 2 ^ 128 := by
    rw [multiplied_doubled]
    norm_num
  refine ⟨c, job, hListed, hHash, hDifficulty hPositive hFits, fun hShown => ?_⟩
  have hOne := hDescribes.mp hShown hPositive hFits
  rw [multiplierOf_doubled] at hOne
  norm_num at hOne

/-- It shows one as the multiplier, where the request says two. -/
theorem not_report_describes :
    ¬ ∀ (env : Environment) (c : System JobQueue),
      Reaches (System.step env) anyAction (System.initial env) c →
      env.readDouble (env.writeDouble 1) = some 1 →
      ∀ entry ∈ (handleQueueRequest env c.members c.calls).2.entries,
        ∃ i own request, .accepted i own ∈ c.trace ∧ RequestOf env c i request ∧
          Describes env request entry := by
  intro hAll
  obtain ⟨c, job, run, hListed, hMultiplier, -⟩ := reports_sample
  obtain ⟨i, own, request, -, ⟨call, -, hJson⟩, hDescribes⟩ :=
    hAll _ c (run.mono fun _ _ _ => trivial) readDouble_writeDouble_one (populateJson _ job) (by
      rw [entries_handleQueueRequest]
      exact List.mem_map_of_mem hListed)
  obtain rfl : doubledRequest = request := Except.ok.inj hJson
  have hReports := (hDescribes.multiplied (by rw [multiplierOf_doubled]; norm_num)
    (by rw [multiplied_doubled]; norm_num)).1
  rw [ReportsMultiplier, populateJson_multiplier, hMultiplier, Option.bind_some,
    readDouble_writeDouble_one, multiplierOf_doubled] at hReports
  norm_num at hReports

end NanoPowServer.WorkHandler
