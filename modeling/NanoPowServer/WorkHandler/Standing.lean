import NanoPowServer.WorkHandler.Devices
import NanoPowServer.WorkHandler.Ledger

/-! Whether a request that nobody cancelled is answered with work. A cancel takes
jobs out of the queue and leaves the tasks that were posted for them, so the
number of jobs has to be compared with the number of requests that still stand
and wait, over whole runs. -/
namespace NanoPowServer.WorkHandler

open PriorityQueue Execution

variable {Queue : Type}

/-- The requests that stand, by their calls and the jobs they pushed: accepted,
and since then neither cancelled by a successful cancel of their own root hash
nor cleared. -/
def standing : List Event → List (Nat × Job)
  | [] => []
  | .accepted call job :: rest => (call, job) :: standing rest
  | .cancelled rootHash :: rest =>
      (standing rest).filter fun entry => hasHash rootHash entry.2 = false
  | .cleared :: _ => []
  | .constructed _ :: rest | .popped _ _ :: rest => standing rest
  | .removed _ :: rest | .finished _ :: rest => standing rest

/-- The task of this call has not taken its turn at the queue. -/
def waitingAt (calls : List Call) (i : Nat) : Bool :=
  (calls[i]?).any (·.phase.waiting?.isSome)

/-- The number of requests that stand and wait. -/
def System.live (c : System Queue) : Nat :=
  (standing c.trace).countP fun entry => waitingAt c.calls entry.1

/-- The number of those with another root hash. -/
def System.liveOthers (c : System Queue) (rootHash : U256) : Nat :=
  ((standing c.trace).filter fun entry => hasHash rootHash entry.2 = false).countP fun entry =>
    waitingAt c.calls entry.1

theorem standing_removedEvents (dropped : List Job) (trace : List Event) :
    standing (removedEvents dropped ++ trace) = standing trace := by
  induction dropped with
  | nil => rfl
  | cons job rest ih => exact ih

theorem accepted_of_standing {trace : List Event} {i : Nat} {job : Job}
    (h : (i, job) ∈ standing trace) : .accepted i job ∈ trace := by
  induction trace with
  | nil => simp [standing] at h
  | cons event rest ih =>
      cases event with
      | accepted call other =>
          rcases List.mem_cons.mp h with hSame | hRest
          · obtain ⟨rfl, rfl⟩ := Prod.mk.inj hSame
            exact List.mem_cons_self
          · exact List.mem_cons_of_mem _ (ih hRest)
      | cancelled rootHash => exact List.mem_cons_of_mem _ (ih (List.mem_filter.mp h).1)
      | cleared => simp [standing] at h
      | constructed _ | popped _ _ | removed _ | finished _ => exact List.mem_cons_of_mem _ (ih h)

theorem waitingAt_commit_ne (c : System Queue) {i j : Nat} (hne : i ≠ j) (members : Members Queue)
    (after : Call) (events : List Event) :
    waitingAt (c.commit i members after events).calls j = waitingAt c.calls j := by
  rw [waitingAt, System.getElem?_commit_ne _ _ _ hne, waitingAt]

theorem waitingAt_commit_self {c : System Queue} {i : Nat} {call : Call}
    (found : c.calls[i]? = some call) (members : Members Queue) (after : Call)
    (events : List Event) :
    waitingAt (c.commit i members after events).calls i = after.phase.waiting?.isSome := by
  rw [waitingAt, System.getElem?_commit_self _ _ _ (found ▸ rfl)]
  rfl

/-- Whom a step leaves waiting, if it does not end or start the wait of its own
call. -/
theorem waitingAt_commit {c : System Queue} {i : Nat} {call : Call}
    (found : c.calls[i]? = some call) (members : Members Queue) {after : Call}
    (events : List Event)
    (hPhase : after.phase.waiting?.isSome = call.phase.waiting?.isSome) :
    waitingAt (c.commit i members after events).calls = waitingAt c.calls := by
  funext j
  by_cases hSame : i = j
  · subst hSame
    rw [waitingAt_commit_self found, hPhase, waitingAt, found]
    rfl
  · exact waitingAt_commit_ne c hSame members after events

theorem live_of_same {c : System Queue} {i : Nat} {call : Call} (found : c.calls[i]? = some call)
    (members : Members Queue) {after : Call} (events : List Event)
    (hPhase : after.phase.waiting?.isSome = call.phase.waiting?.isSome)
    (hStanding : standing (events ++ c.trace) = standing c.trace) :
    (c.commit i members after events).live = c.live := by
  unfold System.live
  rw [waitingAt_commit found _ _ hPhase, System.commit_trace, hStanding]

/-- A successful cancel leaves the requests with other root hashes. -/
theorem live_of_cancelled {c : System Queue} {i : Nat} {call : Call}
    (found : c.calls[i]? = some call) (members : Members Queue) {after : Call} (rootHash : U256)
    (dropped : List Job)
    (hPhase : after.phase.waiting?.isSome = call.phase.waiting?.isSome) :
    (c.commit i members after (.cancelled rootHash :: removedEvents dropped)).live =
      c.liveOthers rootHash := by
  unfold System.live System.liveOthers
  rw [waitingAt_commit found _ _ hPhase, System.commit_trace, List.cons_append, standing,
    standing_removedEvents]

/-- A call that takes its turn takes its own entries out of the count. -/
theorem live_of_turn {c : System Queue} {i : Nat} {call : Call} (found : c.calls[i]? = some call)
    (hBefore : call.phase.waiting?.isSome = true) (members : Members Queue) (after : Call)
    (events : List Event) (hAfter : after.phase.waiting? = none)
    (hStanding : standing (events ++ c.trace) = standing c.trace) :
    (c.commit i members after events).live +
      (standing c.trace).countP (fun entry => entry.1 = i) = c.live := by
  unfold System.live
  rw [System.commit_trace, hStanding]
  apply List.countP_add_countP
  intro entry _
  by_cases hSame : i = entry.1
  · rw [← hSame, waitingAt_commit_self found, hAfter, waitingAt, found]
    simp [hBefore]
  · rw [waitingAt_commit_ne c hSame]
    simp [Ne.symm hSame]

/-- A call that has just been made has no task yet. -/
theorem waitingAt_arrive (c : System Queue) (env : Environment) (body : String) :
    waitingAt (c.arrive env body).calls = waitingAt c.calls := by
  have hArrives := arrives env c.jobIdDispenser body
  have hNew : (Call.handleRequestAsync env c.jobIdDispenser body).phase.waiting? = none := by
    generalize Call.handleRequestAsync env c.jobIdDispenser body = arrived at hArrives
    cases hArrives <;> rfl
  funext i
  rw [System.arrive_calls, waitingAt, List.getElem?_append]
  split
  · rfl
  · rename_i hBeyond
    rw [waitingAt, List.getElem?_eq_none_iff.mpr (Nat.le_of_not_lt hBeyond)]
    cases hIndex : i - c.calls.length with
    | zero => simp [hNew]
    | succ more => rfl

theorem standing_arrive (c : System Queue) (env : Environment) (body : String) :
    standing (c.arrive env body).trace = standing c.trace := by
  unfold System.arrive
  split <;> rfl

section

variable [PriorityQueue Queue Job Job.comparator]

/-- What a step may take from the requests that stand and wait. A cancel leaves
at least as many jobs with other root hashes as there are such requests with
other root hashes. The task of a request that no longer stands takes its turn
only if the queue is empty or holds more jobs than there are such requests. -/
def sparesOthers (c : System Queue) : Action → Prop
  | .proceed i _ =>
      match (c.calls[i]?).map Call.phase with
      | some (.cancelling rootHash) =>
          c.liveOthers rootHash ≤
            (items c.members.jobs).countP fun job => hasHash rootHash job = false
      | some (.posted own) =>
          (i, own) ∈ standing c.trace ∨ items c.members.jobs = 0 ∨
            c.live < (items c.members.jobs).card
      | _ => True
  | .raise _ _ => False
  | _ => True

instance (c : System Queue) (action : Action) : Decidable (sparesOthers c action) :=
  match action with
  | .proceed i _ => by
      dsimp only [sparesOthers]
      generalize (c.calls[i]?).map Call.phase = phase
      exact match phase with
        | some (.cancelling _) => inferInstanceAs (Decidable (_ ≤ _))
        | some (.posted _) => inferInstanceAs (Decidable (_ ∨ _))
        | none | some .returned | some (.escaped _) | some (.admitting _) | some (.pushed _)
        | some (.scanning _ _) | some (.acquired _ _) | some (.active _ _)
        | some (.answered _ _) | some (.released _) | some (.finished _) | some (.starved _)
        | some (.failed _) => isTrue trivial
  | .raise _ _ => isFalse id
  | .request _ | .clear => isTrue trivial

theorem noRaise_of_sparesOthers {c : System Queue} {action : Action} (h : sparesOthers c action) :
    noRaise c action := by
  cases action with
  | raise i what => exact h.elim
  | _ => trivial

/-- A request that has not been accepted does not stand. -/
theorem ne_of_standing {env : Environment} {guard : System Queue → Action → Prop}
    {c : System Queue} (run : Reaches (System.step env) guard (System.initial env) c) {i : Nat}
    {call : Call} (found : c.calls[i]? = some call) (hOwn : call.phase.own? = none)
    {entry : Nat × Job} (hEntry : entry ∈ standing c.trace) : i ≠ entry.1 := by
  rintro rfl
  obtain ⟨other, hOther, hPushed⟩ := own_of_accepted run (accepted_of_standing hEntry)
  obtain rfl := Option.some.inj (found.symm.trans hOther)
  rw [hOwn] at hPushed
  simp at hPushed

/-- A call that is admitted adds itself to the count. -/
theorem live_of_admitted_le {env : Environment} {guard : System Queue → Action → Prop}
    {c : System Queue} (run : Reaches (System.step env) guard (System.initial env) c) {i : Nat}
    {call : Call} {own : Job} (found : c.calls[i]? = some call)
    (phase : call.phase = .admitting own) (members : Members Queue) :
    (c.commit i members (call.goto (.pushed own)) [.accepted i own]).live ≤ c.live + 1 := by
  have hOthers : ∀ entry ∈ standing c.trace,
      waitingAt (c.calls.set i (call.goto (.pushed own))) entry.1 = true ↔
        waitingAt c.calls entry.1 = true := by
    intro entry hEntry
    have hne := ne_of_standing run found (by rw [phase]; rfl) hEntry
    exact iff_of_eq (congrArg (· = true) (waitingAt_commit_ne c hne members _ []))
  have hOne : ∀ b : Bool, (if b = true then 1 else 0) ≤ 1 := by decide
  unfold System.live
  rw [System.commit_trace, System.commit_calls, List.singleton_append, standing,
    List.countP_cons, List.countP_congr hOthers]
  exact Nat.add_le_add_left (hOne _) _

/-- A task that pops a job ends its own wait, or the queue holds a job more than
requests wait. -/
theorem live_of_popped_le {c : System Queue} {i : Nat} {call : Call} {own job : Job}
    (found : c.calls[i]? = some call) (phase : call.phase = .posted own)
    (hTop : top c.members.jobs = some job)
    (h : c.live ≤ (items c.members.jobs).card)
    (hSpares : (i, own) ∈ standing c.trace ∨ items c.members.jobs = 0 ∨
      c.live < (items c.members.jobs).card) (members : Members Queue) :
    (c.commit i members (call.goto (.scanning ⟨own, job⟩ 0)) [.popped i job]).live ≤
      (items (pop c.members.jobs)).card := by
  have hTurn := live_of_turn found (by rw [phase]; rfl) members
    (call.goto (.scanning ⟨own, job⟩ 0)) [.popped i job] rfl rfl
  have hPop : (items c.members.jobs).card = (items (pop c.members.jobs)).card + 1 := by
    rw [← size_eq, ← size_eq, size_pop hTop]
  rcases hSpares with hStands | hEmpty | hMore
  · have hMine : 0 < (standing c.trace).countP fun entry => entry.1 = i :=
      List.countP_pos_iff.mpr ⟨_, hStands, by simp⟩
    omega
  · rw [hEmpty] at hPop
    simp at hPop
  · omega

/-- The requests that stand and wait never outnumber the pending jobs. -/
theorem live_le_pending_of_step {env : Environment} {c next : System Queue} {action : Action}
    (run : Reaches (System.step env) sparesOthers (System.initial env) c)
    (h : c.live ≤ (items c.members.jobs).card) (allowed : sparesOthers c action)
    (hStep : Step env c action next) : next.live ≤ (items next.members.jobs).card := by
  cases hStep with
  | request body =>
      unfold System.live at h ⊢
      rw [System.arrive_members, waitingAt_arrive, standing_arrive]
      exact h
  | clear =>
      by_cases hControl : env.config.server.allowControl = true
      · have hCleared : (c.clear env).live = 0 := by
          simp [System.live, System.clear, hControl, standing]
        rw [hCleared]
        exact Nat.zero_le _
      · have hSame : c.clear env = c := by
          simp [System.clear, hControl, System.handleQueueDeleteRequest]
        rw [hSame]
        exact h
  | raise => exact allowed.elim
  | @proceed i now call after members events found moves =>
      cases moves with
      | @cancelled rootHash phase _ =>
          have hSpares : c.liveOthers rootHash ≤
              (items c.members.jobs).countP fun job => hasHash rootHash job = false := by
            simpa [sparesOthers, found, phase] using allowed
          rw [live_of_cancelled found _ rootHash _ (by rw [phase]; rfl), System.commit_members,
            items_removeJob, ← Multiset.countP_eq_card_filter]
          exact hSpares
      | @admitted own phase _ =>
          have hPushed : (items (pushJob c.members.jobs own)).card =
              (items c.members.jobs).card + 1 := by
            rw [pushJob, items_push, Multiset.card_cons]
          rw [System.commit_members, hPushed]
          exact Nat.le_trans (live_of_admitted_le run found phase _) (Nat.add_le_add_right h 1)
      | @popped own job phase _ hTop =>
          have hSpares : (i, own) ∈ standing c.trace ∨ items c.members.jobs = 0 ∨
              c.live < (items c.members.jobs).card := by
            simpa [sparesOthers, found, phase] using allowed
          exact live_of_popped_le found phase hTop h hSpares _
      | @starved own phase _ hTop =>
          have hTurn := live_of_turn found (by rw [phase]; rfl) c.members
            (call.fail (.starved own) "No jobs available") [] rfl rfl
          rw [System.commit_members]
          omega
      | notFound phase missing =>
          rw [live_of_same found _ _ (by rw [phase]; rfl) rfl, System.commit_members,
            eq_of_notFound missing]
          exact h
      | rejected phase _ | posted phase | busy phase _ _ | acquired phase _ _ | noDevice phase _
      | inserted phase | answered phase | released phase _ | finished phase =>
          rw [live_of_same found _ _ (by rw [phase]; rfl) rfl]
          exact h

theorem live_le_pending {env : Environment} {c : System Queue}
    (run : Reaches (System.step env) sparesOthers (System.initial env) c) :
    c.live ≤ (items c.members.jobs).card := by
  refine run.invariant (fun c => c.live ≤ (items c.members.jobs).card) ?_ ?_
  · simp [System.live, System.initial, standing]
  · intro state action next prior h allowed hStep
    exact live_le_pending_of_step prior h allowed (step_cases hStep)

theorem workResponse_work (env : Environment) (id : Option String) (result : Job.Result) :
    ((workResponse env id result).getOptional "work").isSome = true := by
  unfold workResponse
  rw [getOptional_attachCorrelationId (by decide), Ptree.getOptional_put_of_ne (by decide),
    Ptree.getOptional_put_of_ne (by decide), Ptree.getOptional_put]
  rfl

/-- Over all runs under a guard, a request that stands when it gets a response
gets a work result. -/
def AnswersStanding (Queue : Type) [PriorityQueue Queue Job Job.comparator] (env : Environment)
    (guard : System Queue → Action → Prop) : Prop :=
  ∀ (c next : System Queue) (action : Action) (i : Nat) (own : Job) (call after : Call)
    (response : Ptree), Reaches (System.step env) guard (System.initial env) c →
    guard c action → System.step env c action = some next → (i, own) ∈ standing c.trace →
    c.calls[i]? = some call → next.calls[i]? = some after →
    after.responses = call.responses ++ [response] →
    (response.getOptional "work").isSome = true

/-- Where cancels and leftover tasks spare the others, every request that stands
is answered with work, and never finds the queue empty. -/
theorem answers_standing (env : Environment) : AnswersStanding Queue env sparesOthers := by
  intro c next action i own call after response run allowed hStep hStands hCall hAfter hResponse
  obtain ⟨other, hOther, hOwn⟩ := own_of_accepted run (accepted_of_standing hStands)
  obtain rfl := Option.some.inj (hCall.symm.trans hOther)
  rcases call_of_step (step_cases hStep) hCall with
    hStays | ⟨now, members, moved, events, hMoves, rfl, rfl⟩ | ⟨_, _, -, rfl, -⟩
  · obtain rfl := Option.some.inj (hStays.symm.trans hAfter)
    simp at hResponse
  · rw [System.getElem?_commit_self _ _ _ (hCall ▸ rfl)] at hAfter
    obtain rfl := Option.some.inj hAfter
    cases hMoves with
    | answered phase =>
        obtain rfl : workResponse env call.correlationId (mockResult env) = response := by
          simpa using hResponse
        exact workResponse_work env _ _
    | starved phase _ hTop =>
        have hLive : 0 < c.live := by
          refine List.countP_pos_iff.mpr ⟨_, hStands, ?_⟩
          rw [waitingAt, hCall]
          simp [phase, Phase.waiting?]
        have hPending := live_le_pending run
        rw [items_of_top_none _ hTop] at hPending
        simp at hPending
        omega
    | noDevice phase hDevice =>
        have hInv := DeviceInv.of_reaches
          (run.mono fun _ _ h => raisesReleased_of_noRaise (noRaise_of_sparesOthers h))
        have hScan := hInv.scanning_lt (List.mem_of_getElem? hCall) phase
        rw [List.getElem?_eq_none_iff] at hDevice
        omega
    | cancelled phase _ | notFound phase _ | admitted phase _ | rejected phase _ =>
        simp [phase, Phase.own?] at hOwn
    | posted phase | popped phase _ _ | busy phase _ _ | acquired phase _ _ | inserted phase
    | released phase _ | finished phase => simp at hResponse
  · exact allowed.elim

/-- A task that takes its turn at an empty queue answers with an error. -/
theorem step_of_starved {env : Environment} {c : System Queue} {i : Nat} {call : Call} {own : Job}
    (found : c.calls[i]? = some call) (phase : call.phase = .posted own)
    (thread : c.running < env.config.devices.length) (hEmpty : items c.members.jobs = 0)
    (now : Nat) :
    System.step env c (.proceed i now) = some
      (c.commit i c.members (call.fail (.starved own) "No jobs available") []) := by
  have hTop := (top_eq_none_iff c.members.jobs).mpr hEmpty
  simp [System.step, found, Call.proceed, phase, thread, popJob_of_top_none hTop]

/-- A task that has inserted its job answers with the result. -/
theorem step_of_active {env : Environment} {c : System Queue} {i : Nat} {call : Call} {task : Task}
    {device : Nat} (found : c.calls[i]? = some call) (phase : call.phase = .active task device)
    (now : Nat) :
    System.step env c (.proceed i now) = some
      (c.commit i c.members
        (call.answer
          (.answered { task with job := { task.job with result := mockResult env } } device)
          (workResponse env call.correlationId (mockResult env))) []) := by
  simp [System.step, found, Call.proceed, phase]

end

/-- Request 1 is cancelled, and its task takes the job of request 2. -/
def leftoverRun : List Action :=
  [.request generateOne, .proceed 0 0, .proceed 0 0, .request cancelOne, .proceed 1 0,
    .request generateTwo, .proceed 2 0, .proceed 2 0, .proceed 0 0, .proceed 0 0, .proceed 0 0,
    .proceed 0 0, .proceed 0 0, .proceed 0 0]

/-- The job of request 2. -/
def jobTwo : Job where
  jobId := 2
  priority := 1
  request := { rootHash := Bigint.set 2, difficulty := sampleEnvironment.config.work.baseDifficulty }

/-- The task of request 2 then finds the queue empty. -/
theorem not_answers_standing : ¬ ∀ env : Environment, AnswersStanding JobQueue env noRaise := by
  intro hAll
  have hLeft : ∃ h : (sampleRun leftoverRun).isSome = true,
      (2, jobTwo) ∈ standing ((sampleRun leftoverRun).get h).trace ∧
      (((sampleRun leftoverRun).get h).calls[2]?).map Call.phase = some (.posted jobTwo) ∧
      ((sampleRun leftoverRun).get h).running < sampleEnvironment.config.devices.length ∧
      items ((sampleRun leftoverRun).get h).members.jobs = 0 :=
    ⟨by decide, by decide, by decide, by decide, by decide⟩
  obtain ⟨hEnabled, hStands, hPhase, hThread, hEmpty⟩ := hLeft
  obtain ⟨call, hCall, hPosted⟩ := Option.map_eq_some_iff.mp hPhase
  have hRun := reaches_get hEnabled
    (show AllAllowed _ noRaise _ leftoverRun by decide)
  have hWork := hAll sampleEnvironment _ _ (.proceed 2 0) 2 jobTwo call _ _ hRun trivial
    (step_of_starved hCall hPosted hThread hEmpty 0) hStands hCall
    (System.getElem?_commit_self _ _ _ (hCall ▸ rfl)) (Call.fail_responses _ _ _)
  simp at hWork

/-- The task of the cancelled request takes its turn before request 2 is made. -/
def sparingRun : List Action :=
  [.request generateOne, .proceed 0 0, .proceed 0 0, .request cancelOne, .proceed 1 0,
    .proceed 0 0, .request generateTwo, .proceed 2 0, .proceed 2 0, .proceed 2 0, .proceed 2 0,
    .proceed 2 0]

/-- Request 2 stands, its job is active and the next step answers it. -/
theorem answers_standing_two :
    ∃ (h : (sampleRun sparingRun).isSome = true) (call : Call),
      ((sampleRun sparingRun).get h).calls[2]? = some call ∧
      (2, jobTwo) ∈ standing ((sampleRun sparingRun).get h).trace ∧
      ((workResponse sampleEnvironment call.correlationId
        (mockResult sampleEnvironment)).getOptional "work").isSome = true := by
  have hActive : ∃ h : (sampleRun sparingRun).isSome = true,
      (2, jobTwo) ∈ standing ((sampleRun sparingRun).get h).trace ∧
      (((sampleRun sparingRun).get h).calls[2]?).map Call.phase =
        some (.active ⟨jobTwo, jobTwo⟩ 0) ∧
      sparesOthers ((sampleRun sparingRun).get h) (.proceed 2 0) :=
    ⟨by decide, by decide, by decide, by decide⟩
  obtain ⟨hEnabled, hStands, hPhase, hSpares⟩ := hActive
  obtain ⟨call, hCall, hInside⟩ := Option.map_eq_some_iff.mp hPhase
  have hRun := reaches_get hEnabled
    (show AllAllowed _ sparesOthers _ sparingRun by decide)
  refine ⟨hEnabled, call, hCall, hStands, ?_⟩
  exact answers_standing sampleEnvironment _ _ (.proceed 2 0) 2 jobTwo call _ _ hRun
    hSpares (step_of_active hCall hInside 0) hStands hCall
    (System.getElem?_commit_self _ _ _ (hCall ▸ rfl)) (Call.answer_responses _ _ _)

end NanoPowServer.WorkHandler
