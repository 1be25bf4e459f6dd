import NanoPowServer.WorkHandler.Devices
import NanoPowServer.WorkHandler.ActiveSet

/-! The life of a job. While fewer jobs than the dispenser has values are
created and no exception is raised, every accepted job stands at exactly one
place and moves only forward: it waits in the queue, is held by the task that
popped it, is in the active set, and is finished, or it is removed while it
still waits. -/
namespace NanoPowServer.WorkHandler

open PriorityQueue Execution

variable {Queue : Type}

inductive Place where
  | pending
  | held (task : Nat)
  | active (task : Nat)
  | finished
  | removed
  deriving DecidableEq

/-- The moves from place to place. -/
inductive Place.Move : Place → Place → Prop where
  | pop (task : Nat) : Move .pending (.held task)
  | insert (task : Nat) : Move (.held task) (.active task)
  | finish (task : Nat) : Move (.active task) .finished
  | remove : Move .pending .removed

/-- A job with this ticket was accepted into the queue. -/
def Accepted (c : System Queue) (ticket : Job.Ticket) : Prop :=
  ∃ i job, .accepted i job ∈ c.trace ∧ job.ticket = ticket

/-- The finished jobs in the order of completion. -/
def System.finishedJobs (c : System Queue) : List Job :=
  (c.trace.filterMap Event.finished?).reverse

/-- A job with this ticket stands at this place. -/
def Located [PriorityQueue Queue Job Job.comparator] (c : System Queue) (ticket : Job.Ticket) :
    Place → Prop
  | .pending => ∃ job ∈ items c.members.jobs, job.ticket = ticket
  | .held i => ∃ call, c.calls[i]? = some call ∧ call.phase.held?.map Job.ticket = some ticket
  | .active i => i ∈ c.members.activeJobs ∧
      ∃ call, c.calls[i]? = some call ∧ call.phase.active?.map Job.ticket = some ticket
  | .finished => ∃ job, .finished job ∈ c.trace ∧ job.ticket = ticket
  | .removed => ∃ job, .removed job ∈ c.trace ∧ job.ticket = ticket

section

variable [PriorityQueue Queue Job Job.comparator] {env : Environment} {c : System Queue}

omit [PriorityQueue Queue Job Job.comparator] in
theorem raisesInactive_of_noRaise {action : Action} (h : noRaise c action) :
    raisesInactive c action := by
  cases action with
  | raise i what => exact h.elim
  | _ => trivial

/-- Without exceptions the active set is in order as long as ids are distinct. -/
theorem activeSet (run : Reaches (System.step env) noRaise (System.initial env) c)
    (hFew : c.created.length < 2 ^ 32) : ActiveSet c :=
  .of_reaches (run.mono fun _ _ => raisesInactive_of_noRaise) hFew

/-- Without exceptions no task fails: nothing raises, and every scan finds a
device. -/
theorem unfailed (run : Reaches (System.step env) noRaise (System.initial env) c) :
    ∀ call ∈ c.calls, call.phase.failed? = none := by
  apply calls_invariant run fun call => call.phase.failed? = none
  · intro jobId body call _ hArrives
    cases hArrives <;> rfl
  · intro c i now call members next events prior _ found _ moves
    cases moves with
    | noDevice phase hDevice =>
        have hInv := DeviceInv.of_reaches (prior.mono fun _ _ => raisesReleased_of_noRaise)
        have hScan := hInv.scanning_lt (List.mem_of_getElem? found) phase
        rw [List.getElem?_eq_none_iff] at hDevice
        omega
    | _ => rfl
  · intro c i call task what allowed
    exact allowed.elim

theorem callsAt_failed (run : Reaches (System.step env) noRaise (System.initial env) c)
    (q : Job.Ticket → Bool) : c.callsAt Phase.failed? q = 0 := by
  rw [System.callsAt, List.countP_eq_zero]
  intro call hCall
  simp [unfailed run call hCall]

theorem accepted_le_one (run : Reaches (System.step env) noRaise (System.initial env) c)
    (hFew : c.created.length < 2 ^ 32) (jobId : UInt32) :
    c.eventsOf Event.accepted? (withId jobId) ≤ 1 := by
  have hCreated := accepted_le_created run jobId
  have hNodup := List.nodup_iff_count_le_one.mp (created_nodup run hFew) jobId
  omega

end

/-- The ticket is this one. -/
def isTicket (ticket other : Job.Ticket) : Bool := other = ticket

@[simp] theorem isTicket_iff (ticket other : Job.Ticket) :
    isTicket ticket other = true ↔ other = ticket := by
  simp [isTicket]

theorem eventsOf_pos_iff (c : System Queue) (kind : Event → Option Job) (ticket : Job.Ticket) :
    0 < c.eventsOf kind (isTicket ticket) ↔
      ∃ event ∈ c.trace, ∃ job, kind event = some job ∧ job.ticket = ticket := by
  rw [System.eventsOf, List.countP_pos_iff]
  refine exists_congr fun event => and_congr_right fun _ => ?_
  cases kind event <;> simp

theorem callsAt_isTicket_pos_iff (c : System Queue) (place : Phase → Option Job)
    (ticket : Job.Ticket) :
    0 < c.callsAt place (isTicket ticket) ↔
      ∃ (i : Nat) (call : Call), c.calls[i]? = some call ∧ (place call.phase).map Job.ticket = some ticket := by
  rw [System.callsAt, List.countP_pos_iff]
  constructor
  · rintro ⟨call, hCall, hPlace⟩
    obtain ⟨i, hi⟩ := List.mem_iff_getElem?.mp hCall
    refine ⟨i, call, hi, ?_⟩
    cases hJob : place call.phase <;> simp_all
  · rintro ⟨i, call, hi, hPlace⟩
    refine ⟨call, List.mem_of_getElem? hi, ?_⟩
    cases hJob : place call.phase <;> simp_all

theorem finished_removedEvents (dropped : List Job) :
    (removedEvents dropped).filterMap Event.finished? = [] := by
  rw [List.filterMap_eq_nil_iff]
  intro event hEvent
  obtain ⟨job, -, rfl⟩ := List.mem_map.mp hEvent
  rfl

theorem finishedJobs_commit_of_none (c : System Queue) (i : Nat) (members : Members Queue)
    (after : Call) {events : List Event} (hNone : events.filterMap Event.finished? = []) :
    (c.commit i members after events).finishedJobs = c.finishedJobs := by
  simp [System.finishedJobs, hNone]

theorem finishedJobs_commit_finished (c : System Queue) (i : Nat) (members : Members Queue)
    (after : Call) (job : Job) :
    (c.commit i members after [.finished job]).finishedJobs = c.finishedJobs ++ [job] := by
  simp [System.finishedJobs, Event.finished?]

theorem finishedJobs_arrive (c : System Queue) (env : Environment) (body : String) :
    (c.arrive env body).finishedJobs = c.finishedJobs := by
  unfold System.arrive System.finishedJobs
  split <;> rfl

section

variable [PriorityQueue Queue Job Job.comparator] {env : Environment} {c : System Queue}

/-- An active job occupies a thread of the pool. -/
theorem activeJobs_length_le
    (run : Reaches (System.step env) noRaise (System.initial env) c)
    (hFew : c.created.length < 2 ^ 32) :
    c.members.activeJobs.length ≤ env.config.devices.length := by
  have hActive := activeSet run hFew
  have hDevices := DeviceInv.of_reaches (run.mono fun _ _ => raisesReleased_of_noRaise)
  refine Nat.le_trans ?_ hDevices.threads
  apply List.length_le_countP hActive.nodup
  intro i hi
  obtain ⟨call, hCall, job, hJob⟩ := hActive.exists_of_mem hi
  refine ⟨call, hCall, ?_⟩
  cases hPhase : call.phase <;> simp_all [Phase.active?, Phase.isRunning]

theorem finishedJobs_clear (c : System Queue) (env : Environment) :
    (c.clear env).finishedJobs = c.finishedJobs := by
  unfold System.clear System.finishedJobs
  split
  · rw [List.filterMap_cons_none rfl, List.filterMap_append, finished_removedEvents,
      List.nil_append]
  · rfl

/-- A step that finishes a job pushes it into the buffer. -/
theorem completed_of_step {next : System Queue} {action : Action}
    (hStep : Step env c action next) :
    (next.members.completedJobs = c.members.completedJobs ∧
      next.finishedJobs = c.finishedJobs) ∨
    ∃ job, next.members.completedJobs = CircularBuffer.pushBack 128 c.members.completedJobs job ∧
      next.finishedJobs = c.finishedJobs ++ [job] := by
  cases hStep with
  | request body =>
      rw [System.arrive_members, finishedJobs_arrive]
      exact .inl ⟨rfl, rfl⟩
  | clear =>
      rw [System.clear_members, finishedJobs_clear]
      exact .inl ⟨rfl, rfl⟩
  | raise => exact .inl ⟨rfl, finishedJobs_commit_of_none _ _ _ _ rfl⟩
  | @proceed i now call after members events found moves =>
      cases moves with
      | @finished task phase =>
          refine .inr ⟨task.job.stop now, ?_, finishedJobs_commit_finished _ _ _ _ _⟩
          rw [System.commit_members]
      | cancelled phase _ =>
          refine .inl ⟨rfl, finishedJobs_commit_of_none _ _ _ _ ?_⟩
          rw [List.filterMap_cons_none rfl, finished_removedEvents]
      | notFound phase _ | admitted phase _ | rejected phase _ | posted phase | popped phase _ _
      | starved phase _ _ | busy phase _ _ | acquired phase _ _ | noDevice phase _
      | inserted phase | answered phase | released phase _ =>
          exact .inl ⟨rfl, finishedJobs_commit_of_none _ _ _ _ rfl⟩

/-- The buffer holds the newest of the finished jobs. -/
theorem completedJobs_eq {guard : System Queue → Action → Prop}
    (run : Reaches (System.step env) guard (System.initial env) c) :
    c.members.completedJobs = c.finishedJobs.rtake 128 := by
  refine run.invariant (fun c => c.members.completedJobs = c.finishedJobs.rtake 128)
    (List.rtake_nil 128).symm ?_
  intro c action next _ ih _ hStep
  rcases completed_of_step (step_cases hStep) with ⟨hBuffer, hFinished⟩ | ⟨job, hBuffer, hFinished⟩
  · rw [hBuffer, hFinished, ih]
  · rw [hBuffer, hFinished, ih, CircularBuffer.pushBack_rtake]

/-- The number of jobs with a property at the places of this kind. -/
def Place.count (c : System Queue) (q : Job.Ticket → Bool) : Place → Nat
  | .pending => c.pending q
  | .held _ => c.callsAt Phase.held? q
  | .active _ => c.callsAt Phase.active? q
  | .finished => c.eventsOf Event.finished? q
  | .removed => c.eventsOf Event.removed? q

/-- The place of an active job in terms of the call that processes it. -/
theorem located_active_iff (h : ActiveSet c) (ticket : Job.Ticket) (i : Nat) :
    Located c ticket (.active i) ↔
      ∃ call, c.calls[i]? = some call ∧ call.phase.active?.map Job.ticket = some ticket := by
  constructor
  · rintro ⟨-, hCall⟩
    exact hCall
  · rintro ⟨call, hCall, hTicket⟩
    obtain ⟨job, hJob, -⟩ := Option.map_eq_some_iff.mp hTicket
    exact ⟨h.mem_of_active hCall hJob, call, hCall, hTicket⟩

theorem Located.count_pos (h : ActiveSet c) {ticket : Job.Ticket} {place : Place}
    (hLocated : Located c ticket place) : 0 < place.count c (isTicket ticket) := by
  cases place with
  | pending =>
      obtain ⟨job, hJob, rfl⟩ := hLocated
      exact Multiset.countP_pos.mpr ⟨job, hJob, by simp⟩
  | held i => exact (callsAt_isTicket_pos_iff c _ ticket).mpr ⟨i, hLocated⟩
  | active i =>
      exact (callsAt_isTicket_pos_iff c _ ticket).mpr ⟨i, (located_active_iff h ticket i).mp hLocated⟩
  | finished =>
      obtain ⟨job, hEvent, hTicket⟩ := hLocated
      exact (eventsOf_pos_iff c _ ticket).mpr ⟨_, hEvent, job, rfl, hTicket⟩
  | removed =>
      obtain ⟨job, hEvent, hTicket⟩ := hLocated
      exact (eventsOf_pos_iff c _ ticket).mpr ⟨_, hEvent, job, rfl, hTicket⟩

/-- A ticket is accepted at most once, so it is counted at one place at most. -/
theorem placed_isTicket (run : Reaches (System.step env) noRaise (System.initial env) c)
    (hFew : c.created.length < 2 ^ 32) (ticket : Job.Ticket) :
    c.eventsOf Event.accepted? (isTicket ticket) = c.pending (isTicket ticket) +
        c.callsAt Phase.held? (isTicket ticket) + c.callsAt Phase.active? (isTicket ticket) +
        c.eventsOf Event.finished? (isTicket ticket) +
        c.eventsOf Event.removed? (isTicket ticket) ∧
      c.eventsOf Event.accepted? (isTicket ticket) ≤ 1 := by
  have hSum := conserved run (isTicket ticket)
  rw [callsAt_failed run, Nat.add_zero] at hSum
  refine ⟨hSum, Nat.le_trans ?_ (accepted_le_one run hFew ticket.jobId)⟩
  apply List.countP_mono_left
  intro event _ hTicket
  cases hJob : event.accepted? <;> simp_all

theorem located_unique (run : Reaches (System.step env) noRaise (System.initial env) c)
    (hFew : c.created.length < 2 ^ 32) {ticket : Job.Ticket} {place other : Place}
    (hPlace : Located c ticket place) (hOther : Located c ticket other) : place = other := by
  have hActive := activeSet run hFew
  obtain ⟨hSum, hOne⟩ := placed_isTicket run hFew ticket
  have hFirst := hPlace.count_pos hActive
  have hSecond := hOther.count_pos hActive
  have hIndex : ∀ {kind : Phase → Option Job} {i j : Nat} {first second : Call},
      c.callsAt kind (isTicket ticket) ≤ 1 → c.calls[i]? = some first →
      c.calls[j]? = some second → (kind first.phase).map Job.ticket = some ticket →
      (kind second.phase).map Job.ticket = some ticket → i = j := by
    intro kind i j first second hOnce hi hj ha hb
    apply List.index_unique_of_countP_le_one hOnce hi hj
    · cases hJob : kind first.phase <;> simp_all
    · cases hJob : kind second.phase <;> simp_all
  cases place <;> cases other <;> simp only [Place.count] at hFirst hSecond
  case held.held i j =>
    obtain ⟨first, hi, ha⟩ := hPlace
    obtain ⟨second, hj, hb⟩ := hOther
    rw [hIndex (by omega) hi hj ha hb]
  case active.active i j =>
    obtain ⟨first, hi, ha⟩ := (located_active_iff hActive ticket i).mp hPlace
    obtain ⟨second, hj, hb⟩ := (located_active_iff hActive ticket j).mp hOther
    rw [hIndex (by omega) hi hj ha hb]
  all_goals first
  | rfl
  | omega

/-- An accepted job stands somewhere. -/
theorem exists_located (run : Reaches (System.step env) noRaise (System.initial env) c)
    (hFew : c.created.length < 2 ^ 32) {ticket : Job.Ticket} (hAccepted : Accepted c ticket) :
    ∃ place, Located c ticket place := by
  have hActive := activeSet run hFew
  obtain ⟨hSum, -⟩ := placed_isTicket run hFew ticket
  have hPos : 0 < c.eventsOf Event.accepted? (isTicket ticket) := by
    obtain ⟨i, job, hEvent, hTicket⟩ := hAccepted
    exact (eventsOf_pos_iff c _ ticket).mpr ⟨_, hEvent, job, rfl, hTicket⟩
  rw [hSum] at hPos
  by_cases hPending : 0 < c.pending (isTicket ticket)
  · obtain ⟨job, hJob, hTicket⟩ := Multiset.countP_pos.mp hPending
    exact ⟨.pending, job, hJob, by simpa using hTicket⟩
  by_cases hHeld : 0 < c.callsAt Phase.held? (isTicket ticket)
  · obtain ⟨i, hLocated⟩ := (callsAt_isTicket_pos_iff c _ ticket).mp hHeld
    exact ⟨.held i, hLocated⟩
  by_cases hInside : 0 < c.callsAt Phase.active? (isTicket ticket)
  · obtain ⟨i, hLocated⟩ := (callsAt_isTicket_pos_iff c _ ticket).mp hInside
    exact ⟨.active i, (located_active_iff hActive ticket i).mpr hLocated⟩
  by_cases hFinished : 0 < c.eventsOf Event.finished? (isTicket ticket)
  · obtain ⟨event, hEvent, job, hJob, hTicket⟩ := (eventsOf_pos_iff c _ ticket).mp hFinished
    cases event <;> simp only [Event.finished?, Option.some.injEq, reduceCtorEq] at hJob
    exact ⟨.finished, job, hJob ▸ hEvent, hTicket⟩
  · have hRemoved : 0 < c.eventsOf Event.removed? (isTicket ticket) := by omega
    obtain ⟨event, hEvent, job, hJob, hTicket⟩ := (eventsOf_pos_iff c _ ticket).mp hRemoved
    cases event <;> simp only [Event.removed?, Option.some.injEq, reduceCtorEq] at hJob
    exact ⟨.removed, job, hJob ▸ hEvent, hTicket⟩

/-- A pending job stays, is popped by the task that takes its turn, or is
removed. -/
theorem pending_of_step {action : Action} {next : System Queue}
    (hStep : Step env c action next) {job : Job} (hJob : job ∈ items c.members.jobs) :
    job ∈ items next.members.jobs ∨ .removed job ∈ next.trace ∨
      ∃ (i : Nat) (call : Call), next.calls[i]? = some call ∧ call.phase.held? = some job := by
  cases hStep with
  | request body => exact .inl (by rw [System.arrive_members]; exact hJob)
  | clear =>
      by_cases hControl : env.config.server.allowControl = true
      · refine .inr (.inl ?_)
        simp [System.clear, hControl, removedEvents, hJob]
      · refine .inl ?_
        rw [System.clear_members, System.items_handleQueueDeleteRequest]
        simp [hControl, hJob]
  | raise => exact .inl hJob
  | @proceed i now call after members events found moves =>
      cases moves with
      | @cancelled rootHash phase _ =>
          rw [System.commit_members, items_removeJob, Multiset.mem_filter]
          cases hHash : hasHash rootHash job with
          | false => exact .inl ⟨hJob, rfl⟩
          | true =>
              refine .inr (.inl ?_)
              simp [removedEvents, hJob, hHash]
      | notFound phase missing =>
          rw [System.commit_members, eq_of_notFound missing]
          exact .inl hJob
      | @admitted own phase _ => exact .inl (by simp [pushJob, hJob])
      | @popped own first phase _ hTop =>
          rw [← cons_items_pop c.members.jobs first hTop, Multiset.mem_cons] at hJob
          rcases hJob with rfl | hRest
          · exact .inr (.inr ⟨i, _, System.getElem?_commit_self _ _ _ (found ▸ rfl), rfl⟩)
          · exact .inl hRest
      | rejected phase _ | posted phase | starved phase _ _ | busy phase _ _ | acquired phase _ _
      | noDevice phase _ | inserted phase | answered phase | released phase _ | finished phase =>
          exact .inl hJob

/-- A held job stays with its task, or is inserted into the active set: the scan
for a device never runs off the end. -/
theorem held_of_step (run : Reaches (System.step env) noRaise (System.initial env) c)
    {action : Action} {next : System Queue} (allowed : noRaise c action)
    (hStep : Step env c action next) {ticket : Job.Ticket} {i : Nat} {call : Call}
    (hCall : c.calls[i]? = some call) (hTicket : (call.phase.held?).map Job.ticket = some ticket) :
    ∃ after, next.calls[i]? = some after ∧ ((after.phase.held?).map Job.ticket = some ticket ∨
      (after.phase.active?).map Job.ticket = some ticket) := by
  rcases call_of_step hStep hCall with
    hStays | ⟨now, members, after, events, hMoves, -, rfl⟩ | ⟨_, _, -, rfl, -⟩
  · exact ⟨call, hStays, .inl hTicket⟩
  · refine ⟨after, System.getElem?_commit_self _ _ _ (by simp [hCall]), ?_⟩
    cases hMoves with
    | busy phase _ _ | acquired phase _ _ =>
        left
        rw [phase] at hTicket
        exact hTicket
    | inserted phase =>
        right
        rw [phase] at hTicket
        exact hTicket
    | noDevice phase hDevice =>
        have hInv := DeviceInv.of_reaches (run.mono fun _ _ => raisesReleased_of_noRaise)
        have hScan := hInv.scanning_lt (List.mem_of_getElem? hCall) phase
        rw [List.getElem?_eq_none_iff] at hDevice
        omega
    | _ => simp_all [Phase.held?]
  · exact allowed.elim

/-- An active job stays so, or is finished. -/
theorem active_of_step {action : Action} {next : System Queue} (allowed : noRaise c action)
    (hStep : Step env c action next) {ticket : Job.Ticket} {i : Nat} {call : Call}
    (hCall : c.calls[i]? = some call)
    (hTicket : (call.phase.active?).map Job.ticket = some ticket) :
    (∃ after, next.calls[i]? = some after ∧
      (after.phase.active?).map Job.ticket = some ticket) ∨
    ∃ job, .finished job ∈ next.trace ∧ job.ticket = ticket := by
  rcases call_of_step hStep hCall with
    hStays | ⟨now, members, after, events, hMoves, -, rfl⟩ | ⟨_, _, -, rfl, -⟩
  · exact .inl ⟨call, hStays, hTicket⟩
  · have hAfter : (c.commit i members after events).calls[i]? = some after :=
      System.getElem?_commit_self _ _ _ (by simp [hCall])
    cases hMoves with
    | answered phase | released phase _ =>
        rw [phase] at hTicket
        exact .inl ⟨_, hAfter, hTicket⟩
    | @finished task phase =>
        rw [phase] at hTicket
        exact .inr ⟨task.job.stop now, List.mem_cons_self, Option.some.inj hTicket⟩
    | _ => simp_all [Phase.active?]
  · exact allowed.elim

/-- A job moves along the graph of places, or stays. -/
theorem located_of_step (run : Reaches (System.step env) noRaise (System.initial env) c)
    {action : Action} {next : System Queue} (allowed : noRaise c action)
    (hStep : System.step env c action = some next) (hFew : next.created.length < 2 ^ 32)
    {ticket : Job.Ticket} {place : Place} (hLocated : Located c ticket place) :
    ∃ after, (after = place ∨ Place.Move place after) ∧ Located next ticket after := by
  have hBefore := Nat.lt_of_le_of_lt (created_length_le (step_cases hStep)) hFew
  have hActive := activeSet run hBefore
  have hNext := activeSet (run.tail allowed hStep) hFew
  obtain ⟨events, hTrace⟩ := trace_of_step (step_cases hStep)
  cases place with
  | finished =>
      obtain ⟨job, hEvent, hTicket⟩ := hLocated
      refine ⟨.finished, .inl rfl, job, ?_, hTicket⟩
      rw [hTrace]
      exact List.mem_append_right events hEvent
  | removed =>
      obtain ⟨job, hEvent, hTicket⟩ := hLocated
      refine ⟨.removed, .inl rfl, job, ?_, hTicket⟩
      rw [hTrace]
      exact List.mem_append_right events hEvent
  | pending =>
      obtain ⟨job, hJob, rfl⟩ := hLocated
      rcases pending_of_step (step_cases hStep) hJob with hStays | hGone | ⟨i, call, hCall, hHeld⟩
      · exact ⟨.pending, .inl rfl, job, hStays, rfl⟩
      · exact ⟨.removed, .inr .remove, job, hGone, rfl⟩
      · exact ⟨.held i, .inr (.pop i), call, hCall, by rw [hHeld]; rfl⟩
  | held i =>
      obtain ⟨call, hCall, hTicket⟩ := hLocated
      obtain ⟨after, hAfter, hHeld | hInserted⟩ :=
        held_of_step run allowed (step_cases hStep) hCall hTicket
      · exact ⟨.held i, .inl rfl, after, hAfter, hHeld⟩
      · exact ⟨.active i, .inr (.insert i),
          (located_active_iff hNext ticket i).mpr ⟨after, hAfter, hInserted⟩⟩
  | active i =>
      obtain ⟨call, hCall, hTicket⟩ := (located_active_iff hActive ticket i).mp hLocated
      rcases active_of_step allowed (step_cases hStep) hCall hTicket with hStays | hFinished
      · exact ⟨.active i, .inl rfl, (located_active_iff hNext ticket i).mpr hStays⟩
      · exact ⟨.finished, .inr (.finish i), hFinished⟩

/-- A clear that is allowed removes every pending job, and the turn of a cancel every one with
its root hash. -/
def Removes (env : Environment) (c : System Queue) (job : Job) : Action → Prop
  | .clear => env.config.server.allowControl = true
  | .proceed i _ => ∃ rootHash, (c.calls[i]?).map Call.phase = some (.cancelling rootHash) ∧
      hasHash rootHash job = true
  | _ => False

theorem removed_of_removes {action : Action} {next : System Queue}
    (hStep : Step env c action next) {job : Job} (hJob : job ∈ items c.members.jobs)
    (removes : Removes env c job action) : .removed job ∈ next.trace := by
  cases hStep with
  | clear =>
      have hControl : env.config.server.allowControl = true := removes
      simp [System.clear, hControl, removedEvents, hJob]
  | @proceed i now call after members events found moves =>
      obtain ⟨rootHash, hPhase, hHash⟩ := removes
      rw [found] at hPhase
      have hCancels : call.phase = .cancelling rootHash := Option.some.inj hPhase
      cases moves with
      | cancelled phase _ =>
          obtain rfl := Phase.cancelling.inj (phase.symm.trans hCancels)
          simp [removedEvents, hJob, hHash]
      | notFound phase missing =>
          obtain rfl := Phase.cancelling.inj (phase.symm.trans hCancels)
          rw [missing job hJob] at hHash
          cases hHash
      | _ => simp_all
  | request | raise => exact removes.elim

theorem removes_of_removed {action : Action} {next : System Queue}
    (hStep : Step env c action next) {job : Job} (hEvent : .removed job ∈ next.trace) :
    .removed job ∈ c.trace ∨ Removes env c job action := by
  cases hStep with
  | request body =>
      unfold System.arrive at hEvent
      split at hEvent <;> simpa [Removes] using hEvent
  | clear =>
      by_cases hControl : env.config.server.allowControl = true
      · exact .inr hControl
      · exact .inl (by simpa [System.clear, hControl] using hEvent)
  | raise => exact .inl hEvent
  | @proceed i now call after members events found moves =>
      rw [System.commit_trace] at hEvent
      rcases List.mem_append.mp hEvent with hNew | hOld
      · cases moves with
        | @cancelled rootHash phase _ =>
            have hHash : job ∈ (drain c.members.jobs).filter (hasHash rootHash) := by
              simpa [removedEvents] using hNew
            exact .inr ⟨rootHash, by rw [found, Option.map_some, phase],
              (List.mem_filter.mp hHash).2⟩
        | _ => simp at hNew
      · exact .inl hOld

/-- A pending job is removed by a clear that is allowed or by the turn of a cancel with its
root hash, and by nothing else. -/
theorem removed_iff_of_step (run : Reaches (System.step env) noRaise (System.initial env) c)
    {action : Action} {next : System Queue} (hStep : System.step env c action = some next)
    (hFew : next.created.length < 2 ^ 32) {job : Job} (hJob : job ∈ items c.members.jobs) :
    Located next job.ticket .removed ↔ Removes env c job action := by
  have hBefore := Nat.lt_of_le_of_lt (created_length_le (step_cases hStep)) hFew
  constructor
  · rintro ⟨gone, hEvent, hTicket⟩
    rcases removes_of_removed (step_cases hStep) hEvent with hOld | removes
    · have hPending : Located c job.ticket .pending := ⟨job, hJob, rfl⟩
      have hRemoved : Located c job.ticket .removed := ⟨gone, hOld, hTicket⟩
      cases located_unique run hBefore hPending hRemoved
    · have hRequest : gone.request = job.request := congrArg Job.Ticket.request hTicket
      cases action with
      | clear => exact removes
      | proceed i now =>
          obtain ⟨rootHash, hPhase, hHash⟩ := removes
          exact ⟨rootHash, hPhase, by simpa [hasHash, hRequest] using hHash⟩
      | request | raise => exact removes
  · intro removes
    exact ⟨job, removed_of_removes (step_cases hStep) hJob removes, rfl⟩

theorem accepted_distinct (run : Reaches (System.step env) noRaise (System.initial env) c)
    (hFew : c.created.length < 2 ^ 32) :
    ((c.trace.filterMap Event.accepted?).map Job.jobId).Nodup := by
  rw [List.nodup_iff_count_le_one]
  intro jobId
  refine Nat.le_trans (Nat.le_of_eq ?_) (accepted_le_one run hFew jobId)
  rw [List.count_eq_countP, List.countP_map, List.countP_filterMap]
  apply List.countP_congr
  intro event _
  cases event.accepted? <;> simp

/-- A removed job stays removed. -/
theorem removed_persists {later : System Queue}
    (rest : Reaches (System.step env) noRaise c later) {ticket : Job.Ticket}
    (hLocated : Located c ticket .removed) : Located later ticket .removed := by
  refine rest.invariant (fun later => Located later ticket .removed) hLocated ?_
  rintro state action next _ ⟨job, hEvent, hTicket⟩ _ hStep
  obtain ⟨events, hTrace⟩ := trace_of_step (step_cases hStep)
  exact ⟨job, by rw [hTrace]; exact List.mem_append_right events hEvent, hTicket⟩

/-- The books of the work handler in one state: accepted jobs have distinct ids
and stand at exactly one place each, the active set holds exactly the calls
between insert and erase, and the buffer holds the newest finished jobs. -/
structure JobsAccounted (env : Environment) (c : System Queue) : Prop where
  distinct : ((c.trace.filterMap Event.accepted?).map Job.jobId).Nodup
  onePlace : ∀ ticket, Accepted c ticket → ∃! place, Located c ticket place
  active_nodup : c.members.activeJobs.Nodup
  active_iff : ∀ i, i ∈ c.members.activeJobs ↔
    ∃ call, c.calls[i]? = some call ∧ call.phase.active?.isSome = true
  active_le : c.members.activeJobs.length ≤ env.config.devices.length
  completed : c.members.completedJobs = c.finishedJobs.rtake 128

/-- No job is lost, duplicated or revived. In every state reached without
exceptions by fewer than 2^32 jobs the books are in order, a step only moves
jobs forward and puts accepted ones into the queue, and it removes exactly the
pending jobs that it should. A removed job is never found anywhere else again. -/
theorem jobs_accounted (env : Environment) {c : System Queue}
    (run : Reaches (System.step env) noRaise (System.initial env) c)
    (hFew : c.created.length < 2 ^ 32) :
    JobsAccounted env c ∧
    (∀ action next, noRaise c action → System.step env c action = some next →
      next.created.length < 2 ^ 32 →
      (∀ ticket,
        (∀ place after, Located c ticket place → Located next ticket after →
          after = place ∨ Place.Move place after) ∧
        (Accepted next ticket → ¬ Accepted c ticket → Located next ticket .pending)) ∧
      ∀ job ∈ items c.members.jobs,
        Located next job.ticket .removed ↔ Removes env c job action) ∧
    (∀ later, Reaches (System.step env) noRaise c later → later.created.length < 2 ^ 32 →
      ∀ ticket place, Located c ticket .removed → Located later ticket place →
        place = .removed) := by
  refine ⟨?_, ?_, ?_⟩
  · have hActive := activeSet run hFew
    refine ⟨accepted_distinct run hFew, ?_, hActive.nodup, hActive.mem_iff,
      activeJobs_length_le run hFew, completedJobs_eq run⟩
    intro ticket hAccepted
    obtain ⟨place, hPlace⟩ := exists_located run hFew hAccepted
    exact ⟨place, hPlace, fun other hOther => located_unique run hFew hOther hPlace⟩
  · intro action next allowed hStep hNext
    have hRun := run.tail allowed hStep
    refine ⟨fun ticket => ?_, fun job hJob => removed_iff_of_step run hStep hNext hJob⟩
    constructor
    · intro place after hPlace hAfter
      obtain ⟨reached, hMove, hReached⟩ := located_of_step run allowed hStep hNext hPlace
      rw [located_unique hRun hNext hAfter hReached]
      exact hMove
    · rintro ⟨i, job, hEvent, hTicket⟩ hNew
      rcases accepted_of_step (step_cases hStep) hEvent with hOld | ⟨hPending, -⟩
      · exact (hNew ⟨i, job, hOld, hTicket⟩).elim
      · exact ⟨job, hPending, hTicket⟩
  · intro later rest hLater ticket place hRemoved hPlace
    exact located_unique (run.trans rest) hLater hPlace (removed_persists rest hRemoved)

end

/-- One job is active, and one is pending when a cancel takes its turn. -/
def cancellingRun : List Action :=
  [.request generateTwo, .proceed 0 0, .proceed 0 0, .proceed 0 0, .proceed 0 0, .proceed 0 0,
    .request generateOne, .proceed 1 0, .request cancelOne]

/-- The pending job is removed. -/
theorem jobs_accounted_two :
    ∃ (c next : System JobQueue) (job : Job), sampleRun cancellingRun = some c ∧
      JobsAccounted sampleEnvironment c ∧ c.members.activeJobs = [0] ∧
      job ∈ items c.members.jobs ∧ c.step sampleEnvironment (.proceed 2 0) = some next ∧
      Located next job.ticket .removed := by
  have hRun : ∃ (c next : System JobQueue) (job : Job) (rootHash : U256),
      sampleRun cancellingRun = some c ∧ c.created.length < 2 ^ 32 ∧
      c.members.activeJobs = [0] ∧ top c.members.jobs = some job ∧
      c.step sampleEnvironment (.proceed 2 0) = some next ∧ next.created.length < 2 ^ 32 ∧
      (c.calls[2]?).map Call.phase = some (.cancelling rootHash) ∧ hasHash rootHash job = true :=
    ⟨_, _, _, _, rfl, by decide, by decide, rfl, rfl, by decide, rfl, by decide⟩
  obtain ⟨c, next, job, rootHash, hSome, hFew, hActive, hTop, hStep, hLater, hPhase, hHash⟩ := hRun
  have run : Reaches (System.step sampleEnvironment) noRaise (System.initial sampleEnvironment) c :=
    reaches_of_runActions _ hSome (by decide)
  obtain ⟨hBooks, hSteps, -⟩ := jobs_accounted sampleEnvironment run hFew
  have hRemoved := (hSteps (.proceed 2 0) next trivial hStep hLater).2 job (top_mem hTop)
  exact ⟨c, next, job, hSome, hBooks, hActive, top_mem hTop, hStep, hRemoved.mpr ⟨rootHash, hPhase, hHash⟩⟩

end NanoPowServer.WorkHandler
