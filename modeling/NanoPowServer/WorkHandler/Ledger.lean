import NanoPowServer.WorkHandler.Steps

/-! Where jobs are. Every job is counted in the place it stands at, by any
property of its ticket, and each step moves jobs along the edges of one graph of
places. Whether a job is lost or duplicated is then a matter of arithmetic. -/
namespace NanoPowServer.WorkHandler

open PriorityQueue Execution

variable {Queue : Type}

namespace Phase

/-- The job was constructed and is not yet pushed. -/
def admitting? : Phase → Option Job
  | .admitting own => some own
  | _ => none

/-- The job whose processing ended with an exception. -/
def failed? : Phase → Option Job
  | .failed task => some task.job
  | _ => none

end Phase

namespace Event

def accepted? : Event → Option Job
  | .accepted _ job => some job
  | _ => none

def finished? : Event → Option Job
  | .finished job => some job
  | _ => none

def removed? : Event → Option Job
  | .removed job => some job
  | _ => none

def constructed? : Event → Option UInt32
  | .constructed jobId => some jobId
  | _ => none

end Event

/-- The job is given and its ticket has the property. -/
def ticketed (q : Job.Ticket → Bool) (job : Option Job) : Bool := job.any fun job => q job.ticket

/-- The ticket has this id. -/
def withId (jobId : UInt32) (ticket : Job.Ticket) : Bool := ticket.jobId = jobId

@[simp] theorem withId_iff (jobId : UInt32) (ticket : Job.Ticket) :
    withId jobId ticket = true ↔ ticket.jobId = jobId := by
  simp [withId]

@[simp] theorem ticketed_none (q : Job.Ticket → Bool) : ticketed q none = false := rfl

@[simp] theorem ticketed_some (q : Job.Ticket → Bool) (job : Job) :
    ticketed q (some job) = q job.ticket := rfl

namespace System

/-- The number of calls whose job is at this place. -/
def callsAt (c : System Queue) (place : Phase → Option Job) (q : Job.Ticket → Bool) : Nat :=
  c.calls.countP fun call => ticketed q (place call.phase)

/-- The number of jobs to which this has happened. -/
def eventsOf (c : System Queue) (kind : Event → Option Job) (q : Job.Ticket → Bool) : Nat :=
  c.trace.countP fun event => ticketed q (kind event)

theorem callsAt_commit {c : System Queue} {i : Nat} {call : Call}
    (found : c.calls[i]? = some call) (members : Members Queue) (after : Call)
    (events : List Event) (place : Phase → Option Job) (q : Job.Ticket → Bool) :
    (c.commit i members after events).callsAt place q + (ticketed q (place call.phase)).toNat =
      c.callsAt place q + (ticketed q (place after.phase)).toNat :=
  countP_commit members after events (fun call => ticketed q (place call.phase)) found

theorem eventsOf_commit (c : System Queue) (i : Nat) (members : Members Queue) (after : Call)
    (events : List Event) (kind : Event → Option Job) (q : Job.Ticket → Bool) :
    (c.commit i members after events).eventsOf kind q =
      (events.countP fun event => ticketed q (kind event)) + c.eventsOf kind q :=
  List.countP_append

theorem callsAt_arrive (c : System Queue) (env : Environment) (body : String)
    (place : Phase → Option Job) (q : Job.Ticket → Bool) :
    (c.arrive env body).callsAt place q = c.callsAt place q +
      (ticketed q (place (Call.handleRequestAsync env c.jobIdDispenser body).phase)).toNat :=
  countP_arrive env body fun call => ticketed q (place call.phase)

theorem eventsOf_arrive (c : System Queue) (env : Environment) (body : String)
    {kind : Event → Option Job} (hNone : ∀ jobId, kind (.constructed jobId) = none)
    (q : Job.Ticket → Bool) : (c.arrive env body).eventsOf kind q = c.eventsOf kind q := by
  unfold arrive
  split
  · exact List.countP_cons_of_neg (by simp [hNone])
  · rfl

/-- The job ids taken from the dispenser so far, the newest first. -/
def created (c : System Queue) : List UInt32 := c.trace.filterMap Event.constructed?

theorem created_arrive (c : System Queue) (env : Environment) (body : String) :
    (c.arrive env body).created =
      if constructsJob env body then c.jobIdDispenser :: c.created else c.created := by
  unfold arrive created
  split <;> rfl

theorem jobIdDispenser_arrive (c : System Queue) (env : Environment) (body : String) :
    (c.arrive env body).jobIdDispenser =
      if constructsJob env body then c.jobIdDispenser + 1 else c.jobIdDispenser := by
  unfold arrive
  split <;> rfl

theorem created_commit (c : System Queue) (i : Nat) (members : Members Queue) (after : Call)
    {events : List Event} (hNone : ∀ event ∈ events, event.constructed? = none) :
    (c.commit i members after events).created = c.created := by
  unfold created
  rw [commit_trace, List.filterMap_append, List.filterMap_eq_nil_iff.mpr hNone, List.nil_append]

variable [PriorityQueue Queue Job Job.comparator]

/-- The number of pending jobs with the property. -/
def pending (c : System Queue) (q : Job.Ticket → Bool) : Nat :=
  (items c.members.jobs).countP fun job => q job.ticket = true

end System

/-- How many jobs with the property a step moves along each edge. -/
structure Flow (q : Job.Ticket → Bool) where
  arrived : Nat := 0
  rejected : Nat := 0
  accepted : Nat := 0
  popped : Nat := 0
  removed : Nat := 0
  started : Nat := 0
  finished : Nat := 0
  failedHeld : Nat := 0
  failedActive : Nat := 0

variable [PriorityQueue Queue Job Job.comparator]

/-- The numbers before and after a step differ by the flow along the edges. -/
structure Flow.Along {q : Job.Ticket → Bool} (flow : Flow q) (c next : System Queue) : Prop where
  admitting : next.callsAt Phase.admitting? q + flow.accepted + flow.rejected =
    c.callsAt Phase.admitting? q + flow.arrived
  pending : next.pending q + flow.popped + flow.removed = c.pending q + flow.accepted
  held : next.callsAt Phase.held? q + flow.started + flow.failedHeld =
    c.callsAt Phase.held? q + flow.popped
  active : next.callsAt Phase.active? q + flow.finished + flow.failedActive =
    c.callsAt Phase.active? q + flow.started
  failed : next.callsAt Phase.failed? q =
    c.callsAt Phase.failed? q + flow.failedHeld + flow.failedActive
  acceptedEvents : next.eventsOf Event.accepted? q = c.eventsOf Event.accepted? q + flow.accepted
  removedEvents : next.eventsOf Event.removed? q = c.eventsOf Event.removed? q + flow.removed
  finishedEvents : next.eventsOf Event.finished? q = c.eventsOf Event.finished? q + flow.finished

theorem countP_removedEvents (q : Job.Ticket → Bool) (dropped : List Job) :
    (removedEvents dropped).countP (fun event => ticketed q event.removed?) =
      dropped.countP fun job => q job.ticket := by
  rw [removedEvents, List.countP_map]
  rfl

theorem countP_removedEvents_of_none (q : Job.Ticket → Bool) (dropped : List Job)
    {kind : Event → Option Job} (hNone : ∀ job, kind (.removed job) = none) :
    (removedEvents dropped).countP (fun event => ticketed q (kind event)) = 0 := by
  rw [removedEvents, List.countP_map, List.countP_eq_zero]
  intro job _
  simp [hNone]

/-- What a cancel keeps and what it drops make up what was pending. -/
theorem countP_removeJob (q : Job.Ticket → Bool) (jobs : Queue) (rootHash : U256) :
    (items (removeJob jobs rootHash).1).countP (fun job => q job.ticket = true) +
        ((drain jobs).filter (hasHash rootHash)).countP (fun job => q job.ticket) =
      (items jobs).countP fun job => q job.ticket = true := by
  have hSplit := Multiset.countP_eq_countP_filter_add (items jobs)
    (fun job => q job.ticket = true) (fun job => hasHash rootHash job = false)
  rw [hSplit, items_removeJob]
  congr 1
  rw [← coe_drain, Multiset.filter_coe, Multiset.coe_countP]
  congr 1
  · funext job
    simp
  · apply List.filter_congr
    intro job _
    cases hasHash rootHash job <;> rfl

theorem eq_of_notFound {jobs : Queue} {rootHash : U256}
    (missing : ∀ job ∈ items jobs, hasHash rootHash job = false) :
    items (removeJob jobs rootHash).1 = items jobs := by
  rw [items_removeJob]
  exact Multiset.filter_eq_self.mpr missing

/-- The one job that a call's step moves, given the edge it moves along. -/
theorem Flow.along_commit {q : Job.Ticket → Bool} (flow : Flow q) {c : System Queue} {i : Nat}
    {call : Call} (found : c.calls[i]? = some call) (members : Members Queue) (after : Call)
    (events : List Event)
    (admitting : (ticketed q after.phase.admitting?).toNat + flow.accepted + flow.rejected =
      (ticketed q call.phase.admitting?).toNat + flow.arrived)
    (pending : (items members.jobs).countP (fun job => q job.ticket = true) + flow.popped +
      flow.removed = c.pending q + flow.accepted)
    (held : (ticketed q after.phase.held?).toNat + flow.started + flow.failedHeld =
      (ticketed q call.phase.held?).toNat + flow.popped)
    (active : (ticketed q after.phase.active?).toNat + flow.finished + flow.failedActive =
      (ticketed q call.phase.active?).toNat + flow.started)
    (failed : (ticketed q after.phase.failed?).toNat =
      (ticketed q call.phase.failed?).toNat + flow.failedHeld + flow.failedActive)
    (acceptedEvents : (events.countP fun event => ticketed q event.accepted?) = flow.accepted)
    (removedEvents : (events.countP fun event => ticketed q event.removed?) = flow.removed)
    (finishedEvents : (events.countP fun event => ticketed q event.finished?) = flow.finished) :
    flow.Along c (c.commit i members after events) where
  admitting := by
    have := System.callsAt_commit found members after events Phase.admitting? q
    omega
  pending := pending
  held := by
    have := System.callsAt_commit found members after events Phase.held? q
    omega
  active := by
    have := System.callsAt_commit found members after events Phase.active? q
    omega
  failed := by
    have := System.callsAt_commit found members after events Phase.failed? q
    omega
  acceptedEvents := by
    have := System.eventsOf_commit c i members after events Event.accepted? q
    omega
  removedEvents := by
    have := System.eventsOf_commit c i members after events Event.removed? q
    omega
  finishedEvents := by
    have := System.eventsOf_commit c i members after events Event.finished? q
    omega

theorem flow_of_moves (q : Job.Ticket → Bool) {env : Environment} {c : System Queue} {i now : Nat}
    {call next : Call} {members : Members Queue} {events : List Event}
    (found : c.calls[i]? = some call) (moves : Moves env c i now call members next events) :
    ∃ flow : Flow q, flow.arrived = 0 ∧ flow.Along c (c.commit i members next events) := by
  cases moves with
  | @cancelled rootHash phase _ =>
      let dropped := (drain c.members.jobs).filter (hasHash rootHash)
      refine ⟨{ removed := dropped.countP (fun job => q job.ticket) }, rfl, ?_⟩
      apply Flow.along_commit _ found
      case pending => exact countP_removeJob q c.members.jobs rootHash
      case removedEvents =>
        rw [List.countP_cons_of_neg (by simp [Event.removed?])]
        exact countP_removedEvents q _
      case acceptedEvents =>
        rw [List.countP_cons_of_neg (by simp [Event.accepted?])]
        exact countP_removedEvents_of_none q _ fun _ => rfl
      case finishedEvents =>
        rw [List.countP_cons_of_neg (by simp [Event.finished?])]
        exact countP_removedEvents_of_none q _ fun _ => rfl
      all_goals simp [phase, Phase.admitting?, Phase.held?, Phase.active?, Phase.failed?]
  | notFound phase missing =>
      refine ⟨{}, rfl, ?_⟩
      apply Flow.along_commit _ found
      case pending => exact congrArg (Multiset.countP _) (eq_of_notFound missing)
      all_goals simp [phase, Phase.admitting?, Phase.held?, Phase.active?, Phase.failed?]
  | @admitted own phase _ =>
      refine ⟨{ accepted := (q own.ticket).toNat }, rfl, ?_⟩
      apply Flow.along_commit _ found
      case pending =>
        show Multiset.countP _ (items (push c.members.jobs own)) + 0 + 0 = _
        rw [items_push, Multiset.countP_cons]
        cases q own.ticket <;> simp [System.pending]
      all_goals
        cases hq : q own.ticket <;>
          simp [phase, hq, Phase.admitting?, Phase.held?, Phase.active?, Phase.failed?,
            Event.accepted?, Event.removed?, Event.finished?]
  | @rejected own phase _ =>
      refine ⟨{ rejected := (q own.ticket).toNat }, rfl, ?_⟩
      apply Flow.along_commit _ found
      all_goals
        simp [phase, Phase.admitting?, Phase.held?, Phase.active?, Phase.failed?, System.pending]
  | @popped own job phase _ hTop =>
      refine ⟨{ popped := (q job.ticket).toNat }, rfl, ?_⟩
      apply Flow.along_commit _ found
      case pending =>
        show Multiset.countP _ (items (pop c.members.jobs)) + _ + 0 = _
        rw [System.pending, ← cons_items_pop c.members.jobs job hTop, Multiset.countP_cons]
        cases q job.ticket <;> simp
      all_goals
        simp [phase, Phase.admitting?, Phase.held?, Phase.active?, Phase.failed?, Event.accepted?,
          Event.removed?, Event.finished?]
  | @inserted task device phase =>
      refine ⟨{ started := (q task.job.ticket).toNat }, rfl, ?_⟩
      apply Flow.along_commit _ found
      all_goals
        simp [phase, Phase.admitting?, Phase.held?, Phase.active?, Phase.failed?, System.pending]
  | @noDevice task device phase _ =>
      refine ⟨{ failedHeld := (q task.job.ticket).toNat }, rfl, ?_⟩
      apply Flow.along_commit _ found
      all_goals
        simp [phase, Phase.admitting?, Phase.held?, Phase.active?, Phase.failed?, System.pending]
  | @finished task phase =>
      refine ⟨{ finished := (q task.job.ticket).toNat }, rfl, ?_⟩
      apply Flow.along_commit _ found
      all_goals
        cases hq : q task.job.ticket <;>
          simp [phase, hq, Phase.admitting?, Phase.held?, Phase.active?, Phase.failed?,
            System.pending, Event.accepted?, Event.removed?, Event.finished?]
  | posted phase | starved phase _ _ | busy phase _ _ | acquired phase _ _ | answered phase
  | released phase _ =>
      refine ⟨{}, rfl, ?_⟩
      apply Flow.along_commit _ found
      all_goals
        simp [phase, Phase.admitting?, Phase.held?, Phase.active?, Phase.failed?, System.pending,
          Job.ticket]

theorem flow_of_raises (q : Job.Ticket → Bool) {c : System Queue} {i : Nat} {call : Call}
    {task : Task} (what : String) (found : c.calls[i]? = some call) (raises : Raises call task) :
    ∃ flow : Flow q, flow.arrived = 0 ∧
      flow.Along c (c.commit i c.members (call.fail (.failed task) what) []) := by
  cases raises with
  | acquired phase =>
      refine ⟨{ failedHeld := (q task.job.ticket).toNat }, rfl, ?_⟩
      apply Flow.along_commit _ found
      all_goals
        simp [phase, Phase.admitting?, Phase.held?, Phase.active?, Phase.failed?, System.pending]
  | active phase | answered phase | released phase =>
      refine ⟨{ failedActive := (q task.job.ticket).toNat }, rfl, ?_⟩
      apply Flow.along_commit _ found
      all_goals
        simp [phase, Phase.admitting?, Phase.held?, Phase.active?, Phase.failed?, System.pending]

theorem flow_of_arrive (q : Job.Ticket → Bool) (env : Environment) (c : System Queue)
    (body : String) :
    ∃ flow : Flow q, flow.Along c (c.arrive env body) ∧ (flow.arrived = 0 ∨
      ∃ own : Job, own.jobId = c.jobIdDispenser ∧ constructsJob env body = true ∧
        flow.arrived = (q own.ticket).toNat) := by
  have hArrives := arrives env c.jobIdDispenser body
  have hCalls := System.callsAt_arrive c env body
  have hPending : (c.arrive env body).pending q = c.pending q := by
    rw [System.pending, System.arrive_members, System.pending]
  have hAccepted := @System.eventsOf_arrive _ c env body Event.accepted? (fun _ => rfl) q
  have hRemoved := @System.eventsOf_arrive _ c env body Event.removed? (fun _ => rfl) q
  have hFinished := @System.eventsOf_arrive _ c env body Event.finished? (fun _ => rfl) q
  generalize Call.handleRequestAsync env c.jobIdDispenser body = arrived at hArrives hCalls
  cases hArrives with
  | admitting own id constructs =>
      refine ⟨{ arrived := (q own.ticket).toNat }, ?_, .inr ⟨own, id, constructs, rfl⟩⟩
      constructor <;> simp [hCalls, hPending, hAccepted, hRemoved, hFinished, Phase.admitting?,
        Phase.held?, Phase.active?, Phase.failed?]
  | answered _ _ _ | cancelling _ | escaped _ =>
      refine ⟨{}, ?_, .inl rfl⟩
      constructor <;> simp [hCalls, hPending, hAccepted, hRemoved, hFinished, Phase.admitting?,
        Phase.held?, Phase.active?, Phase.failed?]

theorem flow_of_clear (q : Job.Ticket → Bool) (env : Environment) (c : System Queue) :
    ∃ flow : Flow q, flow.arrived = 0 ∧ flow.Along c (c.clear env) := by
  by_cases hControl : env.config.server.allowControl = true
  · have hTrace : (c.clear env).trace =
        .cleared :: (removedEvents (drain c.members.jobs) ++ c.trace) := by
      simp [System.clear, hControl]
    have hDropped : (drain c.members.jobs).countP (fun job => q job.ticket) = c.pending q := by
      rw [System.pending, ← coe_drain, Multiset.coe_countP]
      simp
    refine ⟨{ removed := c.pending q }, rfl, ?_⟩
    constructor
    case pending =>
      rw [System.pending, System.clear_members, System.items_handleQueueDeleteRequest]
      simp [hControl]
    case removedEvents =>
      rw [System.eventsOf, hTrace, List.countP_cons_of_neg (by simp [Event.removed?]),
        List.countP_append, countP_removedEvents, hDropped, Nat.add_comm]
      rfl
    case acceptedEvents =>
      rw [System.eventsOf, hTrace, List.countP_cons_of_neg (by simp [Event.accepted?]),
        List.countP_append, countP_removedEvents_of_none q _ fun _ => rfl, Nat.zero_add]
      rfl
    case finishedEvents =>
      rw [System.eventsOf, hTrace, List.countP_cons_of_neg (by simp [Event.finished?]),
        List.countP_append, countP_removedEvents_of_none q _ fun _ => rfl, Nat.zero_add]
      rfl
    all_goals simp [System.callsAt, System.clear_calls]
  · have hSame : c.clear env = c := by
      simp [System.clear, hControl, System.handleQueueDeleteRequest]
    rw [hSame]
    exact ⟨{}, rfl, ⟨rfl, rfl, rfl, rfl, rfl, rfl, rfl, rfl⟩⟩

/-- Every step moves jobs along the edges of the graph. A job enters it with the
id that the dispenser holds. -/
theorem flow_of_step (q : Job.Ticket → Bool) {env : Environment} {c next : System Queue}
    {action : Action} (hStep : Step env c action next) :
    ∃ flow : Flow q, flow.Along c next ∧ (flow.arrived = 0 ∨
      ∃ body, ∃ own : Job, action = .request body ∧ own.jobId = c.jobIdDispenser ∧
        constructsJob env body = true ∧ flow.arrived = (q own.ticket).toNat) := by
  cases hStep with
  | request body =>
      obtain ⟨flow, hAlong, hArrived⟩ := flow_of_arrive q env c body
      refine ⟨flow, hAlong, hArrived.imp_right ?_⟩
      rintro ⟨own, hId, hConstructs, hOne⟩
      exact ⟨body, own, rfl, hId, hConstructs, hOne⟩
  | clear =>
      obtain ⟨flow, hNone, hAlong⟩ := flow_of_clear q env c
      exact ⟨flow, hAlong, .inl hNone⟩
  | proceed found moves =>
      obtain ⟨flow, hNone, hAlong⟩ := flow_of_moves q found moves
      exact ⟨flow, hAlong, .inl hNone⟩
  | raise what found raises =>
      obtain ⟨flow, hNone, hAlong⟩ := flow_of_raises q what found raises
      exact ⟨flow, hAlong, .inl hNone⟩

/-- No job is lost or duplicated: what was accepted is pending, held, active,
finished, removed, or was dropped by an exception. -/
theorem conserved {env : Environment} {guard : System Queue → Action → Prop} {c : System Queue}
    (run : Reaches (System.step env) guard (System.initial env) c) (q : Job.Ticket → Bool) :
    c.eventsOf Event.accepted? q = c.pending q + c.callsAt Phase.held? q +
      c.callsAt Phase.active? q + c.eventsOf Event.finished? q + c.eventsOf Event.removed? q +
      c.callsAt Phase.failed? q := by
  refine run.invariant (fun c => c.eventsOf Event.accepted? q = c.pending q +
    c.callsAt Phase.held? q + c.callsAt Phase.active? q + c.eventsOf Event.finished? q +
    c.eventsOf Event.removed? q + c.callsAt Phase.failed? q) ?_ ?_
  · simp [System.initial, System.eventsOf, System.pending, System.callsAt]
  · intro c action next _ ih _ hStep
    obtain ⟨flow, hAlong, -⟩ := flow_of_step q (step_cases hStep)
    have := hAlong.pending
    have := hAlong.held
    have := hAlong.active
    have := hAlong.failed
    have := hAlong.acceptedEvents
    have := hAlong.removedEvents
    have := hAlong.finishedEvents
    omega

theorem constructed_removedEvents (dropped : List Job) :
    ∀ event ∈ removedEvents dropped, event.constructed? = none := by
  intro event hEvent
  obtain ⟨job, -, rfl⟩ := List.mem_map.mp hEvent
  rfl

/-- The dispenser moves only when a request constructs a job. -/
theorem created_of_step {env : Environment} {c next : System Queue} {action : Action}
    (hStep : Step env c action next) :
    (∃ body, action = .request body ∧ constructsJob env body = true ∧
      next.created = c.jobIdDispenser :: c.created ∧
      next.jobIdDispenser = c.jobIdDispenser + 1) ∨
    (∀ body, action = .request body → constructsJob env body = false) ∧
      next.created = c.created ∧ next.jobIdDispenser = c.jobIdDispenser := by
  cases hStep with
  | request body =>
      rw [System.created_arrive, System.jobIdDispenser_arrive]
      cases hConstructs : constructsJob env body with
      | true => exact .inl ⟨body, rfl, hConstructs, rfl, rfl⟩
      | false => exact .inr ⟨by rintro _ ⟨⟩; exact hConstructs, rfl, rfl⟩
  | clear =>
      refine .inr ⟨by simp, ?_, System.clear_jobIdDispenser c env⟩
      unfold System.created System.clear
      split
      · rw [List.filterMap_cons_none rfl, List.filterMap_append,
          List.filterMap_eq_nil_iff.mpr (constructed_removedEvents _), List.nil_append]
      · rfl
  | proceed found moves =>
      refine .inr ⟨by simp, System.created_commit _ _ _ _ ?_, rfl⟩
      cases moves with
      | cancelled phase _ => exact List.forall_mem_cons.mpr ⟨rfl, constructed_removedEvents _⟩
      | _ => simp [Event.constructed?]
  | raise what found raises =>
      exact .inr ⟨by simp, System.created_commit _ _ _ _ (by simp), rfl⟩

theorem created_length_le {env : Environment}
    {c next : System Queue} {action : Action} (hStep : Step env c action next) :
    c.created.length ≤ next.created.length := by
  rcases created_of_step hStep with ⟨_, -, -, hNew, -⟩ | ⟨-, hSame, -⟩
  · rw [hNew, List.length_cons]
    omega
  · rw [hSame]

/-- The dispenser counts the jobs, modulo the width of its type. -/
structure Dispensed (c : System Queue) : Prop where
  created : c.created.reverse =
    (List.range c.created.length).map fun k => UInt32.ofNat (k + 1)
  next : c.jobIdDispenser = UInt32.ofNat (c.created.length + 1)

namespace Dispensed

variable {c next : System Queue}

omit [PriorityQueue Queue Job Job.comparator] in
/-- It has handed out one more id. -/
theorem construct (h : Dispensed c) (hNew : next.created = c.jobIdDispenser :: c.created)
    (hNext : next.jobIdDispenser = c.jobIdDispenser + 1) : Dispensed next where
  created := by
    rw [hNew, List.reverse_cons, h.created, List.length_cons, List.range_succ, List.map_append,
      h.next]
    rfl
  next := by
    rw [hNew, hNext, h.next, List.length_cons, ← UInt32.ofNat_one, ← UInt32.ofNat_add]

theorem initial (env : Environment) : Dispensed (System.initial env : System Queue) := ⟨rfl, rfl⟩

theorem step (h : Dispensed c) {env : Environment} {action : Action}
    (hStep : Step env c action next) : Dispensed next := by
  rcases created_of_step hStep with ⟨_, -, -, hNew, hNext⟩ | ⟨-, hSame, hNext⟩
  · exact h.construct hNew hNext
  · refine ⟨?_, ?_⟩
    · rw [hSame]
      exact h.created
    · rw [hSame, hNext]
      exact h.next

omit [PriorityQueue Queue Job Job.comparator] in
/-- Jobs have different ids as long as the dispenser has not wrapped. -/
theorem nodup (h : Dispensed c) (hFew : c.created.length < 2 ^ 32) : c.created.Nodup := by
  rw [← List.nodup_reverse, h.created]
  refine List.Nodup.map_on ?_ List.nodup_range
  intro j hj k hk hSame
  rw [List.mem_range] at hj hk
  have hNat := congrArg UInt32.toNat hSame
  simp only [UInt32.toNat_ofNat'] at hNat
  omega

end Dispensed

theorem dispensed {env : Environment} {guard : System Queue → Action → Prop} {c : System Queue}
    (run : Reaches (System.step env) guard (System.initial env) c) : Dispensed c := by
  apply run.invariant Dispensed (Dispensed.initial env)
  intro c action next _ ih _ hStep
  exact ih.step (step_cases hStep)

theorem created_nodup {env : Environment} {guard : System Queue → Action → Prop} {c : System Queue}
    (run : Reaches (System.step env) guard (System.initial env) c)
    (hFew : c.created.length < 2 ^ 32) : c.created.Nodup :=
  (dispensed run).nodup hFew

/-- A step moves jobs with an id along the edges, and one enters the graph only if
the id is taken from the dispenser. -/
theorem flow_of_id (jobId : UInt32) {env : Environment} {c next : System Queue} {action : Action}
    (hStep : Step env c action next) :
    ∃ flow : Flow (withId jobId), flow.Along c next ∧
      flow.arrived + c.created.count jobId ≤ next.created.count jobId := by
  obtain ⟨flow, hAlong, hArrived⟩ := flow_of_step (withId jobId) hStep
  refine ⟨flow, hAlong, ?_⟩
  rcases created_of_step hStep with ⟨body, hAction, -, hNew, -⟩ | ⟨hNone, hSame, -⟩
  · rw [hNew, List.count_cons]
    rcases hArrived with hZero | ⟨_, own, -, hId, -, hOne⟩
    · omega
    · rw [withId, Job.ticket_jobId, hId] at hOne
      by_cases hSame : c.jobIdDispenser = jobId
      · simp [hSame] at hOne ⊢
        omega
      · simp [hSame] at hOne ⊢
        omega
  · rw [hSame]
    rcases hArrived with hZero | ⟨body, own, hAction, -, hConstructs, -⟩
    · omega
    · simp [hNone body hAction] at hConstructs

/-- A job is admitted or accepted with an id taken from the dispenser. -/
theorem accepted_le_created {env : Environment} {guard : System Queue → Action → Prop}
    {c : System Queue} (run : Reaches (System.step env) guard (System.initial env) c)
    (jobId : UInt32) :
    c.callsAt Phase.admitting? (withId jobId) +
        c.eventsOf Event.accepted? (withId jobId) ≤
      c.created.count jobId := by
  refine run.invariant (fun c => c.callsAt Phase.admitting? (withId jobId) +
      c.eventsOf Event.accepted? (withId jobId) ≤
    c.created.count jobId) ?_ ?_
  · simp [System.initial, System.callsAt, System.eventsOf]
  · intro c action next _ ih _ hStep
    obtain ⟨flow, hAlong, hArrived⟩ := flow_of_id jobId (step_cases hStep)
    have hAdmitting := hAlong.admitting
    have hAccepted := hAlong.acceptedEvents
    omega

/-- The job that a call holds as its own is the one that it pushed. -/
theorem accepted_of_own {env : Environment} {guard : System Queue → Action → Prop}
    {c : System Queue} (run : Reaches (System.step env) guard (System.initial env) c) :
    ∀ i call, c.calls[i]? = some call → ∀ own, call.phase.own? = some own →
      .accepted i own ∈ c.trace := by
  apply history_invariant run fun trace i call => ∀ own, call.phase.own? = some own →
    Event.accepted i own ∈ trace
  · intro events trace i call h own hOwn
    exact List.mem_append_right events (h own hOwn)
  · intro trace i jobId body call _ hArrives own hOwn
    cases hArrives <;> simp [Phase.own?] at hOwn
  · intro c i now call members next events _ _ _ h moves own hOwn
    apply List.mem_append.mpr
    cases moves with
    | admitted phase _ => simp_all [Phase.own?]
    | cancelled phase _ | notFound phase _ | rejected phase _ => simp [Phase.own?] at hOwn
    | posted phase | popped phase _ _ | starved phase _ _ | busy phase _ _ | acquired phase _ _
    | noDevice phase _ | inserted phase | answered phase | released phase _ | finished phase =>
        exact .inr (h own (by simpa [phase, Phase.own?] using hOwn))
  · intro c i call task what _ _ h raises own hOwn
    apply h
    cases raises <;> simpa [*, Phase.own?] using hOwn

/-- A job is accepted as its call pushes it. -/
theorem accepted_of_step {env : Environment} {c next : System Queue} {action : Action}
    (hStep : Step env c action next) {i : Nat} {job : Job}
    (hEvent : .accepted i job ∈ next.trace) :
    .accepted i job ∈ c.trace ∨ (job ∈ items next.members.jobs ∧
      ∃ call, next.calls[i]? = some call ∧ call.phase.own? = some job) := by
  cases hStep with
  | request body =>
      refine .inl ?_
      unfold System.arrive at hEvent
      split at hEvent
      · simpa using hEvent
      · exact hEvent
  | clear =>
      refine .inl ?_
      unfold System.clear at hEvent
      split at hEvent
      · simpa [removedEvents] using hEvent
      · exact hEvent
  | raise => exact .inl hEvent
  | @proceed j now call after members events found moves =>
      rw [System.commit_trace, List.mem_append] at hEvent
      cases moves with
      | @admitted own phase _ =>
          rcases hEvent with hNew | hOld
          · simp only [List.mem_singleton, Event.accepted.injEq] at hNew
            obtain ⟨rfl, rfl⟩ := hNew
            exact .inr ⟨by simp [pushJob], _,
              System.getElem?_commit_self _ _ _ (found ▸ rfl), rfl⟩
          · exact .inl hOld
      | cancelled phase _ | notFound phase _ | rejected phase _ | posted phase | popped phase _ _
      | starved phase _ _ | busy phase _ _ | acquired phase _ _ | noDevice phase _
      | inserted phase | answered phase | released phase _ | finished phase =>
          exact .inl (by simpa [removedEvents] using hEvent)

/-- A call has pushed exactly the job that it was accepted with, and keeps it as
its own. -/
theorem own_of_accepted {env : Environment} {guard : System Queue → Action → Prop}
    {c : System Queue} (run : Reaches (System.step env) guard (System.initial env) c) {i : Nat}
    {job : Job} (hEvent : .accepted i job ∈ c.trace) :
    ∃ call, c.calls[i]? = some call ∧ call.phase.own? = some job := by
  revert hEvent
  refine run.invariant (fun c => .accepted i job ∈ c.trace →
    ∃ call, c.calls[i]? = some call ∧ call.phase.own? = some job) ?_ ?_
  · simp [System.initial]
  · intro c action next _ ih _ hStep hEvent
    rcases accepted_of_step (step_cases hStep) hEvent with hOld | ⟨-, call, hCall, hOwn⟩
    · obtain ⟨call, hCall, hOwn⟩ := ih hOld
      rcases call_of_step (step_cases hStep) hCall with
        hStays | ⟨now, members, after, events, hMoves, -, rfl⟩ | ⟨task, what, hRaises, -, rfl⟩
      · exact ⟨call, hStays, hOwn⟩
      · refine ⟨after, System.getElem?_commit_self _ _ _ (hCall ▸ rfl), ?_⟩
        cases hMoves <;> simp_all [Phase.own?]
      · refine ⟨_, System.getElem?_commit_self _ _ _ (hCall ▸ rfl), ?_⟩
        cases hRaises <;> simp_all [Phase.own?]
    · exact ⟨call, hCall, hOwn⟩

end NanoPowServer.WorkHandler
