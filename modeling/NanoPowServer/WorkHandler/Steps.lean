import NanoPowServer.WorkHandler.System

/-! What each step of the system can do. Invariants are proved by cases on
these relations and never unfold the step function. -/
namespace NanoPowServer.WorkHandler

open PriorityQueue

variable {Queue : Type}

namespace Call

variable (call : Call) (phase : Phase) (response : Ptree) (what : String)

@[simp] theorem goto_phase : (call.goto phase).phase = phase := rfl

@[simp] theorem answer_phase : (call.answer phase response).phase = phase := rfl

@[simp] theorem fail_phase : (call.fail phase what).phase = phase := rfl

@[simp] theorem goto_responses : (call.goto phase).responses = call.responses := rfl

@[simp] theorem answer_responses :
    (call.answer phase response).responses = call.responses ++ [response] := rfl

@[simp] theorem fail_responses :
    (call.fail phase what).responses =
      call.responses ++ [createErrorResponse call.correlationId what] := rfl

end Call

namespace System

variable (c : System Queue) (i : Nat) (members : Members Queue) (call : Call)
  (events : List Event)

@[simp] theorem commit_members : (c.commit i members call events).members = members := rfl

@[simp] theorem commit_calls : (c.commit i members call events).calls = c.calls.set i call := rfl

@[simp] theorem commit_trace : (c.commit i members call events).trace = events ++ c.trace := rfl

@[simp] theorem commit_jobIdDispenser :
    (c.commit i members call events).jobIdDispenser = c.jobIdDispenser := rfl

variable (env : Environment) (body : String)

@[simp] theorem arrive_members : (c.arrive env body).members = c.members := by
  unfold arrive
  split <;> rfl

@[simp] theorem arrive_calls :
    (c.arrive env body).calls = c.calls ++ [Call.handleRequestAsync env c.jobIdDispenser body] := by
  unfold arrive
  split <;> rfl

theorem arrive_trace : ∃ events, (c.arrive env body).trace = events ++ c.trace := by
  unfold arrive
  split
  · exact ⟨[.constructed c.jobIdDispenser], rfl⟩
  · exact ⟨[], rfl⟩

variable {c i}

theorem getElem?_commit_self (found : (c.calls[i]?).isSome) :
    (c.commit i members call events).calls[i]? = some call := by
  obtain ⟨old, hOld⟩ := Option.isSome_iff_exists.mp found
  obtain ⟨hBound, -⟩ := List.getElem?_eq_some_iff.mp hOld
  simp [hBound]

theorem getElem?_commit_ne {j : Nat} (hne : i ≠ j) :
    (c.commit i members call events).calls[j]? = c.calls[j]? := by
  simp [hne]

theorem countP_commit (p : Call → Bool) {old : Call} (found : c.calls[i]? = some old) :
    (c.commit i members call events).calls.countP p + (p old).toNat =
      c.calls.countP p + (p call).toNat :=
  List.countP_set_add p found call

theorem countP_arrive (p : Call → Bool) :
    (c.arrive env body).calls.countP p =
      c.calls.countP p + (p (Call.handleRequestAsync env c.jobIdDispenser body)).toNat := by
  rw [arrive_calls, List.countP_append]
  cases hp : p (Call.handleRequestAsync env c.jobIdDispenser body) <;> simp [hp]

end System

variable [PriorityQueue Queue Job Job.comparator]

/-- The next step of a call, with one constructor for each branch of the
source. The members, the call and the events after the step are determined. -/
inductive Moves (env : Environment) (c : System Queue) (i : Nat) (now : Nat) (call : Call) :
    Members Queue → Call → List Event → Prop where
  | cancelled {rootHash} (phase : call.phase = .cancelling rootHash)
      (found : ∃ job ∈ items c.members.jobs, hasHash rootHash job = true) :
      Moves env c i now call { c.members with jobs := (removeJob c.members.jobs rootHash).1 }
        (call.answer .returned
          (attachCorrelationId call.correlationId (Ptree.put "status" "cancelled" [])))
        (.cancelled rootHash ::
          removedEvents ((drain c.members.jobs).filter (hasHash rootHash)))
  | notFound {rootHash} (phase : call.phase = .cancelling rootHash)
      (missing : ∀ job ∈ items c.members.jobs, hasHash rootHash job = false) :
      Moves env c i now call { c.members with jobs := (removeJob c.members.jobs rootHash).1 }
        (call.fail .returned "Hash not found in work queue") []
  | admitted {own} (phase : call.phase = .admitting own)
      (room : size c.members.jobs < env.config.server.requestLimit.toNat) :
      Moves env c i now call { c.members with jobs := pushJob c.members.jobs own }
        (call.goto (.pushed own)) [.accepted i own]
  | rejected {own} (phase : call.phase = .admitting own)
      (full : env.config.server.requestLimit.toNat ≤ size c.members.jobs) :
      Moves env c i now call c.members (call.fail .returned "Work request limit exceeded") []
  | posted {own} (phase : call.phase = .pushed own) :
      Moves env c i now call c.members (call.goto (.posted own)) []
  | popped {own job} (phase : call.phase = .posted own)
      (thread : c.running < env.config.devices.length) (next : top c.members.jobs = some job) :
      Moves env c i now call { c.members with jobs := pop c.members.jobs }
        (call.goto (.scanning ⟨own, job⟩ 0)) [.popped i job]
  | starved {own} (phase : call.phase = .posted own)
      (thread : c.running < env.config.devices.length) (next : top c.members.jobs = none) :
      Moves env c i now call c.members (call.fail (.starved own) "No jobs available") []
  | busy {task next device} (phase : call.phase = .scanning task next)
      (found : c.members.devices[next]? = some device) (taken : device.busy = true) :
      Moves env c i now call
        { c.members with devices := c.members.devices.set next device.tryAquire.2 }
        (call.goto (.scanning task (next + 1))) []
  | acquired {task next device} (phase : call.phase = .scanning task next)
      (found : c.members.devices[next]? = some device) (free : device.busy = false) :
      Moves env c i now call
        { c.members with devices := c.members.devices.set next device.tryAquire.2 }
        (call.goto (.acquired task next)) []
  | noDevice {task next} (phase : call.phase = .scanning task next)
      (beyond : c.members.devices[next]? = none) :
      Moves env c i now call c.members (call.fail (.failed task) "No available devices") []
  | inserted {task device} (phase : call.phase = .acquired task device) :
      Moves env c i now call
        { c.members with
          activeJobs := OrderedSet.insert
            (activeBefore env (c.calls.set i
              (call.goto (.active { task with job := task.job.start now } device))))
            i c.members.activeJobs }
        (call.goto (.active { task with job := task.job.start now } device)) []
  | answered {task device} (phase : call.phase = .active task device) :
      Moves env c i now call c.members
        (call.answer
          (.answered { task with job := { task.job with result := mockResult env } } device)
          (workResponse env call.correlationId (mockResult env))) []
  | released {task device held} (phase : call.phase = .answered task device)
      (found : c.members.devices[device]? = some held) :
      Moves env c i now call
        { c.members with devices := c.members.devices.set device held.release.2 }
        (call.goto (.released task)) []
  | finished {task} (phase : call.phase = .released task) :
      Moves env c i now call
        { c.members with
          activeJobs := OrderedSet.erase (activeBefore env c.calls) i c.members.activeJobs
          completedJobs :=
            CircularBuffer.pushBack 128 c.members.completedJobs (task.job.stop now) }
        (call.goto (.finished { task with job := task.job.stop now }))
        [.finished (task.job.stop now)]

theorem moves_of_proceed {env : Environment} {c : System Queue} {i now : Nat} {call next : Call}
    {members : Members Queue} {events : List Event}
    (h : call.proceed env c i now = some (members, next, events)) :
    Moves env c i now call members next events := by
  unfold Call.proceed at h
  cases hPhase : call.phase with
  | cancelling rootHash =>
      cases hFound : (removeJob c.members.jobs rootHash).2 with
      | true =>
          simp only [hPhase, hFound, if_true, Option.some.injEq, Prod.mk.injEq] at h
          obtain ⟨rfl, rfl, rfl⟩ := h
          exact .cancelled hPhase ((removeJob_eq_true_iff _ _).mp hFound)
      | false =>
          simp only [hPhase, hFound, Bool.false_eq_true, if_false, Option.some.injEq,
            Prod.mk.injEq] at h
          obtain ⟨rfl, rfl, rfl⟩ := h
          refine .notFound hPhase fun job hJob => ?_
          by_contra hHash
          have hTrue := (removeJob_eq_true_iff _ rootHash).mpr ⟨job, hJob, by simpa using hHash⟩
          simp [hFound] at hTrue
  | admitting own =>
      by_cases hRoom : size c.members.jobs < env.config.server.requestLimit.toNat
      · simp only [hPhase, hRoom, if_true, Option.some.injEq, Prod.mk.injEq] at h
        obtain ⟨rfl, rfl, rfl⟩ := h
        exact .admitted hPhase hRoom
      · simp only [hPhase, hRoom, if_false, Option.some.injEq, Prod.mk.injEq] at h
        obtain ⟨rfl, rfl, rfl⟩ := h
        exact .rejected hPhase (Nat.le_of_not_lt hRoom)
  | pushed own =>
      simp only [hPhase, Option.some.injEq, Prod.mk.injEq] at h
      obtain ⟨rfl, rfl, rfl⟩ := h
      exact .posted hPhase
  | posted own =>
      by_cases hThread : c.running < env.config.devices.length
      · cases hTop : top c.members.jobs with
        | some job =>
            simp only [hPhase, hThread, if_true, popJob_of_top hTop, Option.some.injEq,
              Prod.mk.injEq] at h
            obtain ⟨rfl, rfl, rfl⟩ := h
            exact .popped hPhase hThread hTop
        | none =>
            simp only [hPhase, hThread, if_true, popJob_of_top_none hTop, Option.some.injEq,
              Prod.mk.injEq] at h
            obtain ⟨rfl, rfl, rfl⟩ := h
            exact .starved hPhase hThread hTop
      · simp [hPhase, hThread] at h
  | scanning task device =>
      cases hFound : c.members.devices[device]? with
      | some held =>
          cases hBusy : held.busy with
          | true =>
              simp only [hPhase, hFound, RegisteredDevice.tryAquire, hBusy, if_true,
                Option.some.injEq, Prod.mk.injEq] at h
              obtain ⟨rfl, rfl, rfl⟩ := h
              exact .busy hPhase hFound hBusy
          | false =>
              simp only [hPhase, hFound, RegisteredDevice.tryAquire, hBusy, Bool.false_eq_true,
                if_false, Option.some.injEq, Prod.mk.injEq] at h
              obtain ⟨rfl, rfl, rfl⟩ := h
              exact .acquired hPhase hFound hBusy
      | none =>
          simp only [hPhase, hFound, Option.some.injEq, Prod.mk.injEq] at h
          obtain ⟨rfl, rfl, rfl⟩ := h
          exact .noDevice hPhase hFound
  | acquired task device =>
      simp only [hPhase, Option.some.injEq, Prod.mk.injEq] at h
      obtain ⟨rfl, rfl, rfl⟩ := h
      exact .inserted hPhase
  | active task device =>
      simp only [hPhase, Option.some.injEq, Prod.mk.injEq] at h
      obtain ⟨rfl, rfl, rfl⟩ := h
      exact .answered hPhase
  | answered task device =>
      cases hFound : c.members.devices[device]? with
      | some held =>
          simp only [hPhase, hFound, Option.some.injEq, Prod.mk.injEq] at h
          obtain ⟨rfl, rfl, rfl⟩ := h
          exact .released hPhase hFound
      | none => simp [hPhase, hFound] at h
  | released task =>
      simp only [hPhase, Option.some.injEq, Prod.mk.injEq] at h
      obtain ⟨rfl, rfl, rfl⟩ := h
      exact .finished hPhase
  | returned => simp [hPhase] at h
  | escaped exception => simp [hPhase] at h
  | finished task => simp [hPhase] at h
  | starved own => simp [hPhase] at h
  | failed task => simp [hPhase] at h

/-- The point of the try block at which an exception was raised. -/
inductive Raises (call : Call) (task : Task) : Prop where
  | acquired {device} (phase : call.phase = .acquired task device)
  | active {device} (phase : call.phase = .active task device)
  | answered {device} (phase : call.phase = .answered task device)
  | released (phase : call.phase = .released task)

theorem raises_of_raise {call next : Call} {what : String} (h : call.raise what = some next) :
    ∃ task, Raises call task ∧ next = call.fail (.failed task) what := by
  unfold Call.raise at h
  cases hPhase : call.phase with
  | acquired task device =>
      exact ⟨task, .acquired hPhase, by simpa [hPhase, eq_comm] using h⟩
  | active task device => exact ⟨task, .active hPhase, by simpa [hPhase, eq_comm] using h⟩
  | answered task device => exact ⟨task, .answered hPhase, by simpa [hPhase, eq_comm] using h⟩
  | released task => exact ⟨task, .released hPhase, by simpa [hPhase, eq_comm] using h⟩
  | _ => simp [hPhase] at h

/-- One step of the system. -/
inductive Step (env : Environment) (c : System Queue) : Action → System Queue → Prop where
  | request (body : String) : Step env c (.request body) (c.arrive env body)
  | clear : Step env c .clear (c.clear env)
  | proceed {i now : Nat} {call next : Call} {members : Members Queue} {events : List Event}
      (found : c.calls[i]? = some call) (moves : Moves env c i now call members next events) :
      Step env c (.proceed i now) (c.commit i members next events)
  | raise {i : Nat} {call : Call} {task : Task} (what : String) (found : c.calls[i]? = some call)
      (raises : Raises call task) :
      Step env c (.raise i what) (c.commit i c.members (call.fail (.failed task) what) [])

theorem step_cases {env : Environment} {c next : System Queue} {action : Action}
    (h : c.step env action = some next) : Step env c action next := by
  cases action with
  | request body =>
      obtain rfl : c.arrive env body = next := by simpa [System.step] using h
      exact .request body
  | clear =>
      obtain rfl : c.clear env = next := by simpa [System.step] using h
      exact .clear
  | proceed i now =>
      obtain ⟨call, hCall, hNext⟩ := Option.bind_eq_some_iff.mp h
      obtain ⟨⟨members, after, events⟩, hMoves, rfl⟩ := Option.map_eq_some_iff.mp hNext
      exact .proceed hCall (moves_of_proceed hMoves)
  | raise i what =>
      obtain ⟨call, hCall, hNext⟩ := Option.bind_eq_some_iff.mp h
      obtain ⟨after, hRaise, rfl⟩ := Option.map_eq_some_iff.mp hNext
      obtain ⟨task, hRaises, rfl⟩ := raises_of_raise hRaise
      exact .raise what hCall hRaises

/-- A call right after it was made. It has answered without touching the queue,
is about to take its turn at `jobs_mutex`, or has let an exception escape. -/
inductive Arrives (env : Environment) (jobId : UInt32) (body : String) : Call → Prop where
  | answered (response : Ptree) (id : response.getOptional "id" = correlationIdOf env body)
      (work : response.getOptional "work" = none) :
      Arrives env jobId body ⟨body, correlationIdOf env body, .returned, [response]⟩
  | admitting (own : Job) (id : own.jobId = jobId) (constructs : constructsJob env body = true) :
      Arrives env jobId body ⟨body, correlationIdOf env body, .admitting own, []⟩
  | cancelling (rootHash : U256) :
      Arrives env jobId body ⟨body, correlationIdOf env body, .cancelling rootHash, []⟩
  | escaped (exception : Exception) :
      Arrives env jobId body ⟨body, correlationIdOf env body, .escaped exception, []⟩

theorem arrives (env : Environment) (jobId : UInt32) (body : String) :
    Arrives env jobId body (Call.handleRequestAsync env jobId body) := by
  unfold Call.handleRequestAsync
  cases hJson : env.readJson body with
  | error what => exact .answered _ (createErrorResponse_id _ _) (createErrorResponse_work _ _)
  | ok request =>
      dsimp only
      cases hDispatch : dispatch env jobId request with
      | error exception =>
          cases exception with
          | runtimeError what =>
              exact .answered _ (createErrorResponse_id _ _) (createErrorResponse_work _ _)
          | outOfRange what => exact .escaped _
      | ok dispatched =>
          cases dispatched with
          | admitting own =>
              obtain ⟨hAction, hDevices, hJob⟩ := dispatch_admitting hDispatch
              refine .admitting own (workGenerate_jobId hJob) ?_
              simp [constructsJob, hJson, hAction, hDevices]
          | cancelling rootHash => exact .cancelling rootHash
          | answering response =>
              obtain ⟨hId, hWork⟩ := workValidate_fields (dispatch_answering hDispatch)
              refine .answered _ (getOptional_attachCorrelationId_id hId _) ?_
              rw [getOptional_attachCorrelationId (by decide), hWork]

namespace System

variable (c : System Queue) (env : Environment)

@[simp] theorem clear_calls : (c.clear env).calls = c.calls := by
  unfold clear
  split <;> rfl

@[simp] theorem clear_jobIdDispenser : (c.clear env).jobIdDispenser = c.jobIdDispenser := by
  unfold clear
  split <;> rfl

@[simp] theorem clear_members :
    (c.clear env).members =
      { c.members with jobs := (handleQueueDeleteRequest env c.members.jobs).1 } := by
  unfold clear
  split <;> rfl

theorem clear_trace : ∃ events, (c.clear env).trace = events ++ c.trace := by
  unfold clear
  split
  · exact ⟨.cleared :: removedEvents (drain c.members.jobs), rfl⟩
  · exact ⟨[], rfl⟩

theorem items_handleQueueDeleteRequest (jobs : Queue) :
    items (handleQueueDeleteRequest env jobs).1 =
      if env.config.server.allowControl then 0 else items jobs := by
  unfold handleQueueDeleteRequest
  split <;> simp

end System

/-- The events of a step are added to the trace. -/
theorem trace_of_step {env : Environment} {c next : System Queue} {action : Action}
    (hStep : Step env c action next) : ∃ events, next.trace = events ++ c.trace := by
  cases hStep with
  | request body => exact System.arrive_trace c env body
  | clear => exact System.clear_trace c env
  | @proceed _ _ _ _ _ events => exact ⟨events, rfl⟩
  | raise => exact ⟨[], rfl⟩

/-- What a step does to one call: nothing, or it is the step of this call. -/
theorem call_of_step {env : Environment} {c next : System Queue} {action : Action} {i : Nat}
    {call : Call} (hStep : Step env c action next) (found : c.calls[i]? = some call) :
    next.calls[i]? = some call ∨
    (∃ now members after events, Moves env c i now call members after events ∧
      action = .proceed i now ∧ next = c.commit i members after events) ∨
    (∃ task what, Raises call task ∧ action = .raise i what ∧
      next = c.commit i c.members (call.fail (.failed task) what) []) := by
  cases hStep with
  | request body =>
      obtain ⟨hBound, -⟩ := List.getElem?_eq_some_iff.mp found
      rw [System.arrive_calls, List.getElem?_append_left hBound]
      exact .inl found
  | clear => exact .inl (by rw [System.clear_calls]; exact found)
  | @proceed j now other after members events hOther moves =>
      by_cases hSame : j = i
      · subst hSame
        obtain rfl : other = call := Option.some.inj (hOther.symm.trans found)
        exact .inr (.inl ⟨now, members, after, events, moves, rfl, rfl⟩)
      · exact .inl (by rw [System.getElem?_commit_ne _ _ _ hSame]; exact found)
  | @raise j other task what hOther raises =>
      by_cases hSame : j = i
      · subst hSame
        obtain rfl : other = call := Option.some.inj (hOther.symm.trans found)
        exact .inr (.inr ⟨task, what, raises, rfl, rfl⟩)
      · exact .inl (by rw [System.getElem?_commit_ne _ _ _ hSame]; exact found)

/-- Invariants of the single call and the events so far: they survive further
events, hold of every call that arrives and are kept by every step the guard
allows it. The step case may cite what is known of reached states. -/
theorem history_invariant {env : Environment} {guard : System Queue → Action → Prop}
    {c : System Queue}
    (run : Execution.Reaches (System.step env) guard (System.initial env) c)
    (P : List Event → Nat → Call → Prop)
    (hGrows : ∀ events trace i call, P trace i call → P (events ++ trace) i call)
    (hArrives : ∀ trace i jobId body call, Call.handleRequestAsync env jobId body = call →
      Arrives env jobId body call → P trace i call)
    (hMoves : ∀ (c : System Queue) i now call members next events,
      Execution.Reaches (System.step env) guard (System.initial env) c →
      guard c (.proceed i now) → c.calls[i]? = some call → P c.trace i call →
      Moves env c i now call members next events → P (events ++ c.trace) i next)
    (hRaises : ∀ (c : System Queue) i call task what, guard c (.raise i what) →
      c.calls[i]? = some call → P c.trace i call → Raises call task →
      P c.trace i (call.fail (.failed task) what)) :
    ∀ i call, c.calls[i]? = some call → P c.trace i call := by
  refine run.invariant (fun c => ∀ i call, c.calls[i]? = some call → P c.trace i call) ?_ ?_
  · intro i call hCall
    simp [System.initial] at hCall
  · intro c action next prior ih allowed hStep i call hCall
    cases step_cases hStep with
    | request body =>
        obtain ⟨events, hTrace⟩ := System.arrive_trace c env body
        rw [hTrace]
        rw [System.arrive_calls, List.getElem?_append] at hCall
        split at hCall
        · exact hGrows _ _ _ _ (ih i call hCall)
        · obtain rfl := List.mem_singleton.mp (List.mem_of_getElem? hCall)
          exact hArrives _ _ _ _ _ rfl (arrives env c.jobIdDispenser body)
    | clear =>
        obtain ⟨events, hTrace⟩ := System.clear_trace c env
        rw [hTrace]
        exact hGrows _ _ _ _ (ih i call (by simpa using hCall))
    | @proceed j _ _ _ _ _ found moves =>
        by_cases hSame : j = i
        · subst hSame
          rw [System.getElem?_commit_self _ _ _ (by simp [found])] at hCall
          obtain rfl := Option.some.inj hCall
          exact hMoves _ _ _ _ _ _ _ prior allowed found (ih _ _ found) moves
        · rw [System.getElem?_commit_ne _ _ _ hSame] at hCall
          exact hGrows _ _ _ _ (ih i call hCall)
    | @raise j _ _ _ found raises =>
        by_cases hSame : j = i
        · subst hSame
          rw [System.getElem?_commit_self _ _ _ (by simp [found])] at hCall
          obtain rfl := Option.some.inj hCall
          exact hRaises c _ _ _ _ allowed found (ih _ _ found) raises
        · rw [System.getElem?_commit_ne _ _ _ hSame] at hCall
          exact ih i call hCall

/-- The same rule for what concerns the call alone. -/
theorem calls_invariant {env : Environment} {guard : System Queue → Action → Prop}
    {c : System Queue}
    (run : Execution.Reaches (System.step env) guard (System.initial env) c) (P : Call → Prop)
    (hArrives : ∀ jobId body call, Call.handleRequestAsync env jobId body = call →
      Arrives env jobId body call → P call)
    (hMoves : ∀ (c : System Queue) i now call members next events,
      Execution.Reaches (System.step env) guard (System.initial env) c →
      guard c (.proceed i now) → c.calls[i]? = some call → P call →
      Moves env c i now call members next events → P next)
    (hRaises : ∀ (c : System Queue) i call task what, guard c (.raise i what) →
      c.calls[i]? = some call → P call → Raises call task → P (call.fail (.failed task) what)) :
    ∀ call ∈ c.calls, P call := by
  intro call hCall
  obtain ⟨i, hi⟩ := List.mem_iff_getElem?.mp hCall
  refine history_invariant run (fun _ _ call => P call) (fun _ _ _ _ h => h)
    (fun _ _ jobId body call => hArrives jobId body call) ?_ ?_ i call hi
  · intro c i now call members next events
    exact hMoves c i now call members next events
  · intro c i call task what
    exact hRaises c i call task what

end NanoPowServer.WorkHandler
