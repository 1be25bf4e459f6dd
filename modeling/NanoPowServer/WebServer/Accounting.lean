import NanoPowServer.WebServer.Delivery

/-! What becomes of the requests of a session: each one that is not an upgrade is kept
for a pool task or has its response put on the queue, and never both. -/
namespace NanoPowServer.WebServer

open Execution

/-- The numbers of the requests that are not upgrades. -/
def HttpSession.regular (session : HttpSession) : List Nat :=
  (List.range session.requests.length).filter fun number =>
    (session.requests[number]?).any fun request => !request.isUpgrade

theorem HttpSession.nodup_regular (session : HttpSession) : session.regular.Nodup :=
  List.nodup_range.filter _

section

variable {handlers : List Pattern} {session next : HttpSession}

/-- The request that has been read joins the others. -/
theorem regular_append {request : Request} (requests : next.requests = session.requests ++ [request]) :
    next.regular =
      session.regular ++ if request.isUpgrade then [] else [session.requests.length] := by
  unfold HttpSession.regular
  rw [requests, List.length_append, List.length_singleton, List.range_succ, List.filter_append]
  congr 1
  · apply List.filter_congr
    intro number hNumber
    rw [List.getElem?_append_left (List.mem_range.mp hNumber)]
  · cases hUpgrade : request.isUpgrade <;> simp [hUpgrade]

theorem regular_of_same (requests : next.requests = session.requests) :
    next.regular = session.regular := by
  unfold HttpSession.regular
  rw [requests]

/-- Where a request has been read, or a response put on the queue. -/
inductive Accounted (session : HttpSession) : Action → HttpSession → Prop where
  | upgrade {request : Request} {handling : Handling} {next : HttpSession}
      (isUpgrade : request.isUpgrade = true)
      (requests : next.requests = session.requests ++ [request])
      (deferred : next.deferred = session.deferred) (items : next.items = session.items)
      (enqueued : next.enqueued = session.enqueued) :
      Accounted session (.onRead request handling) next
  | respond {request : Request} {handling : Handling} {next : HttpSession} {response : Response}
      (noUpgrade : request.isUpgrade = false) (answers : handling ≠ .defer)
      (requests : next.requests = session.requests ++ [request])
      (deferred : next.deferred = session.deferred)
      (items : next.items = session.items ++ [response])
      (number : response.request = session.requests.length)
      (enqueued : next.enqueued = session.enqueued ++ [session.requests.length]) :
      Accounted session (.onRead request handling) next
  | defer {request : Request} {next : HttpSession} (noUpgrade : request.isUpgrade = false)
      (requests : next.requests = session.requests ++ [request])
      (deferred : next.deferred = session.deferred ++ [session.requests.length])
      (items : next.items = session.items) (enqueued : next.enqueued = session.enqueued) :
      Accounted session (.onRead request .defer) next
  | taskResponds {request : Nat} {body : String} {next : HttpSession} {response : Response}
      (kept : request ∈ session.deferred) (requests : next.requests = session.requests)
      (deferred : next.deferred = session.deferred.erase request)
      (items : next.items = session.items ++ [response]) (number : response.request = request)
      (enqueued : next.enqueued = session.enqueued ++ [request]) :
      Accounted session (.writeJsonResponse request body) next
  | own {action : Action} {next : HttpSession} (requests : next.requests = session.requests)
      (deferred : next.deferred = session.deferred) (items : next.items <:+ session.items)
      (enqueued : next.enqueued = session.enqueued) (reads : ∀ request handling,
        action ≠ .onRead request handling) : Accounted session action next

theorem accounted_of_step {action : Action} (hStep : Step handlers session action next) :
    Accounted session action next := by
  cases hStep with
  | upgrade request handling _ _ isUpgrade => exact .upgrade isUpgrade rfl rfl rfl rfl
  | respond request handling response _ _ noUpgrade sends answers =>
      have hAnswers : handling ≠ .defer := by
        rcases sends with ⟨body, rfl⟩ | ⟨body, rfl⟩ <;> exact fun h => nomatch h
      exact .respond noUpgrade hAnswers rfl rfl rfl answers (by simp [answers])
  | defer request _ _ noUpgrade => exact .defer noUpgrade rfl rfl rfl rfl
  | taskResponds request body response kept answers => exact .taskResponds kept rfl rfl rfl answers (by simp [answers])
  | wroteFull | wrote => exact .own rfl rfl (List.drop_suffix _ _) rfl (fun _ _ h => nomatch h)
  | pause | pipeline | readAborted | readEnded | readFailed | wroteLast | writeAborted
  | writeFailed | close => exact .own rfl rfl (List.suffix_refl _) rfl (fun _ _ h => nomatch h)

/-- Each request that is not an upgrade is kept or has been answered, and it is so once. -/
theorem partition_of_step {action : Action} (hStep : Step handlers session action next)
    (h : (session.deferred ++ session.enqueued).Perm session.regular) :
    (next.deferred ++ next.enqueued).Perm next.regular := by
  cases accounted_of_step hStep with
  | upgrade isUpgrade requests deferred _ enqueued =>
      rw [deferred, enqueued, regular_append requests, isUpgrade]
      simpa using h
  | respond noUpgrade _ requests deferred _ _ enqueued =>
      rw [deferred, enqueued, regular_append requests, noUpgrade, ← List.append_assoc]
      exact h.append_right _
  | defer noUpgrade requests deferred _ enqueued =>
      rw [deferred, enqueued, regular_append requests, noUpgrade]
      refine List.Perm.trans ?_ (h.append_right _)
      rw [List.append_assoc, List.append_assoc]
      exact List.perm_append_comm.append_left _
  | @taskResponds request _ _ _ kept requests deferred _ _ enqueued =>
      rw [deferred, enqueued, regular_of_same requests]
      refine List.Perm.trans ?_ h
      have hKept : session.deferred.Perm (session.deferred.erase request ++ [request]) :=
        (List.perm_cons_erase kept).trans (List.perm_append_singleton _ _).symm
      refine List.Perm.trans ?_ (hKept.append_right session.enqueued).symm
      rw [List.append_assoc]
      exact List.perm_append_comm.append_left _
  | own requests deferred _ enqueued =>
      rw [deferred, enqueued, regular_of_same requests]
      exact h

theorem partition_of_reaches {guard : HttpSession → Action → Prop}
    (run : Reaches (HttpSession.step handlers) guard .initial session) :
    (session.deferred ++ session.enqueued).Perm session.regular := by
  refine run.invariant (fun session => (session.deferred ++ session.enqueued).Perm session.regular)
    (List.Perm.refl _) ?_
  intro session action next _ h _ hStep
  exact partition_of_step (step_cases hStep) h

/-- What stands in the queue was put on it. -/
theorem mem_enqueued_of_item {guard : HttpSession → Action → Prop}
    (run : Reaches (HttpSession.step handlers) guard .initial session) :
    ∀ item ∈ session.items, item.request ∈ session.enqueued := by
  refine run.invariant (fun session => ∀ item ∈ session.items, item.request ∈ session.enqueued)
    (fun item hItem => absurd hItem List.not_mem_nil) ?_
  intro session action next _ h _ hStep item hItem
  cases accounted_of_step (step_cases hStep) with
  | upgrade _ _ _ items enqueued | defer _ _ _ items enqueued =>
      rw [enqueued]
      exact h item (items ▸ hItem)
  | respond _ _ _ _ items number enqueued | taskResponds _ _ _ items number enqueued =>
      rw [items] at hItem
      rw [enqueued, List.mem_append, List.mem_singleton, ← number]
      rcases List.mem_append.mp hItem with hOld | hNew
      · exact .inl (h item hOld)
      · exact .inr (by rw [List.mem_singleton.mp hNew])
  | own _ _ items enqueued =>
      rw [enqueued]
      exact h item (items.subset hItem)

/-- The requests that have been answered are among those that were read. -/
theorem lt_of_mem_enqueued {guard : HttpSession → Action → Prop}
    (run : Reaches (HttpSession.step handlers) guard .initial session) {number : Nat}
    (h : number ∈ session.enqueued) : number < session.requests.length := by
  have hMem := (partition_of_reaches run).subset (List.mem_append_right _ h)
  exact List.mem_range.mp (List.mem_of_mem_filter hMem)

end

end NanoPowServer.WebServer
