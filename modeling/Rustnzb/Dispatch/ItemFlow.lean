import Rustnzb.Dispatch.JobAccounting

/-!
# Where the articles of a job are

An article of a job is somewhere among the items of its tasks, its queue and its held volumes until
it is delivered or lost. An item is known by its file and segment, which routing does not change.
Here is what one action of a task does to that: each article stays, is delivered, or is lost, and a
loss is reported unless the job is cancelled.
-/

namespace Rustnzb.Dispatch

open Lib

def WorkItem.key (item : WorkItem) : FileId × ℕ := (item.fileId, item.segmentNumber)

section Route

variable {providers : Providers} {server : ServerId} {pipelined : Bool} {item : WorkItem}
  {result : FetchResult}

theorem key_handleArticleNotAvailable (kind : ArticleFailureKind) (errorMsg : String) :
    (handleArticleNotAvailable providers server item kind errorMsg).item.key = item.key := by
  rcases handleArticleNotAvailable_cases providers server item kind errorMsg with
    ⟨-, -, -, handled⟩ | ⟨-, -, handled⟩ | ⟨-, handled⟩
  all_goals rw [handled]; rfl

theorem RoutedBy.key {route : Route}
    (routed : RoutedBy providers server pipelined item result route) :
    route.item.key = item.key := by
  cases routed with
  | handled tries outage kind errorMsg => exact key_handleArticleNotAvailable kind errorMsg
  | _ => rfl

theorem key_workerArm (pipelined cancelled : Bool) (providers : Providers) (server : ServerId)
    (item : WorkItem) (result : FetchResult) :
    (workerArm pipelined cancelled providers server item result).route.item.key = item.key :=
  workerArm_routedBy.key

theorem handleArticleNotAvailable_ne_resolved (kind : ArticleFailureKind) (errorMsg : String)
    (after : WorkItem) :
    handleArticleNotAvailable providers server item kind errorMsg ≠ .resolved after := by
  rcases handleArticleNotAvailable_cases providers server item kind errorMsg with
    ⟨-, -, -, handled⟩ | ⟨-, -, handled⟩ | ⟨-, handled⟩
  all_goals simp [handled]

theorem retryOrFailOver_ne_resolved (kind : ArticleFailureKind) (message : String)
    (after : WorkItem) : retryOrFailOver providers server item kind message ≠ .resolved after := by
  simp only [retryOrFailOver]
  split
  · simp
  · exact handleArticleNotAvailable_ne_resolved kind _ after

theorem pipelinedRetry_ne_resolved (e : NntpError) (after : WorkItem) :
    pipelinedRetry providers server item e ≠ .resolved after := by
  simp only [pipelinedRetry]
  split
  · simp
  · split
    · split
      · simp
      · exact retryOrFailOver_ne_resolved _ _ after
    · exact retryOrFailOver_ne_resolved _ _ after

theorem cancelled_of_decodedArm {after : WorkItem}
    (decoded : decodedArm providers server item result = some (.resolved after)) :
    result = .cancelled := by
  cases result with
  | cancelled => rfl
  | decodeError message =>
      exact absurd (Option.some.inj decoded) (handleArticleNotAvailable_ne_resolved _ _ after)
  | error e =>
      simp only [decodedArm] at decoded
      split at decoded
      · exact absurd (Option.some.inj decoded) (handleArticleNotAvailable_ne_resolved _ _ after)
      · simp at decoded
  | _ => simp [decodedArm] at decoded

theorem cancelled_of_resolved {cancelled : Bool} {after : WorkItem}
    (resolved : (workerArm pipelined cancelled providers server item result).route =
      .resolved after) : cancelled = true ∨ result = .cancelled := by
  simp only [workerArm] at resolved
  split at resolved
  · split at resolved
    next isCancelled => exact .inl isCancelled
    · right
      simp only [pipelinedArm] at resolved
      split at resolved
      next route decoded =>
        subst resolved
        exact cancelled_of_decodedArm decoded
      · split at resolved
        · simp at resolved
        · simp at resolved
        · exact absurd resolved (pipelinedRetry_ne_resolved _ after)
        · simp at resolved
  · right
    simp only [serialArm] at resolved
    split at resolved
    next route decoded =>
      subst resolved
      exact cancelled_of_decodedArm decoded
    · split at resolved
      all_goals first
        | exact absurd resolved (retryOrFailOver_ne_resolved _ _ after)
        | simp at resolved

end Route

/-! ## Where the articles are -/

def Activity.items : Activity → List WorkItem
  | .adding _ items | .submitting _ items => items
  | _ => []

def Task.items (task : Task) : List WorkItem :=
  task.inFlight ++ task.activity.items

namespace JobContext

def waiting (ctx : JobContext) : List WorkItem :=
  ctx.queue ++ ctx.delayed ++ ctx.held.items

def arrival (ctx : JobContext) (task : Task) : Action → Option WorkItem
  | .answer position pipelined providers server result =>
      match task.inFlight[position]? with
      | none => none
      | some item =>
          match (workerArm pipelined ctx.cancelled providers server item result).route with
          | .delivered item => some item
          | _ => none
  | _ => none

def failure (ctx : JobContext) (task : Task) : Action → Option FailureReport
  | .answer position pipelined providers server result =>
      match task.inFlight[position]? with
      | none => none
      | some item =>
          match (workerArm pipelined ctx.cancelled providers server item result).route with
          | .failed report => some report
          | _ => none
  | .advance =>
      match task.activity, task.role, task.inFlight with
      | .idle, .supervisor, item :: _ =>
          if ctx.cancelled then none else some (Engine.sweepFailure item)
      | _, _, _ => none
  | _ => none

def Honest (ctx : JobContext) : Action → Prop
  | .answer _ _ _ _ result => result = .cancelled → ctx.cancelled = true
  | _ => True

end JobContext

/-- What an action does with the articles: each stays, is delivered, or is lost, and what is lost is
reported unless the job is cancelled, when the workers are honest about that. -/
structure Kept (ctx : JobContext) (task : Task) (honest : Prop) (arrival : Option WorkItem)
    (failure : Option FailureReport) (next : JobContext) (after : Task) : Prop where
  stays : ∀ item ∈ ctx.waiting ++ task.items,
    (∃ other ∈ next.waiting ++ after.items, other.key = item.key) ∨
      (∃ arrived ∈ arrival, arrived.key = item.key) ∨ item.fileId ∈ next.lost
  lost : ctx.lost ⊆ next.lost
  loses : honest → next.lost = ctx.lost ∨
    (ctx.cancelled = true ∨ task.role = .aborter ∨ failure.isSome = true) ∧
      (task.inFlight ≠ [] ∨ ctx.queue ≠ [])
  failed : next.articlesFailed = ctx.articlesFailed + failure.isSome.toNat

namespace Kept

variable {ctx next : JobContext} {task after : Task} {honest : Prop} {arrival : Option WorkItem}
  {failure : Option FailureReport}

theorem of_subset (items : ∀ item ∈ ctx.waiting ++ task.items, item ∈ next.waiting ++ after.items)
    (lost : next.lost = ctx.lost) (failed : next.articlesFailed = ctx.articlesFailed) :
    Kept ctx task honest none none next after where
  stays item mem := .inl ⟨item, items item mem, rfl⟩
  lost := lost ▸ List.Subset.refl _
  loses _ := .inl lost
  failed := by simp [failed]

theorem mem_or_eraseIdx {items : List WorkItem} {position : ℕ} {item : WorkItem}
    (isItem : items[position]? = some item) {other : WorkItem} (mem : other ∈ items) :
    other = item ∨ other ∈ items.eraseIdx position := by
  rcases List.getElem?_eq_some_iff.mp isItem with ⟨bound, rfl⟩
  have perm := (List.getElem_cons_eraseIdx_perm bound).mem_iff (a := other)
  rw [List.mem_cons] at perm
  exact perm.mpr mem

theorem stays_of_places (item : WorkItem) (places : ∀ other ∈ ctx.waiting ++ task.items,
      other = item ∨ other ∈ next.waiting ++ after.items)
    (goes : (∃ other ∈ next.waiting ++ after.items, other.key = item.key) ∨
      (∃ arrived ∈ arrival, arrived.key = item.key) ∨ item.fileId ∈ next.lost) :
    ∀ other ∈ ctx.waiting ++ task.items,
      (∃ kept ∈ next.waiting ++ after.items, kept.key = other.key) ∨
        (∃ arrived ∈ arrival, arrived.key = other.key) ∨ other.fileId ∈ next.lost := by
  intro other mem
  rcases places other mem with rfl | kept
  · exact goes
  · exact .inl ⟨other, kept, rfl⟩

theorem of_take {position : ℕ} (isIdle : task.activity = .idle)
    (move : ctx.take task position = some (next, after)) :
    Kept ctx task honest none none next after := by
  simp only [JobContext.take] at move
  split at move
  · simp at move
  next item isItem =>
    have places : ∀ other ∈ ctx.waiting ++ task.items, other = item ∨
        other ∈ ctx.queue.eraseIdx position ++ ctx.delayed ++ ctx.held.items ++ task.inFlight := by
      intro other mem
      simp only [JobContext.waiting, Task.items, isIdle, Activity.items, List.append_nil,
        List.mem_append] at mem ⊢
      rcases mem with ((queued | delayed) | held) | inFlight
      · rcases mem_or_eraseIdx isItem queued with same | rest
        · exact .inl same
        · simp [rest]
      · simp [delayed]
      · simp [held]
      · simp [inFlight]
    split at move
    next isCancelled =>
      cases move
      constructor
      case stays =>
        refine stays_of_places item (fun other mem => (places other mem).imp_right fun kept => ?_)
          (.inr (.inr (by simp [JobContext.lose])))
        simpa [JobContext.lose, JobContext.waiting, Task.items, Task.resolve, Task.act,
          Activity.items] using kept
      case lost => exact List.subset_append_left ..
      case loses =>
        refine fun _ => .inr ⟨.inl isCancelled, .inr fun empty => ?_⟩
        simp [empty] at isItem
      case failed => rfl
    · split at move
      · cases move
        refine ⟨stays_of_places item (fun other mem => ?_) (.inl ⟨item, ?_, rfl⟩),
          List.Subset.refl _, fun _ => .inl rfl, rfl⟩
        · refine (places other mem).imp_right fun kept => ?_
          simp only [JobContext.waiting, Task.items, List.mem_append] at kept ⊢
          tauto
        · simp [JobContext.waiting]
      · cases move
        refine ⟨stays_of_places item (fun other mem => ?_) (.inl ⟨item, ?_, rfl⟩),
          List.Subset.refl _, fun _ => .inl rfl, rfl⟩
        · refine (places other mem).imp_right fun kept => ?_
          simp only [JobContext.waiting, Task.items, List.mem_append] at kept ⊢
          tauto
        · simp [Task.items]

theorem of_answer {position : ℕ} {pipelined : Bool} {providers : Providers} {server : ServerId}
    {result : FetchResult} (isIdle : task.activity = .idle)
    (move : ctx.answer task position pipelined providers server result = some (next, after)) :
    Kept ctx task (ctx.Honest (.answer position pipelined providers server result))
      (ctx.arrival task (.answer position pipelined providers server result))
      (ctx.failure task (.answer position pipelined providers server result)) next after := by
  simp only [JobContext.answer] at move
  split at move
  · simp at move
  next item isItem =>
    have key := key_workerArm pipelined ctx.cancelled providers server item result
    have working : task.inFlight ≠ [] := by
      intro empty
      simp [empty] at isItem
    have places : ∀ other ∈ ctx.waiting ++ task.items, other = item ∨
        other ∈ ctx.waiting ++ task.inFlight.eraseIdx position := by
      intro other mem
      simp only [Task.items, isIdle, Activity.items, List.append_nil, List.mem_append] at mem ⊢
      rcases mem with waiting | inFlight
      · exact .inr (.inl waiting)
      · rcases mem_or_eraseIdx isItem inFlight with same | rest
        · exact .inl same
        · exact .inr (.inr rest)
    simp only [JobContext.arrival, JobContext.failure, isItem]
    rcases route : (workerArm pipelined ctx.cancelled providers server item result).route with
      arrived | resolved | requeued | confirming | report
    all_goals
      simp only [route] at move key ⊢
      cases move
    · refine ⟨stays_of_places item (fun other mem => (places other mem).imp_right fun kept => ?_)
        (.inr (.inl ⟨arrived, rfl, key⟩)), List.Subset.refl _, fun _ => .inl rfl, rfl⟩
      simpa [Task.items, Task.resolve, Task.act, Activity.items] using kept
    · constructor
      case stays =>
        refine stays_of_places item (fun other mem => (places other mem).imp_right fun kept => ?_)
          (.inr (.inr ?_))
        · simpa [JobContext.lose, JobContext.waiting, Task.items, Task.resolve, Task.act,
            Activity.items] using kept
        · rw [← (Prod.mk.inj key).1]
          simp [JobContext.lose, Route.item]
      case lost => exact List.subset_append_left ..
      case loses =>
        refine fun honest => .inr ⟨.inl ?_, .inl working⟩
        rcases cancelled_of_resolved route with isCancelled | isCancelled
        · exact isCancelled
        · exact honest isCancelled
      case failed => rfl
    · refine ⟨stays_of_places item (fun other mem => (places other mem).imp_right fun kept => ?_)
        (.inl ⟨requeued, by simp [JobContext.waiting], key⟩), List.Subset.refl _, fun _ =>
          .inl rfl, rfl⟩
      simp only [JobContext.waiting, Task.items, List.mem_append, List.mem_cons] at kept ⊢
      tauto
    · refine ⟨stays_of_places item (fun other mem => (places other mem).imp_right fun kept => ?_)
        (.inl ⟨confirming, by simp [JobContext.waiting], key⟩), List.Subset.refl _, fun _ =>
          .inl rfl, rfl⟩
      simp only [JobContext.waiting, Task.items, List.mem_append, List.mem_singleton] at kept ⊢
      tauto
    · constructor
      case stays =>
        refine stays_of_places item (fun other mem => (places other mem).imp_right fun kept => ?_)
          (.inr (.inr ?_))
        · simpa [JobContext.fail, JobContext.lose, JobContext.waiting, Task.items, Task.resolve,
            Task.act, Activity.items] using kept
        · rw [← (Prod.mk.inj key).1]
          simp [JobContext.fail, JobContext.lose, Route.item]
      case lost => exact List.subset_append_left ..
      case loses => exact fun _ => .inr ⟨.inr (.inr rfl), .inl working⟩
      case failed => rfl

theorem of_letGo : Kept ctx task honest none none (ctx.letGo task).1 (ctx.letGo task).2 := by
  refine of_subset (fun other mem => ?_) rfl rfl
  simp only [JobContext.letGo, JobContext.waiting, Task.items, List.mem_append, List.mem_reverse,
    List.not_mem_nil, false_or] at mem ⊢
  tauto

theorem of_sweep (takes : WorkItem → Bool) :
    Kept ctx task honest none none (ctx.sweep task takes).1 (ctx.sweep task takes).2 := by
  refine of_subset (fun other mem => ?_) rfl rfl
  simp only [JobContext.sweep, JobContext.waiting, Task.items, List.mem_append, List.mem_filter,
    Bool.not_eq_true'] at mem ⊢
  rcases taken : takes other with _ | _
  · tauto
  · tauto

theorem of_resolveNext (isIdle : task.activity = .idle)
    (move : ctx.resolveNext task = some (next, after)) :
    Kept ctx task honest (ctx.arrival task .advance) (ctx.failure task .advance) next after := by
  have places : ∀ {item : WorkItem} {rest : List WorkItem}, task.inFlight = item :: rest →
      ∀ other ∈ ctx.waiting ++ task.items,
        other = item ∨ other ∈ ctx.waiting ++ ({ task with inFlight := rest }.resolve).items := by
    intro item rest inFlight other mem
    simp only [Task.items, Task.resolve, Task.act, inFlight, isIdle, Activity.items,
      List.append_nil, List.mem_append, List.mem_cons] at mem ⊢
    tauto
  simp only [JobContext.resolveNext] at move
  split at move
  next item rest role inFlight =>
    simp only [JobContext.arrival, JobContext.failure, isIdle, role, inFlight]
    have working : task.inFlight ≠ [] := by simp [inFlight]
    cases move
    split
    next isCancelled =>
      exact ⟨stays_of_places item (places inFlight) (.inr (.inr (by simp [JobContext.lose]))),
        List.subset_append_left .., fun _ => .inr ⟨.inl isCancelled, .inl working⟩, rfl⟩
    · exact ⟨stays_of_places item (places inFlight)
        (.inr (.inr (by simp [JobContext.fail, JobContext.lose]))),
        List.subset_append_left .., fun _ => .inr ⟨.inr (.inr rfl), .inl working⟩, rfl⟩
  next item rest role inFlight =>
    simp only [JobContext.arrival, JobContext.failure, isIdle, role]
    have working : task.inFlight ≠ [] := by simp [inFlight]
    cases move
    exact ⟨stays_of_places item (places inFlight) (.inr (.inr (by simp [JobContext.lose]))),
      List.subset_append_left .., fun _ => .inr ⟨.inr (.inl role), .inl working⟩, rfl⟩
  next role inFlight =>
    simp only [JobContext.arrival, JobContext.failure, isIdle, role]
    cases move
    refine of_subset (fun other mem => ?_) rfl rfl
    split
    · simpa [Task.items, Task.act, Activity.items, isIdle] using mem
    · simpa [Task.items, Activity.items, isIdle] using mem
  · simp at move

theorem of_advance (move : ctx.advance task = some (next, after)) :
    Kept ctx task honest (ctx.arrival task .advance) (ctx.failure task .advance) next after := by
  rcases activity : task.activity with _ | site | site | ⟨site, need⟩ | ⟨site, items⟩ |
    ⟨site, items⟩ | _ | _ | _ | reason | _ | _
  case idle =>
    simp only [JobContext.advance, activity] at move
    exact of_resolveNext activity move
  all_goals
    simp only [JobContext.advance, activity] at move
    simp only [JobContext.arrival, JobContext.failure, activity]
  case releasing =>
    cases move
    refine of_subset (fun other mem => ?_) rfl rfl
    split
    · cases site <;> simpa [Task.items, Task.skip, Task.act, Activity.items, activity] using mem
    · simpa [Task.items, Task.act, Activity.items, activity] using mem
  case measuring =>
    split at move
    · cases move
      refine of_subset (fun other mem => ?_) rfl rfl
      cases site <;> simpa [Task.items, Task.skip, Task.act, Activity.items, activity] using mem
    · cases move
      refine of_subset (fun other mem => ?_) rfl rfl
      simpa [Task.items, Task.act, Activity.items, activity] using mem
  case choosing =>
    have perm := releaseFor_perm ctx.held need
    split at move
    next held nothing =>
      cases move
      simp only [nothing, Option.getD_none, List.nil_append] at perm
      refine of_subset (fun other mem => ?_) rfl rfl
      cases site <;> simpa [JobContext.waiting, Task.items, Task.skip, Task.act, Activity.items,
        activity, perm] using mem
    next items held something =>
      cases move
      simp only [something, Option.getD_some] at perm
      refine of_subset (fun other mem => ?_) rfl rfl
      simp only [JobContext.waiting, ← perm, Task.items, activity, Activity.items, Task.act,
        List.mem_append, List.append_nil] at mem ⊢
      tauto
  case adding =>
    cases move
    refine of_subset (fun other mem => ?_) rfl rfl
    simpa [JobContext.waiting, Task.items, Task.act, Activity.items, activity] using mem
  case submitting =>
    cases move
    refine of_subset (fun other mem => ?_) rfl rfl
    have queued : other ∈ (ctx.submitItems items).queue ↔ other ∈ ctx.queue ∨ other ∈ items :=
      SharedWorkQueue.mem_submitItems
    cases site
    all_goals
      simp only [JobContext.waiting, Task.items, Task.released, Task.act, Activity.items, activity,
        List.mem_append, List.append_nil, queued] at mem ⊢
      simp only [JobContext.submitItems]
      tauto
  case draining =>
    cases move
    refine of_subset (fun other mem => ?_) rfl rfl
    simp only [JobContext.waiting, Task.items, Task.act, Activity.items, activity, List.mem_append,
      List.append_nil, List.not_mem_nil, false_or] at mem ⊢
    tauto
  case counting =>
    cases move
    refine of_subset (fun other mem => ?_) rfl rfl
    split <;> simpa [JobContext.waiting, Task.items, Task.act, Activity.items, activity] using mem
  case emitting =>
    cases move
    refine of_subset (fun other mem => ?_) rfl rfl
    split <;> simpa [JobContext.waiting, Task.items, Task.act, Activity.items, activity] using mem
  all_goals
    cases move
    refine of_subset (fun other mem => ?_) rfl rfl
    simpa [JobContext.waiting, Task.items, Task.act, Activity.items, activity] using mem

theorem of_perform {action : Action} (move : ctx.perform task action = some (next, after)) :
    Kept ctx task (ctx.Honest action) (ctx.arrival task action)
      (ctx.failure task action) next after := by
  cases action with
  | take position =>
      simp only [JobContext.perform] at move
      split at move
      next may => exact of_take (Task.activity_of_isIdle (Bool.and_eq_true_iff.mp may).1) move
      · simp at move
  | answer position pipelined providers server result =>
      simp only [JobContext.perform] at move
      split at move
      next may =>
        exact of_answer (Task.activity_of_isIdle (Bool.and_eq_true_iff.mp may).1) move
      · simp at move
  | letGo =>
      simp only [JobContext.perform] at move
      split at move
      · cases move
        exact of_letGo
      · simp at move
  | sweep providers =>
      simp only [JobContext.perform] at move
      split at move
      · cases move
        exact of_sweep _
      · simp at move
  | advance => exact of_advance move

end Kept

end Rustnzb.Dispatch
