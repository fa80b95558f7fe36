import Rustnzb.Dispatch.Engine

/-!
# Paused jobs in the shared queue

The items of a paused job stay in the shared queue. A worker finds out that a job is paused only
after it has popped one of its items; it then puts the item at the back of the queue, and
`next_work_item` waits while the pipeline fill breaks off. Both loops do the same with what they
pop, so one round of either is one definition here.

`nextUp` says, from the queue alone, which item of a live job comes up first. It decides whether
a paused job stands in the way of another.
-/

namespace Rustnzb.Dispatch

open Lib

abbrev JobContexts := JobId → Option JobState

namespace JobContexts

def isLive (jobs : JobContexts) (jobId : JobId) : Bool :=
  (jobs jobId).any fun job => !job.cancelled

def isPaused (jobs : JobContexts) (jobId : JobId) : Bool :=
  (jobs jobId).any fun job => !job.cancelled && job.paused

def isUnpaused (jobs : JobContexts) (jobId : JobId) : Bool :=
  (jobs jobId).any fun job => !job.cancelled && !job.paused

theorem isLive_iff {jobs : JobContexts} {jobId : JobId} :
    jobs.isLive jobId = true ↔ jobs.isPaused jobId = true ∨ jobs.isUnpaused jobId = true := by
  unfold isLive isPaused isUnpaused
  cases jobs jobId with
  | none => simp
  | some job => cases paused : job.paused <;> simp [paused]

theorem not_isUnpaused_of_isPaused {jobs : JobContexts} {jobId : JobId}
    (paused : jobs.isPaused jobId = true) : jobs.isUnpaused jobId = false := by
  revert paused
  unfold isPaused isUnpaused
  cases jobs jobId with
  | none => simp
  | some job => cases paused : job.paused <;> simp [paused]

end JobContexts

namespace SharedWorkQueue

def firstOther (queue : SharedWorkQueue) (serverId : ServerId) (gate : List ServerId)
    (lastJob : JobId) : Option WorkItem :=
  queue.items.find? fun item => isEligible serverId gate item && decide (item.jobId ≠ lastJob)

/-- The item `pop_workable` takes, read off the queue. -/
def selected (queue : SharedWorkQueue) (serverId : ServerId) (gate : List ServerId) :
    Option WorkItem :=
  ((queue.lastServed.lookup serverId).bind (queue.firstOther serverId gate)).or
    (queue.items.find? (isEligible serverId gate))

theorem selected_eq (queue : SharedWorkQueue) (serverId : ServerId) (gate : List ServerId) :
    queue.selected serverId gate =
      (queue.select serverId gate).bind fun index => queue.items[index]? := by
  unfold selected select
  cases queue.lastServed.lookup serverId with
  | none => simp [List.find?_eq_bind_findIdx?_getElem?]
  | some lastJob =>
      simp only [Option.bind_some, firstOther, List.find?_eq_bind_findIdx?_getElem?]
      cases found : queue.items.findIdx? fun item =>
          isEligible serverId gate item && decide (item.jobId ≠ lastJob) with
      | none => simp
      | some index =>
          rcases List.findIdx?_eq_some_iff_getElem.mp found with ⟨bound, -, -⟩
          simp [List.getElem?_eq_getElem bound]

theorem popWorkable_cases (queue : SharedWorkQueue) (serverId : ServerId) (gate : List ServerId) :
    (queue.popWorkable serverId gate = none ∧ queue.selected serverId gate = none) ∨
      ∃ front item behind, queue.items = front ++ item :: behind ∧
        queue.select serverId gate = some front.length ∧
        queue.selected serverId gate = some item ∧
        queue.popWorkable serverId gate = some (item,
          { items := front ++ behind
            lastServed := queue.lastServed.insert serverId item.jobId }) := by
  cases isSelect : queue.select serverId gate with
  | none =>
      left
      simp [popWorkable, selected_eq, isSelect]
  | some index =>
      right
      rcases eligible_of_select isSelect with ⟨item, at?, -⟩
      rcases List.getElem?_eq_some_iff.mp at? with ⟨bound, isItem⟩
      refine ⟨queue.items.take index, item, queue.items.drop (index + 1), ?_, ?_, ?_, ?_⟩
      · rw [← isItem, List.getElem_cons_drop, List.take_append_drop]
      · rw [List.length_take_of_le bound.le]
      · simp [selected_eq, isSelect, at?]
      · simp [popWorkable, isSelect, at?, List.eraseIdx_eq_take_drop_succ]

theorem selected_of_none {queue : SharedWorkQueue} {serverId : ServerId} {gate : List ServerId}
    (nothing : queue.selected serverId gate = none) :
    ∀ item ∈ queue.items, isEligible serverId gate item = false := by
  simp only [selected, Option.or_eq_none_iff, List.find?_eq_none, Bool.not_eq_true] at nothing
  exact nothing.2

end SharedWorkQueue

/-- What a round of `next_work_item`, or of the pipeline fill, comes to. -/
inductive Round where
  | idle
  | dropped
  | putBack (item : WorkItem)
  | taken (item : WorkItem)

def round (jobs : JobContexts) (serverId : ServerId) (gate : List ServerId)
    (queue : SharedWorkQueue) : Round × SharedWorkQueue :=
  match queue.popWorkable serverId gate with
  | none => (.idle, queue)
  | some (item, rest) =>
      match jobs item.jobId with
      | none => (.dropped, rest)
      | some job =>
          if job.cancelled then (.dropped, rest)
          else if job.paused then (.putBack item, rest.pushBack item)
          else (.taken item, rest)

section Rounds

variable {jobs : JobContexts} {serverId : ServerId} {gate : List ServerId}
  {queue rest : SharedWorkQueue} {item : WorkItem}

theorem round_cases (jobs : JobContexts) (serverId : ServerId) (gate : List ServerId)
    (queue : SharedWorkQueue) :
    (round jobs serverId gate queue = (.idle, queue) ∧ queue.selected serverId gate = none) ∨
      ∃ front item behind rest, queue.items = front ++ item :: behind ∧
        queue.select serverId gate = some front.length ∧
        queue.selected serverId gate = some item ∧
        rest = SharedWorkQueue.mk (front ++ behind)
          (queue.lastServed.insert serverId item.jobId) ∧
        ((jobs.isLive item.jobId = false ∧
            round jobs serverId gate queue = (.dropped, rest)) ∨
          (jobs.isPaused item.jobId = true ∧
            round jobs serverId gate queue = (.putBack item, rest.pushBack item)) ∨
          (jobs.isUnpaused item.jobId = true ∧
            round jobs serverId gate queue = (.taken item, rest))) := by
  rcases queue.popWorkable_cases serverId gate with
    ⟨popped, none⟩ | ⟨front, item, behind, split, selects, selected, popped⟩
  · left
    simp [round, popped, none]
  · right
    refine ⟨front, item, behind, _, split, selects, selected, rfl, ?_⟩
    simp only [round, popped, JobContexts.isLive, JobContexts.isPaused, JobContexts.isUnpaused]
    cases jobs item.jobId with
    | none => simp
    | some job => cases cancelled : job.cancelled <;> cases paused : job.paused <;> simp [paused]

/-- What a round leaves, by its outcome. -/
theorem round_spec {outcome : Round} (isRound : round jobs serverId gate queue = (outcome, rest)) :
    match outcome with
    | .idle => rest = queue ∧ queue.selected serverId gate = none
    | .dropped => ∃ front item behind, queue.items = front ++ item :: behind ∧
        rest.items = front ++ behind ∧ jobs.isLive item.jobId = false
    | .putBack item => ∃ front behind, queue.items = front ++ item :: behind ∧
        queue.select serverId gate = some front.length ∧
        rest.items = front ++ behind ++ [item] ∧ jobs.isPaused item.jobId = true
    | .taken item => ∃ front behind, queue.items = front ++ item :: behind ∧
        rest.items = front ++ behind ∧ jobs.isUnpaused item.jobId = true := by
  rcases round_cases jobs serverId gate queue with ⟨same, none⟩ |
    ⟨front, item, behind, next, split, selects, -, rfl, outcome⟩
  · cases isRound.symm.trans same
    exact ⟨rfl, none⟩
  · rcases outcome with ⟨dead, same⟩ | ⟨paused, same⟩ | ⟨unpaused, same⟩ <;>
      cases isRound.symm.trans same
    · exact ⟨front, item, behind, split, rfl, dead⟩
    · exact ⟨front, behind, split, selects, rfl, paused⟩
    · exact ⟨front, behind, split, rfl, unpaused⟩

theorem length_of_dropped (dropped : round jobs serverId gate queue = (.dropped, rest)) :
    rest.items.length < queue.items.length := by
  rcases round_spec dropped with ⟨front, item, behind, split, left, -⟩
  simp [split, left]

theorem length_of_taken (taken : round jobs serverId gate queue = (.taken item, rest)) :
    rest.items.length < queue.items.length := by
  rcases round_spec taken with ⟨front, behind, split, left, -⟩
  simp [split, left]

end Rounds

/-- `next_work_item` from the head of its loop, without interference, until it returns an item or
comes to a wait. -/
def nextWorkItem (jobs : JobContexts) (serverId : ServerId) (gate : List ServerId)
    (queue : SharedWorkQueue) : Option WorkItem × SharedWorkQueue :=
  match _ : round jobs serverId gate queue with
  | (.taken item, rest) => (some item, rest)
  | (.dropped, rest) => nextWorkItem jobs serverId gate rest
  | (.putBack _, rest) => (none, rest)
  | (.idle, rest) => (none, rest)
termination_by queue.items.length
decreasing_by exact length_of_dropped ‹_›

def fillPipeline (jobs : JobContexts) (serverId : ServerId) (gate : List ServerId)
    (queue : SharedWorkQueue) (room : ℕ) : List WorkItem × SharedWorkQueue :=
  match room with
  | 0 => ([], queue)
  | room + 1 =>
      match _ : round jobs serverId gate queue with
      | (.taken item, rest) =>
          let (items, left) := fillPipeline jobs serverId gate rest room
          (item :: items, left)
      | (.dropped, rest) => fillPipeline jobs serverId gate rest (room + 1)
      | (.putBack _, rest) => ([], rest)
      | (.idle, rest) => ([], rest)
termination_by queue.items.length
decreasing_by
  · exact length_of_taken ‹_›
  · exact length_of_dropped ‹_›

section NextUp

variable {jobs : JobContexts} {serverId : ServerId} {gate : List ServerId}
  {queue rest : SharedWorkQueue} {item : WorkItem}

def firstLive (jobs : JobContexts) (serverId : ServerId) (gate : List ServerId)
    (items : List WorkItem) : Option WorkItem :=
  items.find? fun item =>
    SharedWorkQueue.isEligible serverId gate item && jobs.isLive item.jobId

/-- The item of a live job that comes up first: the first eligible one of another job than the one
served last, if that job and this item's are both live; else the first eligible one. -/
def nextUp (jobs : JobContexts) (serverId : ServerId) (gate : List ServerId)
    (queue : SharedWorkQueue) : Option WorkItem :=
  let fair := (queue.lastServed.lookup serverId).bind fun lastJob =>
    if jobs.isLive lastJob then
      (queue.firstOther serverId gate lastJob).filter fun item => jobs.isLive item.jobId
    else none
  fair.or (firstLive jobs serverId gate queue.items)

theorem find?_of_imp {α : Type} {weak strong : α → Bool} {items : List α} {found : α}
    (implies : ∀ item, strong item = true → weak item = true)
    (first : items.find? weak = some found) (holds : strong found = true) :
    items.find? strong = some found := by
  rw [List.find?_eq_some_iff_append] at first ⊢
  rcases first with ⟨-, front, behind, split, before⟩
  refine ⟨holds, front, behind, split, ?_⟩
  intro item isBefore
  have weakFails := before item isBefore
  cases strongItem : strong item with
  | false => rfl
  | true => simp [implies item strongItem] at weakFails

theorem eligible_of_selected (selected : queue.selected serverId gate = some item) :
    SharedWorkQueue.isEligible serverId gate item = true := by
  simp only [SharedWorkQueue.selected, SharedWorkQueue.firstOther, Option.or_eq_some_iff,
    Option.bind_eq_some_iff] at selected
  rcases selected with ⟨lastJob, -, other⟩ | ⟨-, first⟩
  · have holds := List.find?_some other
    rw [Bool.and_eq_true] at holds
    exact holds.1
  · exact List.find?_some first

theorem nextUp_of_live (selected : queue.selected serverId gate = some item)
    (live : jobs.isLive item.jobId = true) : nextUp jobs serverId gate queue = some item := by
  have strong : (SharedWorkQueue.isEligible serverId gate item && jobs.isLive item.jobId) = true :=
    Bool.and_eq_true_iff.mpr ⟨eligible_of_selected selected, live⟩
  simp only [SharedWorkQueue.selected, Option.or_eq_some_iff, Option.bind_eq_some_iff] at selected
  unfold nextUp
  rcases selected with ⟨lastJob, served, other⟩ | ⟨noOther, first⟩
  · by_cases lastLive : jobs.isLive lastJob = true
    · simp [served, other, lastLive, live]
    · -- what stands before the item is of the job served last, which is dead
      have isFirst : firstLive jobs serverId gate queue.items = some item := by
        apply find?_of_imp ?_ other strong
        intro found holds
        simp only [Bool.and_eq_true, decide_eq_true_eq] at holds ⊢
        refine ⟨holds.1, ?_⟩
        rintro rfl
        exact lastLive holds.2
      simp [served, lastLive, isFirst]
  · have isFirst : firstLive jobs serverId gate queue.items = some item := by
      apply find?_of_imp ?_ first strong
      intro found holds
      exact (Bool.and_eq_true_iff.mp holds).1
    cases served : queue.lastServed.lookup serverId with
    | none => simp [isFirst]
    | some lastJob =>
        rw [served, Option.bind_some] at noOther
        simp [noOther, isFirst]

theorem nextUp_of_dead {front behind : List WorkItem}
    (split : queue.items = front ++ item :: behind)
    (selected : queue.selected serverId gate = some item) (dead : jobs.isLive item.jobId = false) :
    nextUp jobs serverId gate { items := front ++ behind
                                lastServed := queue.lastServed.insert serverId item.jobId } =
      nextUp jobs serverId gate queue := by
  have sameFirst : firstLive jobs serverId gate (front ++ behind) =
      firstLive jobs serverId gate queue.items := by
    simp [firstLive, split, List.find?_append, dead]
  unfold nextUp
  rw [sameFirst]
  cases served : queue.lastServed.lookup serverId with
  | none => simp [dead]
  | some lastJob =>
      rw [SharedWorkQueue.selected, served, Option.bind_some] at selected
      cases other : queue.firstOther serverId gate lastJob with
      | none => simp [dead, other]
      | some found =>
          rw [other, Option.some_or, Option.some.injEq] at selected
          subst selected
          simp [dead, other, Option.filter_some]

theorem nextUp_of_idle (idle : queue.selected serverId gate = none) :
    nextUp jobs serverId gate queue = none := by
  have nothing := SharedWorkQueue.selected_of_none idle
  have noFirst : firstLive jobs serverId gate queue.items = none := by
    rw [firstLive, List.find?_eq_none]
    intro item itemMem
    simp [nothing item itemMem]
  simp only [SharedWorkQueue.selected, Option.or_eq_none_iff] at idle
  unfold nextUp
  rw [noFirst, Option.or_none]
  cases served : queue.lastServed.lookup serverId with
  | none => rfl
  | some lastJob =>
      rw [served, Option.bind_some] at idle
      simp [idle.1]

theorem nextUp_round (jobs : JobContexts) (serverId : ServerId) (gate : List ServerId)
    (queue : SharedWorkQueue) :
    match round jobs serverId gate queue with
    | (.idle, _) => nextUp jobs serverId gate queue = none
    | (.dropped, rest) => nextUp jobs serverId gate rest = nextUp jobs serverId gate queue
    | (.putBack item, _) =>
        nextUp jobs serverId gate queue = some item ∧ jobs.isPaused item.jobId = true
    | (.taken item, _) =>
        nextUp jobs serverId gate queue = some item ∧ jobs.isUnpaused item.jobId = true := by
  rcases round_cases jobs serverId gate queue with
    ⟨idle, none⟩ | ⟨front, item, behind, rest, split, -, selected, rfl, outcome⟩
  · simp [idle, nextUp_of_idle none]
  · rcases outcome with ⟨dead, isRound⟩ | ⟨paused, isRound⟩ | ⟨unpaused, isRound⟩
    · simp [isRound, nextUp_of_dead split selected dead]
    · have live := JobContexts.isLive_iff.mpr (.inl paused)
      simp [isRound, nextUp_of_live selected live, paused]
    · have live := JobContexts.isLive_iff.mpr (.inr unpaused)
      simp [isRound, nextUp_of_live selected live, unpaused]

theorem nextWorkItem_fst (jobs : JobContexts) (serverId : ServerId) (gate : List ServerId)
    (queue : SharedWorkQueue) :
    (nextWorkItem jobs serverId gate queue).1 =
      (nextUp jobs serverId gate queue).filter fun item => jobs.isUnpaused item.jobId := by
  fun_induction nextWorkItem jobs serverId gate queue with
  | case1 queue item rest isRound =>
      have spec := nextUp_round jobs serverId gate queue
      rw [isRound] at spec
      simp [spec.1, spec.2, Option.filter_some]
  | case2 queue rest isRound ih =>
      have spec := nextUp_round jobs serverId gate queue
      rw [isRound] at spec
      rw [ih, spec]
  | case3 queue item rest isRound =>
      have spec := nextUp_round jobs serverId gate queue
      rw [isRound] at spec
      simp [spec.1, JobContexts.not_isUnpaused_of_isPaused spec.2, Option.filter_some]
  | case4 queue rest isRound =>
      have spec := nextUp_round jobs serverId gate queue
      rw [isRound] at spec
      simp [spec]

def HasUnpaused (jobs : JobContexts) (serverId : ServerId) (gate : List ServerId)
    (queue : SharedWorkQueue) : Prop :=
  ∃ item ∈ queue.items, SharedWorkQueue.isEligible serverId gate item = true ∧
    jobs.isUnpaused item.jobId = true

theorem mem_of_nextWorkItem_none (waits : (nextWorkItem jobs serverId gate queue).1 = none)
    (live : jobs.isLive item.jobId = true) :
    item ∈ (nextWorkItem jobs serverId gate queue).2.items ↔ item ∈ queue.items := by
  fun_induction nextWorkItem jobs serverId gate queue with
  | case1 queue found rest isRound => simp at waits
  | case2 queue rest isRound ih =>
      rcases round_spec isRound with ⟨front, found, behind, split, left, dead⟩
      have other : item ≠ found := by
        rintro rfl
        simp [live] at dead
      rw [ih waits]
      simp [split, left, other]
  | case3 queue found rest isRound =>
      rcases round_spec isRound with ⟨front, behind, split, -, left, -⟩
      simp only [split, left, List.mem_append, List.mem_cons, List.not_mem_nil, or_false]
      tauto
  | case4 queue rest isRound => rw [(round_spec isRound).1]

theorem fillPipeline_succ (jobs : JobContexts) (serverId : ServerId) (gate : List ServerId)
    (queue : SharedWorkQueue) (room : ℕ) :
    fillPipeline jobs serverId gate queue (room + 1) =
      match nextWorkItem jobs serverId gate queue with
      | (some item, rest) =>
          (item :: (fillPipeline jobs serverId gate rest room).1,
            (fillPipeline jobs serverId gate rest room).2)
      | (none, rest) => ([], rest) := by
  fun_induction nextWorkItem jobs serverId gate queue with
  | case1 queue item rest isRound => rw [fillPipeline, isRound]
  | case2 queue rest isRound ih =>
      rw [fillPipeline, isRound]
      exact ih
  | case3 queue item rest isRound => rw [fillPipeline, isRound]
  | case4 queue rest isRound => rw [fillPipeline, isRound]

/-- `next_work_item` returns an item of an unpaused job before any wait, if one is eligible. -/
def ServesUnpaused (jobs : JobContexts) (serverId : ServerId) (gate : List ServerId)
    (queue : SharedWorkQueue) : Prop :=
  HasUnpaused jobs serverId gate queue →
    ∃ item, (nextWorkItem jobs serverId gate queue).1 = some item ∧
      jobs.isUnpaused item.jobId = true

/-- The fill ends with a full pipeline or with no eligible item of an unpaused job left. -/
def FillsUp (jobs : JobContexts) (serverId : ServerId) (gate : List ServerId)
    (queue : SharedWorkQueue) (room : ℕ) : Prop :=
  (fillPipeline jobs serverId gate queue room).1.length = room ∨
    ¬ HasUnpaused jobs serverId gate (fillPipeline jobs serverId gate queue room).2

/-- No paused job comes up before the unpaused ones. -/
def Unblocked (jobs : JobContexts) (serverId : ServerId) (gate : List ServerId)
    (queue : SharedWorkQueue) : Prop :=
  HasUnpaused jobs serverId gate queue →
    ∃ item, nextUp jobs serverId gate queue = some item ∧ jobs.isUnpaused item.jobId = true

/-- The queue after so many items were taken, if nothing made the worker wait. -/
def afterTaking (jobs : JobContexts) (serverId : ServerId) (gate : List ServerId) :
    ℕ → SharedWorkQueue → Option SharedWorkQueue
  | 0, queue => some queue
  | count + 1, queue =>
      match nextWorkItem jobs serverId gate queue with
      | (some _, rest) => afterTaking jobs serverId gate count rest
      | (none, _) => none

theorem servesUnpaused_iff :
    ServesUnpaused jobs serverId gate queue ↔ Unblocked jobs serverId gate queue := by
  unfold ServesUnpaused Unblocked
  rw [nextWorkItem_fst]
  simp only [Option.filter_eq_some_iff, and_assoc, and_self]

theorem unblocked_iff_of_waits (waits : (nextWorkItem jobs serverId gate queue).1 = none) :
    Unblocked jobs serverId gate queue ↔ ¬ HasUnpaused jobs serverId gate queue := by
  rw [← servesUnpaused_iff]
  simp [ServesUnpaused, waits]

theorem hasUnpaused_of_waits (waits : (nextWorkItem jobs serverId gate queue).1 = none) :
    HasUnpaused jobs serverId gate (nextWorkItem jobs serverId gate queue).2 ↔
      HasUnpaused jobs serverId gate queue := by
  unfold HasUnpaused
  constructor
  · rintro ⟨item, itemMem, eligible, unpaused⟩
    have live := JobContexts.isLive_iff.mpr (.inr unpaused)
    exact ⟨item, (mem_of_nextWorkItem_none waits live).mp itemMem, eligible, unpaused⟩
  · rintro ⟨item, itemMem, eligible, unpaused⟩
    have live := JobContexts.isLive_iff.mpr (.inr unpaused)
    exact ⟨item, (mem_of_nextWorkItem_none waits live).mpr itemMem, eligible, unpaused⟩

theorem unblocked_of_serves (serves : (nextWorkItem jobs serverId gate queue).1 = some item) :
    Unblocked jobs serverId gate queue := by
  rw [nextWorkItem_fst, Option.filter_eq_some_iff] at serves
  exact fun _ => ⟨item, serves⟩

theorem fillsUp_iff (room : ℕ) (queue : SharedWorkQueue) :
    FillsUp jobs serverId gate queue room ↔
      ∀ count < room, ∀ reached, afterTaking jobs serverId gate count queue = some reached →
        Unblocked jobs serverId gate reached := by
  induction room generalizing queue with
  | zero => simp [FillsUp, fillPipeline]
  | succ room ih =>
      rw [Nat.forall_lt_succ_left']
      simp only [afterTaking, Option.some.injEq, forall_eq']
      unfold FillsUp
      rw [fillPipeline_succ]
      cases isNext : nextWorkItem jobs serverId gate queue with
      | mk served rest =>
          cases served with
          | some item =>
              have serves : (nextWorkItem jobs serverId gate queue).1 = some item := by
                rw [isNext]
              simp only [List.length_cons, Nat.add_right_cancel_iff, unblocked_of_serves serves,
                true_and]
              exact ih rest
          | none =>
              have waits : (nextWorkItem jobs serverId gate queue).1 = none := by rw [isNext]
              have same := hasUnpaused_of_waits waits
              rw [isNext] at same
              simp [unblocked_iff_of_waits waits, same]

end NextUp

/-- The queue and the jobs, as the worker loops see them. -/
structure SharedJobs where
  queue : SharedWorkQueue
  jobs : JobContexts

inductive Turn where
  | pause (jobId : JobId)
  | resume (jobId : JobId)
  | round (serverId : ServerId) (gate : List ServerId)

namespace SharedJobs

def setPaused (state : SharedJobs) (jobId : JobId) (paused : Bool) : SharedJobs :=
  { state with
    jobs := Function.update state.jobs jobId
      ((state.jobs jobId).map fun job => { job with paused := paused }) }

def turn (state : SharedJobs) : Turn → SharedJobs
  | .pause jobId => state.setPaused jobId true
  | .resume jobId => state.setPaused jobId false
  | .round serverId gate =>
      { state with queue := (round state.jobs serverId gate state.queue).2 }

def Step (state : SharedJobs) (label : Turn) (next : SharedJobs) : Prop :=
  next = state.turn label

end SharedJobs

def jobItems (jobId : JobId) (queue : SharedWorkQueue) : List WorkItem :=
  queue.items.filter fun item => item.jobId = jobId

/-- A round puts an item of a paused job behind another one of the same job. -/
def Rotates (jobs : JobContexts) (serverId : ServerId) (gate : List ServerId)
    (queue : SharedWorkQueue) : Prop :=
  ∃ front item behind, queue.items = front ++ item :: behind ∧
    queue.select serverId gate = some front.length ∧ jobs.isPaused item.jobId = true ∧
    ∃ other ∈ behind, other.jobId = item.jobId ∧ other ≠ item

def KeepsOrder (jobs : JobContexts) (serverId : ServerId) (gate : List ServerId)
    (queue : SharedWorkQueue) : Prop :=
  ∀ jobId, jobs.isPaused jobId = true →
    (jobItems jobId (round jobs serverId gate queue).2).Sublist (jobItems jobId queue)

section Order

variable {jobs : JobContexts} {serverId : ServerId} {gate : List ServerId}
  {queue rest : SharedWorkQueue} {item : WorkItem}

theorem append_singleton_eq_cons_iff {α : Type} {last : α} {items : List α} :
    items ++ [last] = last :: items ↔ ∀ item ∈ items, item = last := by
  induction items with
  | nil => simp
  | cons head tail ih =>
      simp only [List.cons_append, List.cons.injEq, List.forall_mem_cons]
      constructor
      · rintro ⟨rfl, rotated⟩
        exact ⟨rfl, ih.mp rotated⟩
      · rintro ⟨rfl, same⟩
        exact ⟨rfl, ih.mpr same⟩

theorem jobItems_mono {jobId : JobId} (sub : rest.items.Sublist queue.items) :
    (jobItems jobId rest).Sublist (jobItems jobId queue) :=
  sub.filter _

theorem sublist_putBack_iff {front behind : List WorkItem}
    (split : queue.items = front ++ item :: behind)
    (left : rest.items = front ++ behind ++ [item]) :
    (jobItems item.jobId rest).Sublist (jobItems item.jobId queue) ↔
      ∀ other ∈ behind, other.jobId = item.jobId → other = item := by
  have before : jobItems item.jobId queue =
      front.filter (fun other => other.jobId = item.jobId) ++
        item :: behind.filter (fun other => other.jobId = item.jobId) := by
    simp [jobItems, split]
  have after : jobItems item.jobId rest =
      front.filter (fun other => other.jobId = item.jobId) ++
        (behind.filter (fun other => other.jobId = item.jobId) ++ [item]) := by
    simp [jobItems, left]
  have sameLength : (jobItems item.jobId rest).length = (jobItems item.jobId queue).length := by
    simp [before, after]
  have isEq : (jobItems item.jobId rest).Sublist (jobItems item.jobId queue) ↔
      jobItems item.jobId rest = jobItems item.jobId queue :=
    ⟨fun sub => sub.eq_of_length sameLength, fun same => same ▸ .refl _⟩
  rw [isEq, before, after, List.append_cancel_left_eq, append_singleton_eq_cons_iff]
  simp

theorem keepsOrder_iff :
    KeepsOrder jobs serverId gate queue ↔ ¬ Rotates jobs serverId gate queue := by
  unfold KeepsOrder
  rcases isRound : round jobs serverId gate queue with ⟨outcome, rest⟩
  constructor
  · rintro keeps ⟨front, item, behind, split, selects, paused, other, isBehind, sameJob, differs⟩
    rcases round_cases jobs serverId gate queue with
      ⟨-, none⟩ | ⟨front', popped, behind', next, split', selects', -, rfl, happened⟩
    · simp [SharedWorkQueue.selected_eq, selects, split] at none
    · have sameFront : front.length = front'.length := by simpa [selects] using selects'
      rcases List.append_inj (split.symm.trans split') sameFront with ⟨rfl, sameRest⟩
      rw [List.cons.injEq] at sameRest
      rcases sameRest with ⟨rfl, rfl⟩
      have live := JobContexts.isLive_iff.mpr (.inl paused)
      have notUnpaused := JobContexts.not_isUnpaused_of_isPaused paused
      rcases happened with ⟨dead, -⟩ | ⟨-, put⟩ | ⟨unpaused, -⟩
      · simp [live] at dead
      · rw [isRound, Prod.mk.injEq] at put
        have left :
            rest.items = front ++ behind ++ [item] := by simp [put.2, SharedWorkQueue.pushBack]
        exact differs ((sublist_putBack_iff split left).mp (keeps _ paused) other isBehind sameJob)
      · simp [notUnpaused] at unpaused
  · intro steady jobId paused
    cases outcome with
    | idle => rw [(round_spec isRound).1]
    | dropped =>
        rcases round_spec isRound with ⟨front, item, behind, split, left, -⟩
        apply jobItems_mono
        rw [split, left]
        exact List.Sublist.append_left (List.sublist_cons_self _ _) _
    | taken item =>
        rcases round_spec isRound with ⟨front, behind, split, left, -⟩
        apply jobItems_mono
        rw [split, left]
        exact List.Sublist.append_left (List.sublist_cons_self _ _) _
    | putBack item =>
        rcases round_spec isRound with ⟨front, behind, split, selects, left, itemPaused⟩
        by_cases isJob : item.jobId = jobId
        · subst isJob
          rw [sublist_putBack_iff split left]
          intro other isBehind sameJob
          by_contra differs
          exact steady ⟨front, item, behind, split, selects, itemPaused, other, isBehind, sameJob,
            differs⟩
        · simp [jobItems, split, left, isJob]

theorem isPaused_setPaused_iff {state : SharedJobs} {jobId changed : JobId} {paused : Bool}
    (was : state.jobs.isPaused jobId = true) :
    (state.setPaused changed paused).jobs.isPaused jobId = true ↔ changed ≠ jobId ∨
      paused = true := by
  by_cases same : jobId = changed
  · subst same
    revert was
    simp only [JobContexts.isPaused, SharedJobs.setPaused, Function.update_self]
    cases state.jobs jobId with
    | none => simp
    | some job => simp +contextual
  · have frame : (state.setPaused changed paused).jobs jobId = state.jobs jobId := by
      simp [SharedJobs.setPaused, Function.update_of_ne same]
    simp only [JobContexts.isPaused, frame]
    simp only [JobContexts.isPaused] at was
    simp [was, Ne.symm same]

theorem ordered_of_run {init final : SharedJobs} {labels : List Turn} {jobId : JobId}
    (run : Run SharedJobs.Step init labels final) (paused : init.jobs.isPaused jobId = true)
    (notResumed : Turn.resume jobId ∉ labels) (steady : Run.Always SharedJobs.Step init
      (fun _ state label => ∀ serverId gate, label = .round serverId gate →
        ¬ Rotates state.jobs serverId gate state.queue) labels) :
    (jobItems jobId final.queue).Sublist (jobItems jobId init.queue) := by
  have kept := run.invariant_of_steps
    (fun labels state => Turn.resume jobId ∉ labels → state.jobs.isPaused jobId = true ∧
      (jobItems jobId state.queue).Sublist (jobItems jobId init.queue))
    steady (fun _ => ⟨paused, .refl _⟩) ?_
  · exact (kept notResumed).2
  · rintro labels state label next - ih steady rfl notResumed
    simp only [List.mem_append, List.mem_singleton, not_or] at notResumed
    rcases ih notResumed.1 with ⟨stillPaused, inOrder⟩
    cases label with
    | pause changed => exact ⟨(isPaused_setPaused_iff stillPaused).mpr (.inr rfl), inOrder⟩
    | resume changed =>
        refine ⟨(isPaused_setPaused_iff stillPaused).mpr (.inl ?_), inOrder⟩
        rintro rfl
        exact notResumed.2 rfl
    | round serverId gate =>
        have keeps := keepsOrder_iff.mpr (steady serverId gate rfl)
        exact ⟨stillPaused, (keeps jobId stillPaused).trans inOrder⟩

end Order

/-- When a paused job stands in the way of another, and when its own items lose their order. -/
theorem paused_jobs_step_aside_iff (jobs : JobContexts) (serverId : ServerId)
    (gate : List ServerId) :
    (∀ queue, ServesUnpaused jobs serverId gate queue ↔ Unblocked jobs serverId gate queue) ∧
      (∀ queue room, FillsUp jobs serverId gate queue room ↔
        ∀ count < room, ∀ reached, afterTaking jobs serverId gate count queue = some reached →
          Unblocked jobs serverId gate reached) ∧
      (∀ queue, KeepsOrder jobs serverId gate queue ↔ ¬ Rotates jobs serverId gate queue) ∧
      ∀ init labels final jobId, Run SharedJobs.Step init labels final →
        init.jobs.isPaused jobId = true → Turn.resume jobId ∉ labels →
        Run.Always SharedJobs.Step init
          (fun _ state label => ∀ serverId gate, label = .round serverId gate →
            ¬ Rotates state.jobs serverId gate state.queue) labels →
        (jobItems jobId final.queue).Sublist (jobItems jobId init.queue) := by
  refine ⟨?_, ?_, ?_, ?_⟩
  · intro queue
    exact servesUnpaused_iff
  · intro queue room
    exact fillsUp_iff room queue
  · intro queue
    exact keepsOrder_iff
  · intro init labels final jobId run paused notResumed steady
    exact ordered_of_run run paused notResumed steady

def untriedArticle (jobId : JobId) (segmentNumber : ℕ) : WorkItem where
  jobId := jobId
  fileId := "file"
  filename := "file.rar"
  messageId := "part"
  segmentNumber := segmentNumber
  triedServers := []
  providerOutcomes := ∅
  triesOnCurrent := 0
  outageTries := 0
  confirmRounds := 0
  asked := []

def filmPaused : JobContexts
  | "film" => some { paused := true, cancelled := false, aborted := false, held := HeldVolumes.new }
  | "show" =>
    some { paused := false, cancelled := false, aborted := false, held := HeldVolumes.new }
  | _ => none

def queueOf (items : List WorkItem) : SharedWorkQueue := { items := items, lastServed := ∅ }

def showFirst : SharedWorkQueue :=
  queueOf [untriedArticle "show" 1, untriedArticle "film" 1, untriedArticle "film" 2]

/-- The articles of the paused job come last, and a worker with room for one serves the other. -/
theorem paused_jobs_step_aside_iff_two_paused :
    HasUnpaused filmPaused "s" [] showFirst ∧ ServesUnpaused filmPaused "s" [] showFirst ∧
      FillsUp filmPaused "s" [] showFirst 1 ∧ KeepsOrder filmPaused "s" [] showFirst ∧
      (jobItems "film" (round filmPaused "s" [] showFirst).2).Sublist
        [untriedArticle "film" 1, untriedArticle "film" 2] := by
  have spec := paused_jobs_step_aside_iff filmPaused "s" []
  have unblocked : Unblocked filmPaused "s" [] showFirst :=
    fun _ => ⟨untriedArticle "show" 1, rfl, by decide⟩
  have steady : ¬ Rotates filmPaused "s" [] showFirst := by
    rintro ⟨front, item, behind, split, selects, paused, -⟩
    have first : showFirst.select "s" [] = some 0 := rfl
    rw [first, Option.some.injEq, eq_comm, List.length_eq_zero_iff] at selects
    subst selects
    cases split
    exact absurd paused (by decide)
  refine ⟨⟨untriedArticle "show" 1, List.mem_cons_self, by decide, by decide⟩,
    (spec.1 _).mpr unblocked, (spec.2.1 _ _).mpr ?_, (spec.2.2.1 _).mpr steady, ?_⟩
  · intro count lt reached after
    cases Nat.lt_one_iff.mp lt
    cases after
    exact unblocked
  · have run : Run SharedJobs.Step (SharedJobs.mk showFirst filmPaused) ([] ++ [.round "s" []]) _ :=
      Run.start.snoc rfl
    refine spec.2.2.2 _ _ _ "film" run (by decide) (by simp) (Run.Always.nil.concat ?_)
    rintro state upTo serverId gate isRound
    cases isRound
    rw [upTo.eq_init]
    exact steady

/-- The paused job's articles come first: the worker waits, and their order changes. -/
theorem not_paused_jobs_step_aside :
    ¬ ServesUnpaused filmPaused "s" []
        (queueOf [untriedArticle "film" 1, untriedArticle "film" 2, untriedArticle "show" 1]) ∧
      ¬ FillsUp filmPaused "s" []
        (queueOf [untriedArticle "film" 1, untriedArticle "film" 2, untriedArticle "show" 1]) 1 ∧
      ¬ KeepsOrder filmPaused "s" []
        (queueOf [untriedArticle "film" 1, untriedArticle "film" 2, untriedArticle "show" 1]) := by
  have has : HasUnpaused filmPaused "s" []
      (queueOf [untriedArticle "film" 1, untriedArticle "film" 2, untriedArticle "show" 1]) :=
    ⟨untriedArticle "show" 1, by simp [queueOf], by decide, by decide⟩
  have blocked : ¬ Unblocked filmPaused "s" []
      (queueOf [untriedArticle "film" 1, untriedArticle "film" 2, untriedArticle "show" 1]) := by
    intro unblocked
    rcases unblocked has with ⟨item, isNext, unpaused⟩
    have first : nextUp filmPaused "s" [] (queueOf [untriedArticle "film" 1,
        untriedArticle "film" 2, untriedArticle "show" 1]) = some (untriedArticle "film" 1) := rfl
    rw [first, Option.some.injEq] at isNext
    subst isNext
    exact absurd unpaused (by decide)
  refine ⟨?_, ?_, ?_⟩
  · rw [servesUnpaused_iff]
    exact blocked
  · rw [fillsUp_iff]
    intro filled
    exact blocked (filled 0 (by omega) _ rfl)
  · rw [keepsOrder_iff, not_not]
    exact ⟨[], untriedArticle "film" 1, [untriedArticle "film" 2, untriedArticle "show" 1], rfl,
      by decide, by decide, untriedArticle "film" 2, by simp, rfl,
      fun same => absurd (congrArg WorkItem.segmentNumber same) (by decide)⟩

end Rustnzb.Dispatch
