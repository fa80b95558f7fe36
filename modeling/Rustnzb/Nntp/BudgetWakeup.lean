import Rustnzb.Nntp.BudgetSafety

/-!
# Who is left waiting

At the end of a `dispatch` nobody who waits could be served, but a waiter that gives up its place
later runs no `dispatch`. Only one such departure can make another waiter servable: the last waiter
for Repair, whose floor kept a free permit from Import.
-/

namespace Rustnzb.Nntp

open Lib

namespace ServerBudget

namespace State

variable {state less more : State}

theorem ite_some_eq_none {may : Prop} [Decidable may] (tier : BudgetTier)
    (rest : Option BudgetTier) :
    (if may then some tier else rest) = none ↔ ¬may ∧ rest = none := by
  split <;> simp_all

theorem nextGrantable_eq_none_iff : state.nextGrantable = none ↔
    state.free = 0 ∨ state.waiting .playback = false ∧
      (state.waiting .importing = true → state.free ≤ state.unmetRepair) ∧
      (state.waiting .repair = true → state.free ≤ state.unmetPlayback) ∧
      (state.waiting .download = true →
        state.free ≤ state.unmetPlayback + state.unmetRepair) := by
  simp only [nextGrantable]
  by_cases noFree : state.free = 0
  · simp [noFree]
  · simp only [noFree, if_false, ite_some_eq_none, Bool.and_eq_true, decide_eq_true_eq, not_and,
      not_lt, and_true, false_or, Bool.not_eq_true]
    -- the second look at Repair covers the first one
    constructor
    · rintro ⟨playback, importing, -, download, repair⟩
      exact ⟨playback, importing, repair, download⟩
    · rintro ⟨playback, importing, repair, download⟩
      exact ⟨playback, importing, fun may => repair may.1, download, repair⟩

structure Thinner (less more : State) : Prop where
  total : less.total = more.total
  floors : less.playbackFloor = more.playbackFloor ∧ less.repairFloor = more.repairFloor
  held : less.held = more.held
  waiting : ∀ tier, less.waiting tier = true → more.waiting tier = true

theorem thinner_prune (state : State) (closed : List Waiter) :
    (state.prune closed).Thinner state where
  total := rfl
  floors := ⟨rfl, rfl⟩
  held := rfl
  waiting tier := by
    simp only [waiting, prune, Bool.not_eq_true', List.isEmpty_eq_false_iff]
    exact fun some none => some (by simp [none])

theorem prune_prune (state : State) (closed gone : List Waiter) :
    (state.prune closed).prune gone = state.prune (gone ++ closed) := by
  simp only [prune, List.filter_filter, State.mk.injEq, true_and]
  funext tier
  congr 1
  funext waiter
  simp [List.mem_append, not_or]

/-- A free permit that a waiter for Import could have, now that nobody waits for Repair. -/
structure ImportStuck (more less : State) : Prop where
  free : 0 < less.free
  noRepair : less.held .repair = 0
  waited : more.waiting .repair = true
  gone : less.waiting .repair = false
  importing : less.waiting .importing = true

theorem Thinner.free (thinner : less.Thinner more) : less.free = more.free := by
  simp [State.free, heldTotal, thinner.total, thinner.held]

theorem Thinner.unmetPlayback (thinner : less.Thinner more) :
    less.unmetPlayback = more.unmetPlayback := by
  simp [State.unmetPlayback, thinner.floors, thinner.held]

theorem Thinner.unmetRepair (thinner : less.Thinner more)
    (same : 0 < less.held .repair ∨ less.waiting .repair = more.waiting .repair) :
    less.unmetRepair = more.unmetRepair := by
  simp only [State.unmetRepair, thinner.floors, ← thinner.held]
  rcases same with holds | same
  · simp [holds]
  · simp [same]

/-- When nobody could be served, the departure of waiters changes that in one case only. -/
theorem Thinner.nextGrantable_eq_none_iff (thinner : less.Thinner more)
    (nobody : more.nextGrantable = none) : less.nextGrantable = none ↔ ¬ImportStuck more less := by
  constructor
  · intro served stuck
    have noFloor : less.unmetRepair = 0 := by
      simp [State.unmetRepair, stuck.noRepair, stuck.gone]
    rcases State.nextGrantable_eq_none_iff.mp served with noFree | ⟨-, importing, -⟩
    · have := stuck.free
      omega
    · have := importing stuck.importing
      have := stuck.free
      omega
  · intro notStuck
    rw [State.nextGrantable_eq_none_iff]
    rcases State.nextGrantable_eq_none_iff.mp nobody with
      noFree | ⟨playback, importing, repair, download⟩
    · left
      rwa [thinner.free]
    · by_cases noFree : less.free = 0
      · exact Or.inl noFree
      have free := thinner.free
      have unmetPlayback := thinner.unmetPlayback
      refine Or.inr ⟨?_, fun isWaiting => ?_, fun isWaiting => ?_, fun isWaiting => ?_⟩
      · by_contra isWaiting
        have := thinner.waiting .playback (by simpa using isWaiting)
        simp [playback] at this
      · by_cases same : 0 < less.held .repair ∨ less.waiting .repair = more.waiting .repair
        · rw [free, thinner.unmetRepair same]
          exact importing (thinner.waiting _ isWaiting)
        · push Not at same
          -- the waiters for Repair are gone, and nothing holds a permit for it
          have waited : more.waiting .repair = true ∧ less.waiting .repair = false := by
            have := thinner.waiting .repair
            cases left : less.waiting .repair <;> cases before : more.waiting .repair <;> simp_all
          exact absurd ⟨by omega, by omega, waited.1, waited.2, isWaiting⟩ notStuck
      · rw [free, unmetPlayback]
        exact repair (thinner.waiting _ isWaiting)
      · by_cases same : 0 < less.held .repair ∨ less.waiting .repair = more.waiting .repair
        · rw [free, unmetPlayback, thinner.unmetRepair same]
          exact download (thinner.waiting _ isWaiting)
        · push Not at same
          have waited : more.waiting .repair = true := by
            have := thinner.waiting .repair
            cases left : less.waiting .repair <;> cases before : more.waiting .repair <;> simp_all
          have := repair waited
          omega

end State

def Served (budget : ServerBudget) : Prop :=
  budget.phase = .unlocked → ∀ waiter tier, waiter ∈ budget.state.waiters tier →
    waiter ∉ budget.closed → (budget.state.prune budget.closed).nextGrantable ≠ some tier

theorem served_iff {budget : ServerBudget} : budget.Served ↔
    (budget.phase = .unlocked → (budget.state.prune budget.closed).nextGrantable = none) := by
  constructor
  · intro served unlocked
    by_contra some
    rcases Option.ne_none_iff_exists'.mp some with ⟨tier, next⟩
    have waiting := (State.grantable_of_nextGrantable next).waiting
    simp only [State.waiting, State.prune, Bool.not_eq_true', List.isEmpty_eq_false_iff] at waiting
    rcases List.exists_mem_of_ne_nil _ waiting with ⟨waiter, mem⟩
    rw [List.mem_filter, decide_eq_true_eq] at mem
    exact served unlocked waiter tier mem.1 mem.2 next
  · intro none unlocked waiter tier _ _ next
    simp [none unlocked] at next

/-- The step does not leave a waiter for Import behind as the last one for Repair goes. -/
def LeavesNobody (budget : ServerBudget) : BudgetEvent → Prop
  | .cancel waiter =>
      budget.phase = .unlocked → (∀ permit ∈ budget.permits, permit.waiter ≠ waiter) →
        ¬State.ImportStuck (budget.state.prune budget.closed)
          (budget.state.prune (waiter :: budget.closed))
  | .grant =>
      budget.state.nextGrantable = none →
        ¬State.ImportStuck budget.state (budget.state.prune budget.closed)
  | _ => True

section Steps

variable {budget next : ServerBudget}

theorem served_cancel_iff {waiter : Waiter} (served : budget.Served)
    (move : Step budget (.cancel waiter) next) :
    next.Served ↔ budget.LeavesNobody (.cancel waiter) := by
  simp only [Step, step, Option.ite_none_right_eq_some, Option.some.injEq] at move
  rcases move with ⟨⟨-, -, isSent⟩, rfl⟩
  simp only [served_iff] at served ⊢
  simp only [cancel, LeavesNobody]
  split
  next isAny =>
    -- the permit was sent already: no waiter goes
    simp only [List.any_eq_true, decide_eq_true_eq] at isAny
    rcases isAny with ⟨permit, mem, same, -⟩
    exact ⟨fun _ _ none => absurd same (none permit mem), fun _ => served⟩
  next notAny =>
    have none : ∀ permit ∈ budget.permits, permit.waiter ≠ waiter := by
      intro permit mem same
      simp only [List.any_eq_true, decide_eq_true_eq, not_exists, not_and] at notAny
      exact notAny permit mem same (isSent permit mem same)
    dsimp only
    have pruned := State.thinner_prune (budget.state.prune budget.closed) [waiter]
    rw [State.prune_prune, List.singleton_append] at pruned
    constructor
    · intro after unlocked _
      exact (pruned.nextGrantable_eq_none_iff (served unlocked)).mp (after unlocked)
    · intro leaves unlocked
      exact (pruned.nextGrantable_eq_none_iff (served unlocked)).mpr (leaves unlocked none)

theorem served_grant_iff (move : Step budget .grant next) :
    next.Served ↔ budget.LeavesNobody .grant := by
  simp only [Step, step, Option.ite_none_right_eq_some, Option.some.injEq] at move
  rcases move with ⟨granting, rfl⟩
  simp only [served_iff, LeavesNobody, grant]
  split
  next none =>
    have pruned := State.thinner_prune budget.state budget.closed
    simpa [none] using pruned.nextGrantable_eq_none_iff none
  next tier some =>
    have waiting := (State.grantable_of_nextGrantable some).waiting
    simp only [State.waiting, Bool.not_eq_true', List.isEmpty_eq_false_iff] at waiting
    split
    next empty => exact absurd empty waiting
    · split <;> simp [some, granting]

theorem Step.served_iff {event : BudgetEvent} (served : budget.Served)
    (move : Step budget event next) : next.Served ↔ budget.LeavesNobody event := by
  cases event with
  | cancel waiter => exact served_cancel_iff served move
  | grant => exact served_grant_iff move
  | acquire tier | setTotal total policy =>
      simp only [Step, step, Option.ite_none_right_eq_some, Option.some.injEq] at move
      rw [← move.2]
      simp [Served, LeavesNobody, acquire, setTotal, dispatch]
  | receive waiter =>
      simp only [Step, step, Option.ite_none_right_eq_some, Option.some.injEq] at move
      rw [← move.2]
      simpa [LeavesNobody, receive, Served] using served
  | drop position =>
      simp only [Step, step, Option.ite_none_right_eq_some] at move
      have locked : next.phase ≠ .unlocked := by
        have moved := move.2
        simp only [drop, release] at moved
        split at moved
        · simp at moved
        · split at moved
          · simp at moved
          · rcases Option.map_eq_some_iff.mp moved with ⟨state, -, rfl⟩
            simp [dispatch]
      simp [Served, LeavesNobody, locked]
  | wantedElsewhere tier =>
      simp only [Step, step, Option.ite_none_right_eq_some, Option.some.injEq] at move
      rw [← move.2]
      simp only [ServerBudget.served_iff] at served ⊢
      split
      · simpa [LeavesNobody] using served
      · -- what is pruned already stays pruned
        have same : (budget.state.prune budget.closed).prune budget.closed =
            budget.state.prune budget.closed := by
          simp [State.prune, List.filter_filter]
        simpa [LeavesNobody, same] using served
  | prune =>
      simp only [Step, step] at move
      split at move
      next left _ =>
        cases move
        cases left <;> simp [Served, LeavesNobody, pruneNext]
      · simp at move

end Steps

section Wanted

theorem diff_filter_self {α : Type} [DecidableEq α] (keep : α → Bool) (list : List α) :
    list.diff (list.filter keep) = list.filter fun a => !keep a := by
  induction list with
  | nil => simp
  | cons first rest ih =>
      by_cases kept : keep first = true
      · simp [kept, ih]
      · have notMem : first ∉ rest.filter keep := by simp [kept]
        simp [kept, List.cons_diff_of_not_mem notMem, ih]

/-- What `prune` has done after looking at some senders. -/
def pruneAll (closed : List Waiter) (state : State) : List (BudgetTier × Waiter) → State
  | [] => state
  | (tier, waiter) :: left =>
      pruneAll closed
        (if waiter ∈ closed then state.setWaiters tier ((state.waiters tier).erase waiter)
          else state) left

theorem pruneAll_eq (closed : List Waiter) (state : State) (left : List (BudgetTier × Waiter)) :
    pruneAll closed state left = { state with
      waiters := fun tier => (state.waiters tier).diff
        ((left.filter fun sender => sender.1 = tier ∧ sender.2 ∈ closed).map Prod.snd) } := by
  induction left generalizing state with
  | nil => simp [pruneAll]
  | cons sender left ih =>
      rcases sender with ⟨tier, waiter⟩
      simp only [pruneAll, ih]
      by_cases gone : waiter ∈ closed
      · simp only [gone, if_true, State.setWaiters, State.mk.injEq, true_and]
        funext other
        by_cases same : tier = other
        · subst same
          simp [gone]
        · simp [Function.update_of_ne (Ne.symm same), same]
      · simp [gone]

theorem pruneAll_senders (closed : List Waiter) (state : State) :
    pruneAll closed state state.senders = state.prune closed := by
  rw [pruneAll_eq]
  simp only [State.prune, State.mk.injEq, true_and]
  funext tier
  have senders : ((state.senders.filter fun sender => sender.1 = tier ∧ sender.2 ∈ closed).map
      Prod.snd) = (state.waiters tier).filter fun waiter => waiter ∈ closed := by
    cases tier <;>
      simp [State.senders, BudgetTier.all, List.filter_map, List.map_map, Function.comp_def]
  rw [senders, diff_filter_self]
  simp

variable {budget : ServerBudget}

theorem execute_prune (budget : ServerBudget) (left : List (BudgetTier × Waiter)) :
    execute step { budget with phase := .pruning left }
        (List.replicate (left.length + 1) BudgetEvent.prune) =
      some { budget with
        state := pruneAll budget.closed budget.state left, phase := .granting } := by
  induction left generalizing budget with
  | nil => rfl
  | cons sender left ih =>
      rcases sender with ⟨tier, waiter⟩
      rw [List.length_cons, List.replicate_succ]
      have rest := ih { budget with
        state := if waiter ∈ budget.closed then
            budget.state.setWaiters tier ((budget.state.waiters tier).erase waiter)
          else budget.state }
      simpa [execute, step, pruneNext, pruneAll] using rest

/-- `release`, up to the first grant of its `dispatch`. -/
def releaseAndGrant (budget : ServerBudget) (tier : BudgetTier) : Option ServerBudget :=
  (budget.release tier).bind fun after =>
    execute step after
      (List.replicate (after.state.senders.length + 1) .prune ++ [BudgetEvent.grant])

theorem releaseAndGrant_eq {tier : BudgetTier} {returned : State}
    (lowered : budget.state.subHeld tier = some returned) :
    budget.releaseAndGrant tier =
      some { budget with
        state := returned.prune budget.closed, phase := .granting }.grant := by
  simp only [releaseAndGrant, release, lowered, Option.map_some, Option.bind_some, execute_append]
  have pruned := execute_prune { budget with state := returned } returned.senders
  rw [pruneAll_senders] at pruned
  simp only [dispatch]
  rw [pruned]
  simp [execute, step]

/-- Whose waiter gets the next permit when one of `tier` is returned now. -/
def HandsOver (budget : ServerBudget) (tier other : BudgetTier) : Prop :=
  ∃ next waiter, budget.releaseAndGrant tier = some next ∧
    next.permits = budget.permits ++ [{ tier := other, waiter := waiter, place := .sent }]

theorem handsOver_iff {tier other : BudgetTier} : budget.HandsOver tier other ↔
    ∃ returned, (budget.state.prune budget.closed).subHeld tier = some returned ∧
      returned.nextGrantable = some other := by
  have same : (budget.state.prune budget.closed).subHeld tier =
      (budget.state.subHeld tier).map fun state => state.prune budget.closed := by
    by_cases zero : budget.state.held tier = 0 <;> simp [State.subHeld, State.prune, zero]
  rw [same]
  cases lowered : budget.state.subHeld tier with
  | none => simp [HandsOver, releaseAndGrant, release, lowered]
  | some returned =>
      simp only [HandsOver, releaseAndGrant_eq lowered, Option.map_some, Option.some.injEq,
        exists_eq_left', exists_and_left]
      constructor
      · rintro ⟨waiter, more⟩
        simp only [grant] at more
        split at more
        · simp at more
        next tier' isNext =>
          split at more
          · simp at more
          next first rest isFirst =>
            split at more
            · simp at more
            · simp only [List.append_cancel_left_eq, List.cons.injEq, BudgetPermit.mk.injEq,
                and_true] at more
              rw [← more.1]
              exact isNext
      · intro isNext
        have waiting := (State.grantable_of_nextGrantable isNext).waiting
        simp only [State.waiting, Bool.not_eq_true', List.isEmpty_eq_false_iff] at waiting
        rcases List.exists_cons_of_ne_nil waiting with ⟨waiter, rest, isFirst⟩
        have isOpen : waiter ∉ budget.closed := by
          have mem : waiter ∈ (returned.prune budget.closed).waiters other := by simp [isFirst]
          simpa using (List.mem_filter.mp mem).2
        exact ⟨waiter, by simp [grant, isNext, isFirst, isOpen]⟩

theorem wantedElsewhere_iff {tier : BudgetTier} :
    budget.state.wantedElsewhere budget.closed tier = true ↔
      ∃ other, other ≠ tier ∧ budget.HandsOver tier other := by
  simp only [handsOver_iff, State.wantedElsewhere]
  cases lowered : (budget.state.prune budget.closed).subHeld tier with
  | none => simp
  | some returned =>
      cases next : returned.nextGrantable with
      | none => simp [next]
      | some other => simp [next]

end Wanted

/-- A run leaves no waiter behind exactly if no waiter for Repair, going last, keeps a permit from
one for Import; and `wanted_elsewhere` says whom a returned permit would go to. -/
theorem wakesUp_iff {total : ℕ} {policy : BudgetPolicy} {events : List BudgetEvent}
    {budget : ServerBudget} (isRun : Run Step (new total policy) events budget) :
    ((∀ before after middle, events = before ++ after →
        Run Step (new total policy) before middle → middle.Served) ↔
      Run.Always Step (new total policy) (fun _ => LeavesNobody) events) ∧
    ∀ tier, budget.state.wantedElsewhere budget.closed tier = true ↔
      ∃ other, other ≠ tier ∧ budget.HandsOver tier other := by
  refine ⟨⟨fun served => ?_, fun always => ?_⟩, fun tier => wantedElsewhere_iff⟩
  · rintro before event after middle rfl upTo
    rcases isRun.exists_step with ⟨middle', next, upTo', move, further⟩
    cases upTo.unique step_functional upTo'
    have now := served before (event :: after) middle rfl upTo
    have later := served (before ++ [event]) after next (by simp) further
    exact (move.served_iff now).mp later
  · rintro before after middle rfl upTo
    apply upTo.invariant_of_steps (fun _ budget => budget.Served) always.of_append
    · simp [Served, new]
    · intro _ budget event next _ served leaves move
      exact (move.served_iff served).mpr leaves

/-- Three downloads, then a waiter for Repair and one for Import, behind both floors. -/
def floorsHold : List BudgetEvent :=
  [.acquire .download, .prune, .prune, .grant, .grant,
    .acquire .download, .prune, .prune, .grant, .grant,
    .acquire .download, .prune, .prune, .grant, .grant,
    .acquire .repair, .prune, .prune, .grant,
    .acquire .importing, .prune, .prune, .prune, .grant]

theorem wakesUp_floors_hold : ∃ budget : ServerBudget,
    ((∀ before after middle, floorsHold = before ++ after →
        Run Step (new 4 { playbackReservePct := 25, repairReservePct := 25 }) before middle →
          middle.Served) ↔
      Run.Always Step (new 4 { playbackReservePct := 25, repairReservePct := 25 })
        (fun _ => LeavesNobody) floorsHold) ∧
      ∃ other, other ≠ .download ∧ budget.HandsOver .download other := by
  have executed : ∃ budget : ServerBudget,
      execute step (new 4 { playbackReservePct := 25, repairReservePct := 25 }) floorsHold =
        some budget ∧ budget.state.wantedElsewhere budget.closed .download = true := by
    refine ⟨_, rfl, ?_⟩
    decide
  rcases executed with ⟨budget, executed, wanted⟩
  have wakesUp := wakesUp_iff (run_of_execute executed)
  exact ⟨budget, wakesUp.1, (wakesUp.2 .download).mp wanted⟩

/-- The waiter for Repair goes, and the one for Import is left waiting for a free permit. -/
theorem not_served : ¬∀ (total : ℕ) (policy : BudgetPolicy) (events : List BudgetEvent)
    (budget : ServerBudget), Run Step (new total policy) events budget → budget.Served := by
  intro allServed
  have executed : ∃ budget : ServerBudget,
      execute step (new 4 { playbackReservePct := 25, repairReservePct := 25 })
        (floorsHold ++ [.cancel 3]) = some budget ∧ budget.phase = .unlocked ∧
      4 ∈ budget.state.waiters .importing ∧ 4 ∉ budget.closed ∧
      (budget.state.prune budget.closed).nextGrantable = some .importing := by
    refine ⟨_, rfl, ?_⟩
    decide
  rcases executed with ⟨budget, executed, unlocked, isWaiting, isOpen, next⟩
  exact allServed _ _ _ budget (run_of_execute executed) unlocked 4 .importing isWaiting isOpen next

end ServerBudget

end Rustnzb.Nntp
