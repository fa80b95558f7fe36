import Rustnzb.Nntp.Budget

/-!
# The budget is never exceeded

`held` counts the live permits of each tier, a permit is granted only below the total and only above
the floors that hold for its tier, and returning a permit never underflows.
-/

namespace Rustnzb.Nntp

open Lib

namespace ServerBudget

namespace State

variable {state : State}

theorem heldTotal_addHeld (state : State) (tier : BudgetTier) :
    (state.addHeld tier).heldTotal = state.heldTotal + 1 := by
  cases tier <;> simp [heldTotal, addHeld, BudgetTier.all] <;> omega

theorem heldTotal_subHeld {tier : BudgetTier} {next : State}
    (lowered : state.subHeld tier = some next) : next.heldTotal + 1 = state.heldTotal := by
  simp only [subHeld] at lowered
  split at lowered
  · simp at lowered
  · cases lowered
    cases tier <;> simp [heldTotal, BudgetTier.all] <;> omega

theorem held_subHeld {tier : BudgetTier} {next : State} (lowered : state.subHeld tier = some next)
    (other : BudgetTier) :
    next.held other + (if tier = other then 1 else 0) = state.held other := by
  simp only [subHeld] at lowered
  split at lowered
  · simp at lowered
  · cases lowered
    by_cases same : tier = other
    · subst same
      simp
      omega
    · simp [Function.update_of_ne (Ne.symm same), same]

theorem sizes_subHeld {tier : BudgetTier} {next : State}
    (lowered : state.subHeld tier = some next) :
    next.total = state.total ∧ next.playbackFloor = state.playbackFloor ∧
      next.repairFloor = state.repairFloor := by
  simp only [subHeld] at lowered
  split at lowered
  · simp at lowered
  · cases lowered
    exact ⟨rfl, rfl, rfl⟩

structure Grantable (state : State) (tier : BudgetTier) : Prop where
  free : 0 < state.free
  waiting : state.waiting tier = true
  importing : tier = .importing → state.unmetRepair < state.free
  download : tier = .download → state.unmetPlayback + state.unmetRepair < state.free
  repair : tier = .repair → state.unmetPlayback < state.free

theorem grantable_of_nextGrantable {tier : BudgetTier} (next : state.nextGrantable = some tier) :
    state.Grantable tier := by
  simp only [nextGrantable] at next
  split at next
  · simp at next
  next notZero =>
    have free : 0 < state.free := by omega
    split at next
    next waiting =>
      cases next
      exact ⟨free, waiting, by simp, by simp, by simp⟩
    split at next
    next may =>
      cases next
      simp only [Bool.and_eq_true, decide_eq_true_eq] at may
      exact ⟨free, may.1, fun _ => may.2, by simp, by simp⟩
    split at next
    next may =>
      cases next
      simp only [Bool.and_eq_true, decide_eq_true_eq] at may
      exact ⟨free, may.1.1, by simp, by simp, fun _ => may.2⟩
    split at next
    next may =>
      cases next
      simp only [Bool.and_eq_true, decide_eq_true_eq] at may
      exact ⟨free, may.1, by simp, fun _ => may.2, by simp⟩
    split at next
    next may =>
      cases next
      simp only [Bool.and_eq_true, decide_eq_true_eq] at may
      exact ⟨free, may.1, by simp, by simp, fun _ => may.2⟩
    · simp at next

end State

inductive Moved (budget : ServerBudget) : ServerBudget → Prop
  /-- Neither `held` nor the tiers of the permits change. -/
  | kept (next : ServerBudget) (held : next.state.held = budget.state.held)
      (live : next.live = budget.live)
      (total : next.state.total = budget.state.total)
      (floors : next.state.playbackFloor = budget.state.playbackFloor ∧
        next.state.repairFloor = budget.state.repairFloor)
      (shrink : next.heldAtShrink = budget.heldAtShrink)
      (length : next.permits.length ≤ budget.permits.length) : Moved budget next
  | resized (total : ℕ) (policy : BudgetPolicy) : Moved budget (budget.setTotal total policy)
  | returned (position : ℕ) (permit : BudgetPermit) (state : State)
      (isPermit : budget.permits[position]? = some permit)
      (lowered : budget.state.subHeld permit.tier = some state) :
      Moved budget
        ({ budget with permits := budget.permits.eraseIdx position }.dispatch state)
  | granted (tier : BudgetTier) (waiter : Waiter) (rest : List Waiter)
      (next : budget.state.nextGrantable = some tier)
      (first : budget.state.waiters tier = waiter :: rest) (isOpen : waiter ∉ budget.closed) :
      Moved budget
        { budget with
          state := (budget.state.setWaiters tier rest).addHeld tier
          permits := budget.permits ++ [{ tier := tier, waiter := waiter, place := .sent }] }

section Inversion

variable {budget next : ServerBudget}

theorem live_map (budget : ServerBudget) (change : BudgetPermit → BudgetPermit)
    (tier : ∀ permit, (change permit).tier = permit.tier) :
    { budget with permits := budget.permits.map change }.live = budget.live := by
  funext other
  simp only [live, List.countP_map]
  congr 1
  funext permit
  simp [tier]

theorem grant_moved (budget : ServerBudget) : Moved budget budget.grant := by
  simp only [grant]
  split
  · exact .kept _ rfl rfl rfl ⟨rfl, rfl⟩ rfl le_rfl
  next tier isNext =>
    split
    · exact .kept _ rfl rfl rfl ⟨rfl, rfl⟩ rfl le_rfl
    next waiter rest first =>
      split
      · exact .kept _ rfl rfl rfl ⟨rfl, rfl⟩ rfl le_rfl
      next isOpen => exact .granted tier waiter rest isNext first isOpen

theorem drop_moved {position : ℕ} (move : budget.drop position = some next) :
    Moved budget next := by
  simp only [drop] at move
  split at move
  · simp at move
  next permit isPermit =>
    split at move
    · simp at move
    · rcases Option.map_eq_some_iff.mp move with ⟨state, lowered, rfl⟩
      exact .returned position permit state isPermit lowered

theorem cancel_moved (budget : ServerBudget) (waiter : Waiter) :
    Moved budget (budget.cancel waiter) := by
  simp only [cancel]
  split
  · apply Moved.kept
    · rfl
    · apply live_map
      intro permit
      split <;> rfl
    · rfl
    · exact ⟨rfl, rfl⟩
    · rfl
    · simp
  · exact .kept _ rfl rfl rfl ⟨rfl, rfl⟩ rfl le_rfl

theorem receive_moved (budget : ServerBudget) (waiter : Waiter) :
    Moved budget (budget.receive waiter) := by
  apply Moved.kept
  · rfl
  · apply live_map
    intro permit
    split <;> rfl
  · rfl
  · exact ⟨rfl, rfl⟩
  · rfl
  · simp [receive]

theorem pruneNext_moved (budget : ServerBudget) (left : List (BudgetTier × Waiter)) :
    Moved budget (budget.pruneNext left) := by
  cases left with
  | nil => exact .kept _ rfl rfl rfl ⟨rfl, rfl⟩ rfl le_rfl
  | cons first left =>
      simp only [pruneNext]
      split <;> exact .kept _ rfl rfl rfl ⟨rfl, rfl⟩ rfl le_rfl

theorem Step.moved {event : BudgetEvent} (move : Step budget event next) : Moved budget next := by
  simp only [Step, step] at move
  cases event with
  | acquire tier =>
      simp only [Option.ite_none_right_eq_some, Option.some.injEq] at move
      rw [← move.2]
      exact .kept _ rfl rfl rfl ⟨rfl, rfl⟩ rfl le_rfl
  | receive waiter =>
      simp only [Option.ite_none_right_eq_some, Option.some.injEq] at move
      rw [← move.2]
      exact receive_moved budget waiter
  | cancel waiter =>
      simp only [Option.ite_none_right_eq_some, Option.some.injEq] at move
      rw [← move.2]
      exact cancel_moved budget waiter
  | drop position =>
      simp only [Option.ite_none_right_eq_some] at move
      exact drop_moved move.2
  | setTotal total policy =>
      simp only [Option.ite_none_right_eq_some, Option.some.injEq] at move
      rw [← move.2]
      exact .resized total policy
  | wantedElsewhere tier =>
      simp only [Option.ite_none_right_eq_some, Option.some.injEq] at move
      rw [← move.2]
      split <;> exact .kept _ rfl rfl rfl ⟨rfl, rfl⟩ rfl le_rfl
  | prune =>
      dsimp only at move
      split at move
      next left _ =>
        cases move
        exact pruneNext_moved budget left
      · simp at move
  | grant =>
      simp only [Option.ite_none_right_eq_some, Option.some.injEq] at move
      rw [← move.2]
      exact grant_moved budget

end Inversion

structure Counted (budget : ServerBudget) : Prop where
  held : ∀ tier, budget.state.held tier = budget.live tier
  bounded : budget.state.heldTotal ≤ max budget.state.total budget.heldAtShrink
  floors : 0 < budget.state.total →
    budget.state.playbackFloor + budget.state.repairFloor < budget.state.total

theorem counted_new (total : ℕ) (policy : BudgetPolicy) : (new total policy).Counted where
  held tier := by simp [new, live]
  bounded := by simp [new, State.heldTotal]
  floors positive := (policy.floors_lt positive).2

theorem Counted.moved {budget next : ServerBudget} (counted : budget.Counted)
    (moved : Moved budget next) : next.Counted := by
  cases moved with
  | kept _ held live total floors shrink =>
      have sameTotal : next.state.heldTotal = budget.state.heldTotal := by
        simp only [State.heldTotal, held]
      constructor
      · simpa [held, live] using counted.held
      · simpa [sameTotal, total, shrink] using counted.bounded
      · simpa [floors, total] using counted.floors
  | resized total policy =>
      have bounded := counted.bounded
      refine ⟨counted.held, ?_, fun positive => (policy.floors_lt positive).2⟩
      have same : (budget.setTotal total policy).state.heldTotal = budget.state.heldTotal := rfl
      rw [same]
      simp only [setTotal, dispatch]
      split <;> omega
  | returned position permit state isPermit lowered =>
      rcases List.getElem?_eq_some_iff.mp isPermit with ⟨bound, rfl⟩
      rcases State.sizes_subHeld lowered with ⟨total, playback, repair⟩
      refine ⟨fun tier => ?_, ?_, ?_⟩
      · have erased := (List.getElem_cons_eraseIdx_perm bound).countP_eq
          fun permit : BudgetPermit => permit.tier = tier
        have before := counted.held tier
        have after := State.held_subHeld lowered tier
        simp only [live, List.countP_cons, decide_eq_true_eq] at erased before
        simp only [dispatch, live]
        omega
      · have bounded := counted.bounded
        have less := State.heldTotal_subHeld lowered
        simp only [dispatch, total]
        omega
      · simpa [dispatch, total, playback, repair] using counted.floors
  | granted tier waiter rest isNext first isOpen =>
      refine ⟨fun other => ?_, ?_, counted.floors⟩
      · have before := counted.held other
        simp only [live] at before
        simp only [live, State.addHeld, State.setWaiters, List.countP_append, List.countP_singleton,
          decide_eq_true_eq, Function.update_apply]
        by_cases same : tier = other
        · subst same
          simp [before]
        · simp [same, Ne.symm same, before]
      · have free := (State.grantable_of_nextGrantable isNext).free
        have more := State.heldTotal_addHeld (budget.state.setWaiters tier rest) tier
        have same : (budget.state.setWaiters tier rest).heldTotal = budget.state.heldTotal := rfl
        have sameTotal : ((budget.state.setWaiters tier rest).addHeld tier).total =
          budget.state.total := rfl
        simp only [State.free] at free
        dsimp only
        omega

theorem free_of_granted {budget : ServerBudget} {tier : BudgetTier} {waiter : Waiter}
    {rest : List Waiter} (isNext : budget.state.nextGrantable = some tier)
    (first : budget.state.waiters tier = waiter :: rest) :
    let after := (budget.state.setWaiters tier rest).addHeld tier
    (tier = .download → after.unmetPlayback + after.unmetRepair ≤ after.free) ∧
      (tier = .repair → after.unmetPlayback ≤ after.free) := by
  have grantable := State.grantable_of_nextGrantable isNext
  have more := State.heldTotal_addHeld (budget.state.setWaiters tier rest) tier
  have same : (budget.state.setWaiters tier rest).heldTotal = budget.state.heldTotal := rfl
  have sameTotal : ((budget.state.setWaiters tier rest).addHeld tier).total =
    budget.state.total := rfl
  constructor
  · rintro rfl
    have room := grantable.download rfl
    have playback : ((budget.state.setWaiters .download rest).addHeld .download).unmetPlayback =
        budget.state.unmetPlayback := by
      simp [State.unmetPlayback, State.addHeld, State.setWaiters]
    have repair : ((budget.state.setWaiters .download rest).addHeld .download).unmetRepair =
        budget.state.unmetRepair := by
      simp [State.unmetRepair, State.addHeld, State.setWaiters, State.waiting]
    rw [playback, repair]
    simp only [State.free] at room ⊢
    omega
  · rintro rfl
    have room := grantable.repair rfl
    have playback : ((budget.state.setWaiters .repair rest).addHeld .repair).unmetPlayback =
        budget.state.unmetPlayback := by
      simp [State.unmetPlayback, State.addHeld, State.setWaiters]
    rw [playback]
    simp only [State.free] at room ⊢
    omega

structure Safe (budget : ServerBudget) : Prop where
  held : ∀ tier, budget.state.held tier = budget.live tier
  bounded : budget.state.heldTotal ≤ max budget.state.total budget.heldAtShrink
  noUnderflow : ∀ permit ∈ budget.permits, (budget.state.subHeld permit.tier).isSome = true
  /-- A permit is granted below the total and leaves the floors above its tier free. -/
  grants : ∀ event next tier waiter, Step budget event next →
    next.permits = budget.permits ++ [{ tier := tier, waiter := waiter, place := .sent }] →
      budget.state.heldTotal < budget.state.total ∧
        (tier = .download → next.state.unmetPlayback + next.state.unmetRepair ≤ next.state.free) ∧
        (tier = .repair → next.state.unmetPlayback ≤ next.state.free)
  floors : 0 < budget.state.total →
    budget.state.playbackFloor + budget.state.repairFloor < budget.state.total

theorem Counted.safe {budget : ServerBudget} (counted : budget.Counted) : budget.Safe where
  held := counted.held
  bounded := counted.bounded
  floors := counted.floors
  noUnderflow := by
    intro permit mem
    have positive : 0 < budget.state.held permit.tier := by
      rw [counted.held permit.tier]
      exact List.countP_pos_iff.mpr ⟨permit, mem, by simp⟩
    have notZero : budget.state.held permit.tier ≠ 0 := by omega
    simp [State.subHeld, notZero]
  grants := by
    intro event next tier waiter move more
    cases move.moved with
    | kept _ _ _ _ _ _ length =>
        have := congrArg List.length more
        simp only [List.length_append, List.length_singleton] at this
        omega
    | resized => simp [setTotal, dispatch] at more
    | returned position permit state isPermit =>
        have := congrArg List.length more
        have less := List.length_eraseIdx_le budget.permits position
        simp only [dispatch, List.length_append, List.length_singleton] at this
        omega
    | granted tier' waiter' rest isNext first isOpen =>
        have same := List.append_cancel_left more
        simp only [List.cons.injEq, BudgetPermit.mk.injEq, and_true] at same
        rcases same with ⟨rfl, rfl⟩
        have free := (State.grantable_of_nextGrantable isNext).free
        refine ⟨?_, free_of_granted isNext first⟩
        simp only [State.free] at free
        omega

/-- The budget is safe in every run, whatever is acquired, returned, given up and resized, in any
order. -/
theorem safe_of_run {total : ℕ} {policy : BudgetPolicy} {events : List BudgetEvent}
    {budget : ServerBudget} (isRun : Run Step (new total policy) events budget) :
    budget.Safe ∧ ∀ (policy : BudgetPolicy) (total : ℕ), 0 < total →
      (policy.floors total).1 + (policy.floors total).2 < total := by
  have counted : budget.Counted := by
    apply isRun.invariant (fun _ budget => budget.Counted)
    · exact counted_new total policy
    · intro _ budget event next _ counted move
      exact counted.moved move.moved
  exact ⟨counted.safe, fun policy total positive => (policy.floors_lt positive).2⟩

theorem safe_of_run_shrunk : ∃ budget : ServerBudget, budget.Safe ∧ budget.state.heldTotal = 1 ∧
    budget.state.total = 0 := by
  have executed : ∃ budget : ServerBudget,
      execute step (new 1 { playbackReservePct := 25, repairReservePct := 25 })
      [.acquire .download, .prune, .prune, .grant, .grant, .receive 0,
        .setTotal 0 { playbackReservePct := 0, repairReservePct := 0 }] = some budget ∧
      budget.state.heldTotal = 1 ∧ budget.state.total = 0 := by
    refine ⟨_, rfl, ?_⟩
    decide
  rcases executed with ⟨budget, executed, held, total⟩
  exact ⟨budget, (safe_of_run (run_of_execute executed)).1, held, total⟩

end ServerBudget

end Rustnzb.Nntp
