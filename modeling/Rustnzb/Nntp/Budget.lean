import Mathlib.Tactic
import Rustnzb.Lib.Run

/-!
# The connection budget of a server

`ServerBudget` hands out permits by tier, under a floor for playback and one for repair. The state
is behind a lock, which `acquire`, `set_total` and the drop of a permit hold through the whole of
`dispatch`. A waiter is a oneshot channel: its receiver may go away at any moment, also between two
looks of `dispatch` at the channel, so `dispatch` is cut at each of them.

The notification of idle holders and the count of attached pools are left out: nothing of the budget
reads them. `heldAtShrink` is not in the source; it records what was held when the total last
shrank.
-/

namespace Rustnzb.Nntp

open Lib

/-- A oneshot channel, by the number of the call of `acquire` that made it. -/
abbrev Waiter := ℕ

inductive BudgetTier where
  | playback
  | importing
  | download
  | repair
  deriving DecidableEq

namespace BudgetTier

def all : List BudgetTier := [.playback, .importing, .download, .repair]

end BudgetTier

structure BudgetPolicy where
  playbackReservePct : ℕ
  repairReservePct : ℕ

namespace BudgetPolicy

/-- The playback floor and the repair floor of a server with `total` connections. -/
def floors (policy : BudgetPolicy) (total : ℕ) : ℕ × ℕ :=
  if total < 2 then (0, 0)
  else
    let max := total - 1
    let pct := fun p : ℕ => (total * min p 100 + 99) / 100
    let playback := min (pct policy.playbackReservePct) max
    let repair := min (pct policy.repairReservePct) (max - playback)
    (playback, repair)

theorem floors_lt (policy : BudgetPolicy) {total : ℕ} (positive : 0 < total) :
    (policy.floors total).1 ≤ total - 1 ∧
      (policy.floors total).1 + (policy.floors total).2 < total := by
  simp only [floors]
  split
  · simp [positive]
  · dsimp only
    omega

end BudgetPolicy

namespace ServerBudget

structure State where
  total : ℕ
  playbackFloor : ℕ
  repairFloor : ℕ
  held : BudgetTier → ℕ
  waiters : BudgetTier → List Waiter

namespace State

def heldTotal (state : State) : ℕ :=
  (BudgetTier.all.map state.held).sum

def free (state : State) : ℕ :=
  state.total - state.heldTotal

def waiting (state : State) (tier : BudgetTier) : Bool :=
  !(state.waiters tier).isEmpty

def unmetPlayback (state : State) : ℕ :=
  state.playbackFloor - (state.held .playback + state.held .importing)

def prune (state : State) (closed : List Waiter) : State :=
  { state with waiters := fun tier => (state.waiters tier).filter fun waiter => waiter ∉ closed }

def unmetRepair (state : State) : ℕ :=
  if 0 < state.held .repair || state.waiting .repair then
    state.repairFloor - state.held .repair
  else 0

/-- The tier whose first waiter should get the next permit, if any can. -/
def nextGrantable (state : State) : Option BudgetTier :=
  if state.free = 0 then none
  else if state.waiting .playback then some .playback
  else if state.waiting .importing && decide (state.unmetRepair < state.free) then
    some .importing
  else if state.waiting .repair && decide (state.held .repair < state.repairFloor) &&
      decide (state.unmetPlayback < state.free) then
    some .repair
  else if state.waiting .download &&
      decide (state.unmetPlayback + state.unmetRepair < state.free) then
    some .download
  else if state.waiting .repair && decide (state.unmetPlayback < state.free) then some .repair
  else none

def addHeld (state : State) (tier : BudgetTier) : State :=
  { state with held := Function.update state.held tier (state.held tier + 1) }

/-- `held[tier] -= 1`; `none` when it underflows. -/
def subHeld (state : State) (tier : BudgetTier) : Option State :=
  if state.held tier = 0 then none
  else some { state with held := Function.update state.held tier (state.held tier - 1) }

def setWaiters (state : State) (tier : BudgetTier) (waiters : List Waiter) : State :=
  { state with waiters := Function.update state.waiters tier waiters }

def senders (state : State) : List (BudgetTier × Waiter) :=
  BudgetTier.all.flatMap fun tier => (state.waiters tier).map fun waiter => (tier, waiter)

def wantedElsewhere (state : State) (closed : List Waiter) (tier : BudgetTier) : Bool :=
  match (state.prune closed).subHeld tier with
  | none => false
  | some returned => returned.nextGrantable.any fun next => next ≠ tier

end State

/-- Where a permit is that has been granted and not yet returned. -/
inductive Place where
  | sent
  | owned
  | dropped
  deriving DecidableEq

structure BudgetPermit where
  tier : BudgetTier
  waiter : Waiter
  place : Place
  deriving DecidableEq

inductive Phase where
  | unlocked
  | pruning (left : List (BudgetTier × Waiter))
  | granting
  deriving DecidableEq

end ServerBudget

open ServerBudget in
structure ServerBudget where
  state : State
  phase : Phase
  /-- Waiters whose receivers went away before they were sent a permit. -/
  closed : List Waiter
  permits : List BudgetPermit
  arrivals : ℕ
  heldAtShrink : ℕ

inductive BudgetEvent where
  | acquire (tier : BudgetTier)
  | receive (waiter : Waiter)
  | cancel (waiter : Waiter)
  | drop (position : ℕ)
  | setTotal (total : ℕ) (policy : BudgetPolicy)
  | wantedElsewhere (tier : BudgetTier)
  | prune
  /-- One turn of the loop in `dispatch`. -/
  | grant

namespace ServerBudget

def new (total : ℕ) (policy : BudgetPolicy) : ServerBudget where
  state := {
    total := total
    playbackFloor := (policy.floors total).1
    repairFloor := (policy.floors total).2
    held := fun _ => 0
    waiters := fun _ => [] }
  phase := .unlocked
  closed := []
  permits := []
  arrivals := 0
  heldAtShrink := 0

def live (budget : ServerBudget) (tier : BudgetTier) : ℕ :=
  budget.permits.countP fun permit => permit.tier = tier

def dispatch (budget : ServerBudget) (state : State) : ServerBudget :=
  { budget with state := state, phase := .pruning state.senders }

def acquire (budget : ServerBudget) (tier : BudgetTier) : ServerBudget :=
  { budget with arrivals := budget.arrivals + 1 }.dispatch
    (budget.state.setWaiters tier (budget.state.waiters tier ++ [budget.arrivals]))

def receive (budget : ServerBudget) (waiter : Waiter) : ServerBudget :=
  { budget with
    permits := budget.permits.map fun permit =>
      if permit.waiter = waiter ∧ permit.place = .sent then { permit with place := .owned }
      else permit }

/-- The receiver goes away: a permit that has been sent to it is dropped. -/
def cancel (budget : ServerBudget) (waiter : Waiter) : ServerBudget :=
  if budget.permits.any fun permit => permit.waiter = waiter ∧ permit.place = .sent then
    { budget with
      permits := budget.permits.map fun permit =>
        if permit.waiter = waiter ∧ permit.place = .sent then { permit with place := .dropped }
        else permit }
  else { budget with closed := waiter :: budget.closed }

def release (budget : ServerBudget) (tier : BudgetTier) : Option ServerBudget :=
  (budget.state.subHeld tier).map budget.dispatch

def drop (budget : ServerBudget) (position : ℕ) : Option ServerBudget :=
  match budget.permits[position]? with
  | none => none
  | some permit =>
      if permit.place = .sent then none
      else
        { budget with permits := budget.permits.eraseIdx position }.release permit.tier

def setTotal (budget : ServerBudget) (total : ℕ) (policy : BudgetPolicy) : ServerBudget :=
  { budget with
    heldAtShrink :=
      if total < budget.state.total then budget.state.heldTotal else budget.heldAtShrink }.dispatch
    { budget.state with
      total := total
      playbackFloor := (policy.floors total).1
      repairFloor := (policy.floors total).2 }

def pruneNext (budget : ServerBudget) : List (BudgetTier × Waiter) → ServerBudget
  | [] => { budget with phase := .granting }
  | (tier, waiter) :: left =>
      { budget with
        state :=
          if waiter ∈ budget.closed then
            budget.state.setWaiters tier ((budget.state.waiters tier).erase waiter)
          else budget.state
        phase := .pruning left }

def grant (budget : ServerBudget) : ServerBudget :=
  match budget.state.nextGrantable with
  | none => { budget with phase := .unlocked }
  | some tier =>
      match budget.state.waiters tier with
      | [] => { budget with phase := .unlocked }
      | waiter :: rest =>
          let state := budget.state.setWaiters tier rest
          -- `send` fails when the receiver is gone, and `held` is lowered again
          if waiter ∈ budget.closed then { budget with state := state }
          else
            { budget with
              state := state.addHeld tier
              permits := budget.permits ++ [{ tier := tier, waiter := waiter, place := .sent }] }

/-- `none`: the event cannot happen now. -/
def step (budget : ServerBudget) : BudgetEvent → Option ServerBudget
  | .acquire tier => if budget.phase = .unlocked then some (budget.acquire tier) else none
  | .receive waiter =>
      if waiter < budget.arrivals ∧ waiter ∉ budget.closed then some (budget.receive waiter)
      else none
  | .cancel waiter =>
      if waiter < budget.arrivals ∧ waiter ∉ budget.closed ∧
          (∀ permit ∈ budget.permits, permit.waiter = waiter → permit.place = .sent) then
        some (budget.cancel waiter)
      else none
  | .drop position => if budget.phase = .unlocked then budget.drop position else none
  | .setTotal total policy =>
      if budget.phase = .unlocked then some (budget.setTotal total policy) else none
  | .wantedElsewhere tier =>
      if budget.phase = .unlocked then
        some (if budget.state.held tier = 0 then budget
          else { budget with state := budget.state.prune budget.closed })
      else none
  | .prune =>
      match budget.phase with
      | .pruning left => some (budget.pruneNext left)
      | _ => none
  | .grant => if budget.phase = .granting then some budget.grant else none

def Step (budget : ServerBudget) (event : BudgetEvent) (next : ServerBudget) : Prop :=
  budget.step event = some next

theorem step_functional (budget : ServerBudget) (event : BudgetEvent) (next other : ServerBudget)
    (move : Step budget event next) (move' : Step budget event other) : next = other :=
  Option.some.inj (move.symm.trans move')

theorem run_of_execute {init next : ServerBudget} {events : List BudgetEvent}
    (executed : execute step init events = some next) : Run Step init events next :=
  Run.of_execute (fun _ _ _ => id) Run.start executed

end ServerBudget

end Rustnzb.Nntp
