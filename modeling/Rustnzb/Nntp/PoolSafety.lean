import Rustnzb.Nntp.Pool

/-!
# Slots, sockets and parked connections of a pool

No slot of a pool is leaked or minted, every socket of a budgeted pool has its permit, and no
`acquire` waits for the budget next to a parked connection.

A parked connection is always announced: as many notifications are under way, or looks at the idle
list, as connections are parked, as long as a waiter is left that none has reached.
-/

namespace Rustnzb.Nntp

open Lib

/-- The drop guard is set as it should be, and the socket of a budgeted pool has its permit. -/
structure PooledConnection.Fit (guard budgeted : Bool) (pooled : PooledConnection) : Prop where
  semaphore : pooled.semaphore = guard
  funded : budgeted = true → pooled.budgetPermit = true

namespace ConnectionPool

variable {budgeted : Bool}

def After.rest : After → List PooledConnection
  | .closeIdle rest => rest
  | _ => []

def After.slots : After → ℕ
  | .addPermit | .unwind _ => 1
  | _ => 0

def Exit.Fit (budgeted : Bool) : Exit → Prop
  | .reuse pooled => pooled.Fit true budgeted
  | .connect budgetPermit => budgeted = true → budgetPermit = true
  | .fail => True

namespace Phase

def slots : Phase → ℕ
  | .slotWait | .notifying | .closing _ | .yielding => 0
  | .dropping pooled after => pooled.semaphore.toNat + after.slots
  | .closed _ after => after.slots
  | _ => 1

def conns : Phase → List PooledConnection
  | .checking _ pooled | .leaving (.reuse pooled) _ _ | .checkedOut pooled | .parking pooled =>
      [pooled]
  | .dropping pooled after => pooled :: after.rest
  | .closed _ after => after.rest
  | .closing conns => conns
  | _ => []

def opening : Phase → ℕ
  | .connecting _ => 1
  | _ => 0

/-- The budget permit that a call holds for a socket to come, or of one that is closed. -/
def spare : Phase → ℕ
  | .leaving (.connect budgetPermit) _ _ | .connecting budgetPermit
  | .closed budgetPermit _ => budgetPermit.toNat
  | _ => 0

def sockets (phase : Phase) : ℕ :=
  phase.conns.length + phase.opening

def budgetPermits (phase : Phase) : ℕ :=
  phase.conns.countP PooledConnection.budgetPermit + phase.spare

def Fit (budgeted : Bool) : Phase → Prop
  | .checking _ pooled | .parking pooled => pooled.Fit false budgeted
  | .leaving exit _ _ => exit.Fit budgeted
  | .connecting budgetPermit => budgeted = true → budgetPermit = true
  | .checkedOut pooled => pooled.Fit true budgeted
  | .dropping pooled after =>
      (budgeted = true → pooled.budgetPermit = true) ∧
        ∀ other ∈ after.rest, other.Fit false budgeted
  | .closed _ after => ∀ other ∈ after.rest, other.Fit false budgeted
  | .closing conns => ∀ other ∈ conns, other.Fit false budgeted
  | _ => True

def isRegistered : Phase → Bool
  | .enabled _ | .checking _ _ | .selecting | .leaving _ true _
  | .dropping _ (.unwind _) | .closed _ (.unwind _) => true
  | _ => false

/-- Looks at the idle list, or notifications, that are still to come from this call. -/
def pending : Phase → ℕ
  | .looping _ | .enabled _ | .addingPermit true | .notifying => 1
  | _ => 0

theorem sockets_le_budgetPermits {phase : Phase} (fit : phase.Fit true) :
    phase.sockets ≤ phase.budgetPermits := by
  have funded : ∀ pooled ∈ phase.conns, pooled.budgetPermit = true := by
    intro pooled mem
    cases phase with
    | leaving exit parked budgetWait =>
        cases exit with
        | reuse other =>
            cases List.mem_singleton.mp mem
            exact fit.funded rfl
        | connect => simp [conns] at mem
        | fail => simp [conns] at mem
    | checking budgetWait other | parking other | checkedOut other =>
        cases List.mem_singleton.mp mem
        exact fit.funded rfl
    | dropping other after =>
        rcases List.mem_cons.mp mem with rfl | mem
        · exact fit.1 rfl
        · exact (fit.2 pooled mem).funded rfl
    | closed budgetPermit after | closing conns => exact (fit pooled mem).funded rfl
    | slotWait | looping | enabled | selecting | connecting | addingPermit | notifying
    | yielding => simp [conns] at mem
  have opened : phase.opening ≤ phase.spare := by
    cases phase with
    | connecting budgetPermit =>
        have paid : budgetPermit = true := fit rfl
        simp [opening, spare, paid]
    | _ => simp [opening]
  rw [sockets, budgetPermits, List.countP_eq_length.mpr funded]
  exact Nat.add_le_add_left opened _

end Phase

structure Turned (shared : Shared) (key : ℕ) (old : Option Phase) (shared' : Shared)
    (new : Option Phase) : Prop where
  connections : shared'.connections = shared.connections
  budgeted : shared'.budgeted = shared.budgeted
  slots : shared'.semaphore + new.elim 0 Phase.slots = shared.semaphore + old.elim 0 Phase.slots
  idle : ∀ pooled ∈ shared'.idle, pooled.Fit false shared.budgeted
  fit : ∀ phase, new = some phase → phase.Fit shared.budgeted
  keys : ((if new.any Phase.isRegistered then [key] else []) ++ shared.idleReady.keys).Perm
    ((if old.any Phase.isRegistered then [key] else []) ++ shared'.idleReady.keys)
  announced : shared'.idle = [] ∨ shared'.idleReady.waiters = [] ∨
    (∀ other ∈ shared'.idleReady.waiters, other ∈ shared.idleReady.waiters ∨ other = key) ∧
      new ≠ some .selecting ∧
      shared'.idle.length + shared.idleReady.notified.length + old.elim 0 Phase.pending ≤
        shared.idle.length + shared'.idleReady.notified.length + new.elim 0 Phase.pending

namespace Turned

variable {shared : Shared} {key : ℕ} {old new : Option Phase}

theorem of_unchanged (idle : ∀ pooled ∈ shared.idle, pooled.Fit false shared.budgeted)
    (slots : new.elim 0 Phase.slots = old.elim 0 Phase.slots)
    (fit : ∀ phase, new = some phase → phase.Fit shared.budgeted)
    (registered : new.any Phase.isRegistered = old.any Phase.isRegistered)
    (announced : shared.idle = [] ∨
      new ≠ some .selecting ∧ old.elim 0 Phase.pending ≤ new.elim 0 Phase.pending) :
    Turned shared key old shared new where
  connections := rfl
  budgeted := rfl
  slots := by rw [slots]
  idle := idle
  fit := fit
  keys := by rw [registered]
  announced := by
    rcases announced with none | ⟨entered, pending⟩
    · exact .inl none
    · exact .inr (.inr ⟨fun other mem => .inl mem, entered, by omega⟩)

theorem of_sublist (idle : ∀ pooled ∈ shared.idle, pooled.Fit false shared.budgeted)
    {rest : List PooledConnection} (sub : rest.Sublist shared.idle)
    (slots : new.elim 0 Phase.slots = old.elim 0 Phase.slots)
    (fit : ∀ phase, new = some phase → phase.Fit shared.budgeted)
    (registered : new.any Phase.isRegistered = old.any Phase.isRegistered)
    (entered : new ≠ some .selecting)
    (pending : old.elim 0 Phase.pending ≤ new.elim 0 Phase.pending) :
    Turned shared key old { shared with idle := rest } new where
  connections := rfl
  budgeted := rfl
  slots := by rw [slots]
  idle := fun pooled mem => idle pooled (sub.subset mem)
  fit := fit
  keys := by rw [registered]
  announced := .inr (.inr ⟨fun _ => .inl, entered, by
    have length := sub.length_le
    dsimp only
    omega⟩)

end Turned

namespace Shared

variable {shared shared' : Shared} {key : ℕ} {turn : Turn} {old new : Option Phase}

@[simp]
theorem slots_afterIdle (budgetWait : Bool) : (afterIdle budgeted budgetWait).slots = 1 := by
  cases budgeted <;> rfl

@[simp]
theorem isRegistered_afterIdle (budgetWait : Bool) :
    (afterIdle budgeted budgetWait).isRegistered = true := by
  cases budgeted <;> rfl

theorem fit_afterIdle (budgetWait : Bool) : (afterIdle budgeted budgetWait).Fit budgeted := by
  cases budgeted
  · exact fun isBudgeted => nomatch isBudgeted
  · trivial

theorem fit_of_checkIdle_ok {pooled checked : PooledConnection} {now : ℕ} {ping guard : Bool}
    (fit : pooled.Fit guard budgeted)
    (ok : ConnectionPool.checkIdle pooled now ping = .ok checked) : checked.Fit guard budgeted := by
  revert ok
  fun_cases ConnectionPool.checkIdle <;> intro ok <;> cases ok
  · exact ⟨fit.semaphore, fit.funded⟩
  · exact fit

theorem checkIdle_error {pooled : PooledConnection} {now : ℕ} {ping budgetPermit : Bool}
    (error : ConnectionPool.checkIdle pooled now ping = .error budgetPermit) :
    budgetPermit = pooled.budgetPermit := by
  revert error
  fun_cases ConnectionPool.checkIdle <;> intro error <;> cases error <;> rfl

section

variable (idle : ∀ pooled ∈ shared.idle, pooled.Fit false shared.budgeted)

include idle

section

variable (fit : ∀ phase, old = some phase → phase.Fit shared.budgeted)

include fit

theorem acquireTurn_turned
    (member : old.any Phase.isRegistered = true → key ∈ shared.idleReady.keys)
    (turned : shared.acquireTurn key turn old = some (shared', new)) :
    Turned shared key old shared' new := by
  revert turned
  fun_cases acquireTurn <;> intro turned <;> cases turned
  case case1 => exact .of_unchanged idle rfl (by simp [Phase.Fit]) rfl (.inr (by simp))
  case case2 free =>
      exact
        { connections := rfl
          budgeted := rfl
          slots := Nat.sub_add_cancel free
          idle := idle
          fit := by simp [Phase.Fit]
          keys := .refl _
          announced := .inr (.inr ⟨fun _ => .inl, by simp, by simp [Phase.pending]⟩) }
  case case4 => exact .of_unchanged idle rfl (by simp) rfl (.inr (by simp [Phase.pending]))
  case case5 => exact .of_unchanged idle rfl (by simp) rfl (.inr (by simp [Phase.pending]))
  case case6 =>
      exact
        { connections := rfl
          budgeted := rfl
          slots := rfl
          idle := idle
          fit := by simp [Phase.Fit]
          keys := (Notify.keys_enable shared.idleReady key).symm
          announced := .inr (.inr ⟨fun _ => Notify.mem_waiters_of_enable, by simp, by
            simp [Phase.pending, Notify.notified_enable]⟩) }
  case case7 pooled last =>
      have split := List.dropLast_append_getLast? pooled last
      have length := congrArg List.length split
      rw [List.length_append] at length
      exact
        { connections := rfl
          budgeted := rfl
          slots := rfl
          idle := fun other mem => idle other (List.dropLast_subset _ mem)
          fit := by
            rintro phase ⟨⟩
            exact idle pooled (List.mem_of_getLast? last)
          keys := .refl _
          announced := .inr (.inr ⟨fun _ => .inl, by simp, by
            simp only [Option.elim_some, Phase.pending, List.length_singleton] at length ⊢
            omega⟩) }
  case case8 budgetWait none =>
      apply Turned.of_unchanged idle
      · exact slots_afterIdle budgetWait
      · rintro phase ⟨⟩
        exact fit_afterIdle budgetWait
      · exact isRegistered_afterIdle budgetWait
      · exact .inl (List.getLast?_eq_none_iff.mp none)
  case case9 ok =>
      have checked := fit_of_checkIdle_ok (fit _ rfl) ok
      refine .of_unchanged idle rfl ?_ rfl (.inr (by simp [Phase.pending]))
      rintro phase ⟨⟩
      exact ⟨rfl, checked.funded⟩
  case case10 error =>
      exact .of_unchanged idle rfl (by simp [Phase.Fit, Exit.Fit]) rfl
        (.inr (by simp [Phase.pending]))
  case case11 now ping budgetWait pooled error =>
      -- A parked connection of a budgeted pool has its permit.
      have unfunded : shared.budgeted = false := by
        by_contra budgeted
        have paid := (fit _ rfl).funded (Bool.eq_true_of_not_eq_false budgeted)
        rw [← checkIdle_error error] at paid
        cases paid
      apply Turned.of_unchanged idle
      · exact slots_afterIdle budgetWait
      · rintro phase ⟨⟩
        exact fit_afterIdle budgetWait
      · exact isRegistered_afterIdle budgetWait
      · simp [afterIdle, unfunded, Phase.pending]
  case case12 budgetWait pooled =>
      have parked : pooled.Fit false shared.budgeted := fit _ rfl
      refine .of_unchanged idle ?_ ?_ rfl (.inr (by simp [Phase.pending]))
      · simp [Phase.slots, After.slots, parked.semaphore]
      · rintro phase ⟨⟩
        exact ⟨parked.funded, by simp [After.rest]⟩
  case case13 =>
      exact .of_unchanged idle rfl (by simp [Phase.Fit, Exit.Fit]) rfl
        (.inr (by simp [Phase.pending]))
  case case14 ready =>
      exact
        { connections := rfl
          budgeted := rfl
          slots := rfl
          idle := idle
          fit := by simp [Phase.Fit]
          keys := (Notify.keys_consume ready).symm
          announced := .inr (.inr ⟨by simp +contextual, by simp, by
            have length := Notify.length_notified_consume shared.idleReady key
            simp only [Option.elim_some, Phase.pending]
            omega⟩) }
  case case16 =>
      exact .of_unchanged idle rfl (by simp [Phase.Fit, Exit.Fit]) rfl
        (.inr (by simp [Phase.pending]))
  case case17 =>
      exact .of_unchanged idle rfl (by simp [Phase.Fit, Exit.Fit]) rfl
        (.inr (by simp [Phase.pending]))
  case case18 exit budgetWait =>
      exact
        { connections := rfl
          budgeted := rfl
          slots := rfl
          idle := idle
          fit := by
            rintro phase ⟨⟩
            exact fit (.leaving exit true budgetWait) rfl
          keys := (Notify.keys_leave (member rfl)).symm
          announced :=
            (Notify.waiters_leave shared.idleReady key).elim (fun none => .inr (.inl none))
            fun ⟨same, subset⟩ => .inr (.inr ⟨fun _ mem => .inl (subset mem), by simp, by
              simp [same, Phase.pending]⟩) }
  case case19 exit =>
      refine .of_unchanged idle rfl ?_ rfl (.inr (by simp [Phase.pending]))
      rintro phase ⟨⟩
      exact fit (.leaving exit false true) rfl
  case case20 pooled =>
      refine .of_unchanged idle rfl ?_ rfl (.inr (by simp [Phase.pending]))
      rintro phase ⟨⟩
      exact fit (.leaving (.reuse pooled) false false) rfl
  case case21 budgetPermit =>
      refine .of_unchanged idle rfl ?_ rfl (.inr (by simp [Phase.pending]))
      rintro phase ⟨⟩
      exact fit (.leaving (.connect budgetPermit) false false) rfl
  case case22 =>
      exact .of_unchanged idle rfl (by simp [Phase.Fit, Exit.Fit]) rfl
        (.inr (by simp [Phase.pending]))
  case case23 =>
      refine .of_unchanged idle rfl ?_ rfl (.inr (by simp [Phase.pending]))
      rintro phase ⟨⟩
      exact ⟨rfl, fit _ rfl⟩
  case case24 =>
      exact .of_unchanged idle rfl (by simp [Phase.Fit, After.rest]) rfl
        (.inr (by simp [Phase.pending]))
  case case25 =>
      exact .of_unchanged idle rfl (by simp [Phase.Fit, After.rest]) rfl
        (.inr (by simp [Phase.pending]))

theorem checkedOutTurn_turned (turned : shared.checkedOutTurn turn old = some (shared', new)) :
    Turned shared key old shared' new := by
  revert turned
  fun_cases checkedOutTurn <;> intro turned <;> cases turned
  case case1 pooled =>
      have checkedOut : pooled.Fit true shared.budgeted := fit _ rfl
      refine .of_unchanged idle rfl ?_ rfl (.inr (by simp [Phase.pending]))
      rintro phase ⟨⟩
      exact ⟨checkedOut.semaphore, checkedOut.funded⟩
  case case2 =>
      refine .of_unchanged idle rfl ?_ rfl (.inr (by simp [Phase.pending]))
      rintro phase ⟨⟩
      exact ⟨(fit _ rfl).funded, by simp [After.rest]⟩
  case case3 =>
      refine .of_unchanged idle rfl ?_ rfl (.inr (by simp [Phase.pending]))
      rintro phase ⟨⟩
      exact ⟨rfl, (fit _ rfl).funded⟩
  case case4 =>
      refine .of_unchanged idle rfl ?_ rfl (.inr (by simp [Phase.pending]))
      rintro phase ⟨⟩
      exact ⟨(fit _ rfl).funded, by simp [After.rest]⟩
  case case5 pooled =>
      have parked : pooled.Fit false shared.budgeted := fit _ rfl
      exact
        { connections := rfl
          budgeted := rfl
          slots := rfl
          idle := by
            intro other mem
            rcases List.mem_append.mp mem with mem | mem
            · exact idle other mem
            · cases List.mem_singleton.mp mem
              exact ⟨parked.semaphore, parked.funded⟩
          fit := by simp [Phase.Fit]
          keys := .refl _
          announced := .inr (.inr ⟨fun _ => .inl, by simp, by
            simp only [List.length_append, List.length_singleton, Option.elim_some, Phase.pending]
            omega⟩) }
  case case6 notify =>
      exact
        { connections := rfl
          budgeted := rfl
          slots := by cases notify <;> rfl
          idle := idle
          fit := by cases notify <;> simp [Phase.Fit]
          keys := by cases notify <;> exact .refl _
          announced := .inr (.inr ⟨fun _ => .inl, by cases notify <;> simp, by
            cases notify <;> simp [Phase.pending]⟩) }
  case case7 =>
      exact
        { connections := rfl
          budgeted := rfl
          slots := rfl
          idle := idle
          fit := by simp
          keys := (Notify.keys_notifyOne shared.idleReady).symm
          announced := (Notify.waiters_notifyOne shared.idleReady).elim
            (fun none => .inr (.inl none)) fun ⟨one, subset⟩ =>
              .inr (.inr ⟨fun _ mem => .inl (subset mem), by simp, by
                simp only [Option.elim_some, Option.elim_none, Phase.pending, one]
                omega⟩) }
  case case8 =>
      refine .of_unchanged idle rfl ?_ rfl (.inr (by simp [Phase.pending]))
      rintro phase ⟨⟩
      exact ⟨(fit _ rfl).funded, by simp [After.rest]⟩
  case case9 pooled =>
      have checkedOut : pooled.Fit true shared.budgeted := fit _ rfl
      refine .of_unchanged idle ?_ ?_ rfl (.inr (by simp [Phase.pending]))
      · simp [Phase.slots, After.slots, checkedOut.semaphore]
      · rintro phase ⟨⟩
        exact ⟨checkedOut.funded, by simp [After.rest]⟩
  case case10 pooled after =>
      exact
        { connections := rfl
          budgeted := rfl
          slots := Nat.add_assoc _ _ _
          idle := idle
          fit := by
            rintro phase ⟨⟩
            exact (fit _ rfl).2
          keys := by cases after <;> exact .refl _
          announced := .inr (.inr ⟨fun _ => .inl, by simp, by simp [Phase.pending]⟩) }
  case case11 budgetPermit after =>
      refine .of_unchanged idle ?_ ?_ ?_ (.inr ⟨?_, ?_⟩)
      · cases after <;> rfl
      · cases after with
        | closeIdle rest =>
            rintro phase ⟨⟩
            exact fit (.closed budgetPermit (.closeIdle rest)) rfl
        | _ => simp [After.next, Phase.Fit, Exit.Fit]
      · cases after <;> rfl
      · cases after <;> simp [After.next]
      · simp [Phase.pending]

theorem idleTurn_turned (turned : shared.idleTurn turn old = some (shared', new)) :
    Turned shared key old shared' new := by
  revert turned
  fun_cases idleTurn <;> intro turned <;> cases turned
  case case1 =>
      refine .of_sublist idle (List.nil_sublist _) rfl ?_ rfl (by simp) (by simp)
      rintro phase ⟨⟩
      exact idle
  case case2 now maxIdle stale fresh split =>
      rw [List.partition_eq_filter_filter] at split
      cases split
      refine .of_sublist idle List.filter_sublist rfl ?_ rfl (by simp) (by simp)
      rintro phase ⟨⟩
      exact fun other mem => idle other (List.mem_of_mem_filter mem)
  case case3 => exact .of_unchanged idle rfl (by simp) rfl (.inr (by simp [Phase.pending]))
  case case4 pooled rest =>
      have parked : ∀ other ∈ pooled :: rest, other.Fit false shared.budgeted := fit _ rfl
      rw [List.forall_mem_cons] at parked
      refine .of_unchanged idle ?_ ?_ rfl (.inr (by simp [Phase.pending]))
      · simp [Phase.slots, After.slots, parked.1.semaphore]
      · rintro phase ⟨⟩
        exact ⟨parked.1.funded, parked.2⟩
  case case5 => exact .of_unchanged idle rfl (by simp [Phase.Fit]) rfl (.inr (by simp))
  case case7 => exact .of_unchanged idle rfl (by simp) rfl (.inr (by simp [Phase.pending]))
  case case8 pooled rest split =>
      have parked := idle pooled (by simp [split])
      refine .of_sublist idle (by simp [split]) ?_ ?_ rfl (by simp) (by simp [Phase.pending])
      · simp [Phase.slots, After.slots, parked.semaphore]
      · rintro phase ⟨⟩
        exact ⟨parked.funded, by simp [After.rest]⟩
  case case9 => exact .of_unchanged idle rfl (by simp) rfl (.inr (by simp [Phase.pending]))
  case case10 pooled =>
      refine .of_unchanged idle rfl ?_ rfl (.inr (by simp [Phase.pending]))
      rintro phase ⟨⟩
      exact fit (.dropping pooled .yieldIdle) rfl

theorem turn_turned (member : old.any Phase.isRegistered = true → key ∈ shared.idleReady.keys)
    (turned : shared.turn key turn old = some (shared', new)) :
    Turned shared key old shared' new := by
  rw [Shared.turn, Option.orElse_eq_some, Option.orElse_eq_some] at turned
  rcases turned with (turned | ⟨-, turned⟩) | ⟨-, turned⟩
  · exact acquireTurn_turned idle fit member turned
  · exact checkedOutTurn_turned idle fit turned
  · exact idleTurn_turned idle fit turned

end

end

end Shared

def slotHolders (pool : ConnectionPool) : ℕ :=
  pool.calls.total Phase.slots

def openSockets (pool : ConnectionPool) : ℕ :=
  pool.shared.idle.length + pool.calls.total Phase.sockets

def heldPermits (pool : ConnectionPool) : ℕ :=
  pool.shared.idle.countP PooledConnection.budgetPermit + pool.calls.total Phase.budgetPermits

/-- No call is running: each waits for a slot or for the budget, or has returned its connection. -/
def Quiet (pool : ConnectionPool) : Prop :=
  ∀ key phase, pool.calls.lookup key = some phase →
    phase = .slotWait ∨ (∃ pooled, phase = .checkedOut pooled) ∨
      phase = .selecting ∧ pool.shared.idleReady.isReady key = false

structure Sound (connections : ℕ) (budgeted : Bool) (pool : ConnectionPool) : Prop where
  size : pool.shared.connections = connections
  budget : pool.shared.budgeted = budgeted
  slots : pool.shared.semaphore + pool.slotHolders = connections
  idle : ∀ pooled ∈ pool.shared.idle, pooled.Fit false pool.shared.budgeted
  fit : ∀ key phase, pool.calls.lookup key = some phase → phase.Fit pool.shared.budgeted
  apart : pool.shared.idleReady.keys.Nodup
  registered : ∀ key, key ∈ pool.shared.idleReady.keys ↔
    (pool.calls.lookup key).any Phase.isRegistered = true
  announced : (∃ key ∈ pool.shared.idleReady.waiters, pool.calls.lookup key = some .selecting) →
    pool.shared.idle.length ≤
      pool.shared.idleReady.notified.length + pool.calls.total Phase.pending

theorem sound_new (connections : ℕ) (budgeted : Bool) :
    (new connections budgeted).Sound connections budgeted where
  size := rfl
  budget := rfl
  slots := rfl
  idle := by simp [new]
  fit := by simp [new]
  apart := List.nodup_nil
  registered := by simp [new, Notify.empty]
  announced := by simp [new, Notify.empty]

variable {pool pool' : ConnectionPool} {connections : ℕ} {label : ℕ × Turn}

namespace Sound

theorem step (sound : pool.Sound connections budgeted) (move : pool.Step label pool') :
    pool'.Sound connections budgeted := by
  rcases label with ⟨key, turn⟩
  rcases Option.map_eq_some_iff.mp move with ⟨⟨shared, new⟩, turned, rfl⟩
  have spec := Shared.turn_turned sound.idle (sound.fit key) (sound.registered key).mpr turned
  have others : ∀ other, other ≠ key →
      (pool.calls.put key new).lookup other = pool.calls.lookup other := fun other differs =>
    Registry.lookup_put_of_ne new differs
  have total := Registry.total_put pool.calls key
  rcases Notify.nodup_of_perm spec.keys sound.apart (sound.registered key) with
    ⟨apart, mem, rest⟩
  exact
    { size := spec.connections.trans sound.size
      budget := spec.budgeted.trans sound.budget
      slots := by
        have slots := spec.slots
        have before := sound.slots
        have change := total Phase.slots new
        simp only [slotHolders] at before ⊢
        omega
      idle := by
        rw [spec.budgeted]
        exact spec.idle
      fit := by
        rw [spec.budgeted]
        intro other phase found
        by_cases same : other = key
        · subst same
          rw [Registry.lookup_put_self] at found
          exact spec.fit phase found
        · rw [others other same] at found
          exact sound.fit other phase found
      apart := apart
      registered := by
        intro other
        by_cases same : other = key
        · subst same
          rw [Registry.lookup_put_self]
          exact mem
        · rw [rest other same, others other same]
          exact sound.registered other
      announced := by
        rintro ⟨waiter, waiting, selecting⟩
        rcases spec.announced with none | none | ⟨subset, entered, balance⟩
        · simp [none]
        · dsimp only at waiting
          simp [none] at waiting
        · have differs : waiter ≠ key := by
            rintro rfl
            rw [Registry.lookup_put_self] at selecting
            exact entered selecting
          rw [others waiter differs] at selecting
          have held := sound.announced
            ⟨waiter, (subset waiter waiting).resolve_right differs, selecting⟩
          have change := total Phase.pending new
          dsimp only at balance ⊢
          omega }

theorem of_run {labels : List (ℕ × Turn)}
    (run : Run Step (new connections budgeted) labels pool) : pool.Sound connections budgeted :=
  run.invariant (fun _ pool => pool.Sound connections budgeted) (sound_new connections budgeted)
    fun _ _ _ _ _ sound move => sound.step move

theorem openSockets_le (sound : pool.Sound connections true) :
    pool.openSockets ≤ pool.heldPermits := by
  have funded : pool.shared.idle.countP PooledConnection.budgetPermit = pool.shared.idle.length :=
    List.countP_eq_length.mpr fun pooled mem => (sound.idle pooled mem).funded sound.budget
  have calls : pool.calls.total Phase.sockets ≤ pool.calls.total Phase.budgetPermits := by
    apply Registry.total_le_total
    intro key phase found
    have fit := sound.fit key phase found
    rw [sound.budget] at fit
    exact Phase.sockets_le_budgetPermits fit
  rw [openSockets, heldPermits, funded]
  exact Nat.add_le_add_left calls _

theorem idle_eq_nil (sound : pool.Sound connections budgeted) (quiet : pool.Quiet) {key : ℕ}
    (waiting : pool.calls.lookup key = some .selecting) : pool.shared.idle = [] := by
  have unnotified : ∀ other, pool.shared.idleReady.isReady other = false := by
    intro other
    by_contra ready
    have some := Notify.isReady_eq_true.mp (Bool.eq_true_of_not_eq_false ready)
    have registered := (sound.registered other).mp (Notify.mem_keys.mpr (.inr some))
    rcases (Option.any_eq_true _ _).mp registered with ⟨phase, found, isRegistered⟩
    rcases quiet other phase found with rfl | ⟨pooled, rfl⟩ | ⟨-, silent⟩
    · cases isRegistered
    · cases isRegistered
    · exact ready silent
  have none : pool.shared.idleReady.notified = [] := by
    apply List.eq_nil_iff_forall_not_mem.mpr
    intro other mem
    have ready := Notify.isReady_eq_true.mpr (.inl mem)
    rw [unnotified other] at ready
    cases ready
  have rest : pool.calls.total Phase.pending = 0 := by
    apply Registry.total_eq_zero
    intro other phase found
    rcases quiet other phase found with rfl | ⟨pooled, rfl⟩ | ⟨rfl, -⟩ <;> rfl
  have isKey : key ∈ pool.shared.idleReady.keys := by
    rw [sound.registered, waiting]
    rfl
  have isWaiter : key ∈ pool.shared.idleReady.waiters := by
    apply (Notify.mem_keys.mp isKey).resolve_right
    intro some
    have ready := Notify.isReady_eq_true.mpr some
    rw [unnotified key] at ready
    cases ready
  have announced := sound.announced ⟨key, isWaiter, waiting⟩
  rw [none, rest] at announced
  exact List.length_eq_zero_iff.mp (Nat.le_zero.mp announced)

end Sound

/-- Whatever the calls do and wherever they are cut short, the free slots and those in use are the
configured ones, every open socket of a budgeted pool is paid for, and no `acquire` of a quiet pool
waits for the budget next to a parked connection. -/
theorem slots_sockets_parked {labels : List (ℕ × Turn)}
    (run : Run Step (new connections budgeted) labels pool) :
    pool.shared.semaphore + pool.slotHolders = connections ∧
      (budgeted = true → pool.openSockets ≤ pool.heldPermits) ∧
      (pool.Quiet → pool.shared.idle ≠ [] →
        ∀ key, pool.calls.lookup key ≠ some .selecting) := by
  have sound := Sound.of_run run
  refine ⟨sound.slots, ?_, ?_⟩
  · rintro rfl
    exact sound.openSockets_le
  · intro quiet parked key waiting
    exact parked (sound.idle_eq_nil quiet waiting)

/-- A connection is parked between the look of the second call at the idle list and its wait, and
the second call takes it. -/
def handedOn : List (ℕ × Turn) :=
  [(0, .acquire), (0, .takeSlot), (0, .enable), (0, .popIdle), (0, .granted), (0, .dropParked),
    (0, .dropWait), (0, .leave), (0, .connected 0), (1, .acquire), (1, .takeSlot), (1, .enable),
    (1, .popIdle), (0, .release false), (0, .park 5), (0, .addPermit), (0, .notifyOne),
    (1, .parked), (1, .enable), (1, .popIdle), (1, .checkIdle 6 false), (1, .dropParked),
    (1, .dropWait), (1, .leave), (2, .acquire), (3, .closeIdle), (3, .closeNext)]

theorem slots_sockets_parked_handedOn :
    ∃ pool, Run Step (new 2 true) handedOn pool ∧
      pool.calls.lookup 1 = some (.checkedOut ⟨true, 5, true, true⟩) ∧
      pool.shared.semaphore = 1 ∧ pool.slotHolders = 1 ∧ pool.openSockets ≤ pool.heldPermits := by
  have ends : (execute next (new 2 true) handedOn).map (fun pool =>
      (pool.calls.lookup 1, pool.shared.semaphore)) =
        some (some (.checkedOut ⟨true, 5, true, true⟩), 1) := by decide
  rcases Option.map_eq_some_iff.mp ends with ⟨pool, executed, seen⟩
  rcases Prod.mk.inj seen with ⟨taken, free⟩
  have run : Run Step (new 2 true) handedOn pool :=
    Run.of_execute (fun _ _ _ move => move) .start executed
  have holds := slots_sockets_parked run
  refine ⟨pool, run, taken, free, ?_, holds.2.1 rfl⟩
  have slots := holds.1
  omega

end ConnectionPool

end Rustnzb.Nntp
