import Rustnzb.Lib.Notify
import Rustnzb.Lib.Registry
import Rustnzb.Lib.Run

/-!
# The connection pool of a server

The semaphore, the budget and the idle list are atomic objects: a turn of a call is what it does up
to and with its next access to one of them. A call is `acquire`, from its wait for a slot until the
connection that it returns is given back, or one of the functions that close idle connections.

The budget is shared with others, so a label says what it answers: when a permit is granted, and
whether a waiter at another tier wants one. A place in line for the budget is not a permit. The
names and counts of connections, the ramp-up delay and the server's configuration are left out: they
only delay a connect or stand in log lines.
-/

namespace Rustnzb.Nntp

open Lib

/-- A connection, which is an open socket until it is dropped. -/
structure PooledConnection where
  /-- `ConnectionState::Ready`, and connected. -/
  ready : Bool
  lastUsed : ℕ
  /-- `semaphore` is set: the drop guard is armed. -/
  semaphore : Bool
  budgetPermit : Bool
  deriving DecidableEq

namespace ConnectionPool

def idleTimeout : ℕ := 60000

/-- The health check of a socket taken from the idle list, with the answer of a ping: the
connection, or the budget permit that it held. -/
def checkIdle (pooled : PooledConnection) (now : ℕ) (ping : Bool) : Except Bool PooledConnection :=
  if pooled.ready then
    if idleTimeout < now - pooled.lastUsed then
      if ping then .ok { pooled with lastUsed := now } else .error pooled.budgetPermit
    else .ok pooled
  else .error pooled.budgetPermit

inductive Exit where
  | reuse (pooled : PooledConnection)
  | connect (budgetPermit : Bool)
  | fail
  deriving DecidableEq

inductive After where
  | addPermit
  /-- Leave `acquire`, which was cancelled. -/
  | unwind (budgetWait : Bool)
  | finish
  | closeIdle (rest : List PooledConnection)
  | yieldIdle
  deriving DecidableEq

/-- Where a call is. `budgetWait` says whether `acquire` is in line for the budget, and `parked`
whether it is registered with `idle_ready`. -/
inductive Phase where
  | slotWait
  | looping (budgetWait : Bool)
  | enabled (budgetWait : Bool)
  | checking (budgetWait : Bool) (pooled : PooledConnection)
  | selecting
  | leaving (exit : Exit) (parked budgetWait : Bool)
  | connecting (budgetPermit : Bool)
  | checkedOut (pooled : PooledConnection)
  | parking (pooled : PooledConnection)
  | addingPermit (notify : Bool)
  | notifying
  | dropping (pooled : PooledConnection) (after : After)
  | closed (budgetPermit : Bool) (after : After)
  | closing (conns : List PooledConnection)
  | yielding
  deriving DecidableEq

structure Shared where
  connections : ℕ
  budgeted : Bool
  semaphore : ℕ
  idle : List PooledConnection
  idleReady : Notify ℕ

inductive Turn where
  | acquire
  | takeSlot
  | timeout
  | cancel
  | enable
  | popIdle
  | checkIdle (now : ℕ) (ping : Bool)
  | granted
  | parked
  | dropParked
  | dropWait
  | leave
  | connected (now : ℕ)
  | connectFailed
  | use (ready : Bool) (lastUsed : ℕ)
  | release (wantedElsewhere : Bool)
  | park (now : ℕ)
  | addPermit
  | notifyOne
  | discard
  | drop
  | dropConn
  | dropPermit
  | closeIdle
  | closeIdleOlderThan (now maxIdle : ℕ)
  | closeNext
  | yieldIdleToWaiters
  | yieldNext (wantedElsewhere : Bool)

/-- When no idle connection can be had: to the `select!`, or on to a connect. -/
def afterIdle (budgeted budgetWait : Bool) : Phase :=
  if budgeted then .selecting else .leaving (.connect false) true budgetWait

def After.next : After → Option Phase
  | .addPermit => some (.addingPermit false)
  | .unwind budgetWait => some (.leaving .fail true budgetWait)
  | .finish => none
  | .closeIdle rest => some (.closing rest)
  | .yieldIdle => some .yielding

namespace Shared

def acquireTurn (shared : Shared) (key : ℕ) : Turn → Option Phase → Option (Shared × Option Phase)
  | .acquire, none => some (shared, some .slotWait)
  | .takeSlot, some .slotWait =>
      if 0 < shared.semaphore then
        some ({ shared with semaphore := shared.semaphore - 1 }, some (.looping false))
      else none
  | .timeout, some .slotWait => some (shared, none)
  | .cancel, some .slotWait => some (shared, none)
  | .enable, some (.looping budgetWait) =>
      some ({ shared with idleReady := shared.idleReady.enable key }, some (.enabled budgetWait))
  | .popIdle, some (.enabled budgetWait) =>
      match shared.idle.getLast? with
      | some pooled =>
          some ({ shared with idle := shared.idle.dropLast }, some (.checking budgetWait pooled))
      | none => some (shared, some (afterIdle shared.budgeted budgetWait))
  | .checkIdle now ping, some (.checking budgetWait pooled) =>
      match ConnectionPool.checkIdle pooled now ping with
      | .ok pooled =>
          some (shared, some (.leaving (.reuse { pooled with semaphore := true }) true budgetWait))
      | .error true => some (shared, some (.leaving (.connect true) true budgetWait))
      | .error false => some (shared, some (afterIdle shared.budgeted budgetWait))
  | .cancel, some (.checking budgetWait pooled) =>
      some (shared, some (.dropping pooled (.unwind budgetWait)))
  | .granted, some .selecting => some (shared, some (.leaving (.connect true) true true))
  | .parked, some .selecting =>
      if shared.idleReady.isReady key then
        some ({ shared with idleReady := shared.idleReady.consume key }, some (.looping true))
      else none
  | .timeout, some .selecting => some (shared, some (.leaving .fail true true))
  | .cancel, some .selecting => some (shared, some (.leaving .fail true true))
  | .dropParked, some (.leaving exit true budgetWait) =>
      some ({ shared with idleReady := shared.idleReady.leave key },
        some (.leaving exit false budgetWait))
  | .dropWait, some (.leaving exit false true) => some (shared, some (.leaving exit false false))
  | .leave, some (.leaving (.reuse pooled) false false) => some (shared, some (.checkedOut pooled))
  | .leave, some (.leaving (.connect budgetPermit) false false) =>
      some (shared, some (.connecting budgetPermit))
  | .leave, some (.leaving .fail false false) => some (shared, some (.addingPermit false))
  | .connected now, some (.connecting budgetPermit) =>
      some (shared, some (.checkedOut ⟨true, now, true, budgetPermit⟩))
  | .connectFailed, some (.connecting budgetPermit) =>
      some (shared, some (.closed budgetPermit .addPermit))
  | .cancel, some (.connecting budgetPermit) =>
      some (shared, some (.closed budgetPermit .addPermit))
  | _, _ => none

def checkedOutTurn (shared : Shared) : Turn → Option Phase → Option (Shared × Option Phase)
  | .use ready lastUsed, some (.checkedOut pooled) =>
      some (shared, some (.checkedOut { pooled with ready := ready, lastUsed := lastUsed }))
  | .release wantedElsewhere, some (.checkedOut pooled) =>
      let pooled := { pooled with semaphore := false }
      if pooled.budgetPermit && shared.budgeted && wantedElsewhere then
        some (shared, some (.dropping pooled .addPermit))
      else if pooled.ready then some (shared, some (.parking pooled))
      else some (shared, some (.dropping pooled .addPermit))
  | .park now, some (.parking pooled) =>
      some ({ shared with idle := shared.idle ++ [{ pooled with lastUsed := now }] },
        some (.addingPermit true))
  | .addPermit, some (.addingPermit notify) =>
      some ({ shared with semaphore := shared.semaphore + 1 },
        if notify then some .notifying else none)
  | .notifyOne, some .notifying =>
      some ({ shared with idleReady := shared.idleReady.notifyOne }, none)
  | .discard, some (.checkedOut pooled) =>
      some (shared, some (.dropping { pooled with semaphore := false } .addPermit))
  | .drop, some (.checkedOut pooled) => some (shared, some (.dropping pooled .finish))
  | .dropConn, some (.dropping pooled after) =>
      -- the guard first, then the fields in the order of their declaration
      some ({ shared with semaphore := shared.semaphore + pooled.semaphore.toNat },
        some (.closed pooled.budgetPermit after))
  | .dropPermit, some (.closed _ after) => some (shared, after.next)
  | _, _ => none

def idleTurn (shared : Shared) : Turn → Option Phase → Option (Shared × Option Phase)
  | .closeIdle, none => some ({ shared with idle := [] }, some (.closing shared.idle))
  | .closeIdleOlderThan now maxIdle, none =>
      let (stale, fresh) := shared.idle.partition fun pooled => maxIdle < now - pooled.lastUsed
      some ({ shared with idle := fresh }, some (.closing stale))
  | .closeNext, some (.closing []) => some (shared, none)
  | .closeNext, some (.closing (pooled :: rest)) =>
      some (shared, some (.dropping pooled (.closeIdle rest)))
  | .yieldIdleToWaiters, none => if shared.budgeted then some (shared, some .yielding) else none
  | .yieldNext wantedElsewhere, some .yielding =>
      match shared.idle with
      | [] => some (shared, none)
      | pooled :: rest =>
          if wantedElsewhere then
            some ({ shared with idle := rest }, some (.dropping pooled .yieldIdle))
          else some (shared, none)
  | .cancel, some (.dropping pooled .yieldIdle) => some (shared, some (.dropping pooled .finish))
  | _, _ => none

def turn (shared : Shared) (key : ℕ) (turn : Turn) (phase : Option Phase) :
    Option (Shared × Option Phase) :=
  (shared.acquireTurn key turn phase <|> shared.checkedOutTurn turn phase) <|>
    shared.idleTurn turn phase

end Shared

end ConnectionPool

structure ConnectionPool where
  shared : ConnectionPool.Shared
  calls : Registry ℕ ConnectionPool.Phase

namespace ConnectionPool

def new (connections : ℕ) (budgeted : Bool) : ConnectionPool where
  shared := ⟨connections, budgeted, connections, [], .empty⟩
  calls := ∅

def next (pool : ConnectionPool) (label : ℕ × Turn) : Option ConnectionPool :=
  (pool.shared.turn label.1 label.2 (pool.calls.lookup label.1)).map fun turned =>
    ⟨turned.1, pool.calls.put label.1 turned.2⟩

def Step (pool : ConnectionPool) (label : ℕ × Turn) (pool' : ConnectionPool) : Prop :=
  pool.next label = some pool'

end ConnectionPool

end Rustnzb.Nntp
