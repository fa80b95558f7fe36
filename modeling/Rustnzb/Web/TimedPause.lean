import Mathlib.Data.List.Perm.Basic
import Rustnzb.Lib.Run
import Rustnzb.Web.PauseHolds

/-!
# Timed pauses and their timers

`pause_until` is a cell of its own. `pause_for` writes it after `pause_all` has returned, every
operation that pauses or that resumes the jobs clears it, and a timer compares it, clears it and
lifts the user's hold in three steps. The holds change under `pause_transition`; what is done under
it and concerns the cell is a second step of the same section, so that a deadline can be set or
compared in between.

`superseded` is not in the source: a later user pause has begun.
-/

namespace Rustnzb.Web

open Lib (Run execute)

inductive TimerPhase where
  | sleeping
  | matched
  | cleared
  | resuming
  | done
  deriving DecidableEq

namespace TimerPhase

def fires : TimerPhase → Bool
  | matched | cleared | resuming => true
  | sleeping | done => false

end TimerPhase

structure Timer where
  deadline : ℤ
  phase : TimerPhase
  superseded : Bool

/-- A call of `pause_for` that has paused and has not set its deadline yet. -/
structure PendingPause where
  duration : ℕ
  superseded : Bool

/-- What is left to do of a section under `pause_transition`. -/
inductive Section where
  /-- The holds, in `pause_all`; `pause_for` goes on with its duration. -/
  | pausingUser (duration : Option ℕ)
  /-- The holds, in `pause_all_with_hold`. -/
  | pausingDisk (since : ℤ)
  /-- `resume_jobs_after_holds`, for a timer or for somebody else. -/
  | resuming (timer : Option ℕ)

structure TimedPause where
  gate : HoldGate
  pauseUntil : Option ℤ
  transition : Option Section
  pending : List PendingPause
  timers : List Timer
  now : ℤ

inductive PauseEvent where
  | tick (elapsed : ℕ)
  | pauseAll
  | pauseFor (duration : ℕ)
  | diskTrip (since : ℤ)
  /-- The section under `pause_transition` ends. -/
  | finish
  | resumeAll
  | diskClear
  | schedule (decision : ScheduleDecision) (enabled : Bool)
  | setDeadline (call : ℕ)
  | check (timer : ℕ)
  | clear (timer : ℕ)
  | expire (timer : ℕ)

def maxPauseSecs : ℕ := 365 * 24 * 60 * 60

namespace TimedPause

def start (settings : Settings) (now : ℤ) : TimedPause where
  gate := ({ HoldGate.new with settings := settings } : HoldGate).restore
  pauseUntil := none
  transition := none
  pending := []
  timers := []
  now := now

def beginPause (state : TimedPause) (duration : Option ℕ) : TimedPause :=
  { state with
    pauseUntil := none
    transition := some (.pausingUser duration)
    pending := state.pending.map fun call => { call with superseded := true }
    timers := state.timers.map fun timer => { timer with superseded := true } }

def release (state : TimedPause) (result : HoldGate × JobsRequest) (timer : Option ℕ) :
    TimedPause :=
  { state with
    gate := result.1
    transition := match result.2 with
      | .resume => some (.resuming timer)
      | .pause | .nothing => none }

def setPhase (state : TimedPause) (index : ℕ) (timer : Timer) (phase : TimerPhase) : TimedPause :=
  { state with timers := state.timers.set index { timer with phase := phase } }

def finish (state : TimedPause) : Section → TimedPause
  | .pausingUser duration =>
      { state with
        gate := state.gate.pauseAll.1
        transition := none
        pending := state.pending ++
          duration.toList.map fun duration => { duration := duration, superseded := false } }
  | .pausingDisk since =>
      { state with gate := (state.gate.pauseAllWithHold (some since)).1, transition := none }
  | .resuming none => { state with pauseUntil := none, transition := none }
  | .resuming (some index) =>
      { state with
        pauseUntil := none
        transition := none
        timers := state.timers.modify index fun timer => { timer with phase := .done } }

def deadlineOf (state : TimedPause) (duration : ℕ) : ℤ :=
  state.now + min duration maxPauseSecs

def step (state : TimedPause) : PauseEvent → Option TimedPause
  | .tick elapsed => some { state with now := state.now + elapsed }
  | .finish => state.transition.map state.finish
  | .setDeadline call =>
      state.pending[call]?.map fun pause =>
        { state with
          pauseUntil := some (state.deadlineOf pause.duration)
          pending := state.pending.eraseIdx call
          timers := state.timers ++
            [{ deadline := state.deadlineOf pause.duration
               phase := .sleeping
               superseded := pause.superseded }] }
  | .check index =>
      match state.timers[index]? with
      | some timer =>
          if timer.phase = .sleeping ∧ timer.deadline ≤ state.now then
            some (state.setPhase index timer
              (if state.pauseUntil = some timer.deadline then .matched else .done))
          else none
      | none => none
  | .clear index =>
      match state.timers[index]? with
      | some timer =>
          if timer.phase = .matched then
            some { state.setPhase index timer .cleared with pauseUntil := none }
          else none
      | none => none
  | .expire index =>
      match state.timers[index]?, state.transition with
      | some timer, none =>
          if timer.phase = .cleared then
            let expired := state.gate.expireUserHold
            some ((state.setPhase index timer
              (if expired.2 = .resume then .resuming else .done)).release expired (some index))
          else none
      | _, _ => none
  | .pauseAll => if state.transition.isNone then some (state.beginPause none) else none
  | .pauseFor duration =>
      if state.transition.isNone then some (state.beginPause (some duration)) else none
  | .diskTrip since =>
      if state.transition.isNone then
        some { state with pauseUntil := none, transition := some (.pausingDisk since) }
      else none
  | .resumeAll =>
      if state.transition.isNone then some (state.release state.gate.resumeAll none) else none
  | .diskClear =>
      if state.transition.isNone then some (state.release state.gate.clearDiskHold none) else none
  | .schedule decision enabled =>
      if state.transition.isNone then
        some (state.release (state.gate.applyScheduleHold (decision.windows enabled)) none)
      else none

def Step (state : TimedPause) (event : PauseEvent) (next : TimedPause) : Prop :=
  state.step event = some next

theorem step_functional (state : TimedPause) (event : PauseEvent) (next other : TimedPause)
    (move : Step state event next) (move' : Step state event other) : next = other :=
  Option.some.inj (move.symm.trans move')

variable {state next : TimedPause}

variable {index : ℕ}

theorem step_check (move : Step state (.check index) next) :
    ∃ timer, state.timers[index]? = some timer ∧ timer.phase = .sleeping ∧
      timer.deadline ≤ state.now ∧ next = state.setPhase index timer
        (if state.pauseUntil = some timer.deadline then .matched else .done) := by
  simp only [Step, step] at move
  split at move
  next timer found =>
    rcases Option.ite_none_right_eq_some.mp move with ⟨⟨sleeps, due⟩, ⟨⟩⟩
    exact ⟨timer, found, sleeps, due, rfl⟩
  · cases move

theorem step_clear (move : Step state (.clear index) next) :
    ∃ timer, state.timers[index]? = some timer ∧ timer.phase = .matched ∧
      next = { state.setPhase index timer .cleared with pauseUntil := none } := by
  simp only [Step, step] at move
  split at move
  next timer found =>
    rcases Option.ite_none_right_eq_some.mp move with ⟨matched, ⟨⟩⟩
    exact ⟨timer, found, matched, rfl⟩
  · cases move

theorem step_expire (move : Step state (.expire index) next) :
    ∃ timer, state.timers[index]? = some timer ∧ timer.phase = .cleared ∧
      state.transition = none ∧ next = (state.setPhase index timer
        (if state.gate.expireUserHold.2 = .resume then .resuming else .done)).release
          state.gate.expireUserHold (some index) := by
  simp only [Step, step] at move
  split at move
  next timer found free =>
    rcases Option.ite_none_right_eq_some.mp move with ⟨cleared, ⟨⟩⟩
    exact ⟨timer, found, cleared, free, rfl⟩
  · cases move

/-! ## What the timers should do -/

def timerOf (state : TimedPause) : PauseEvent → Option ℕ
  | .check index | .clear index | .expire index => some index
  | .finish =>
      match state.transition with
      | some (.resuming timer) => timer
      | _ => none
  | _ => none

/-- The timer of the step has fired: it found another deadline, or it has lifted the hold. -/
def Fired (state next : TimedPause) (event : PauseEvent) (index : ℕ) : Prop :=
  (event = .check index ∧ ∃ timer ∈ next.timers[index]?, timer.phase = .done) ∨
    event = .expire index

/-- A timer that was not superseded leaves no user hold, and one that was touches neither the hold
nor the deadline. -/
structure Rightful (state : TimedPause) (event : PauseEvent) (next : TimedPause) : Prop where
  lifts : ∀ index timer, state.timers[index]? = some timer → timer.superseded = false →
    Fired state next event index →
      next.gate.holds.user = false ∧ (next.gate.globallyPaused = true ↔
        next.gate.holds.disk.isSome = true ∨ next.gate.holds.schedule = true)
  spares : ∀ index timer, state.timerOf event = some index → state.timers[index]? = some timer →
    timer.superseded = true →
      next.gate.holds.user = state.gate.holds.user ∧ next.pauseUntil = state.pauseUntil

/-- No user pause begins while a timer is between its comparison and its end or before the deadline
of an earlier one is set, no disk hold begins while a timer waits for the user's pause, and no two
timers wait for one moment. -/
def Undisturbed (state : TimedPause) : PauseEvent → Prop
  | .pauseAll | .pauseFor _ => ∀ timer ∈ state.timers, timer.phase.fires = false
  | .diskTrip _ => ∀ timer ∈ state.timers, timer.phase = .sleeping →
      state.pauseUntil = some timer.deadline → state.gate.holds.user = false
  | .setDeadline call => ∀ pause ∈ state.pending[call]?, pause.superseded = false ∧
      ∀ timer ∈ state.timers, timer.phase = .sleeping →
        timer.deadline ≠ state.deadlineOf pause.duration
  | _ => True

instance (state : TimedPause) : (event : PauseEvent) → Decidable (state.Undisturbed event)
  | .pauseAll | .pauseFor _ => inferInstanceAs (Decidable (∀ timer ∈ state.timers, _))
  | .diskTrip _ => inferInstanceAs (Decidable (∀ timer ∈ state.timers, _ → _ → _))
  | .setDeadline call => inferInstanceAs (Decidable (∀ pause ∈ state.pending[call]?, _ ∧ _))
  | .tick _ | .finish | .resumeAll | .diskClear | .schedule .. | .check _ | .clear _ | .expire _ =>
      inferInstanceAs (Decidable True)

/-! ## What a run keeps -/

/-- Which pauses were superseded, of those that have no deadline yet and of those that have one. -/
def flags (state : TimedPause) : List Bool :=
  state.pending.map (·.superseded) ++ state.timers.map (·.superseded)

structure Timed (state : TimedPause) : Prop where
  shown : state.gate.globallyPaused = state.gate.holds.any
  current : ∀ timer ∈ state.timers, timer.superseded = false → timer.phase = .sleeping →
    state.pauseUntil = some timer.deadline ∨ state.gate.holds.user = false
  stale : ∀ timer ∈ state.timers, timer.superseded = true → timer.phase = .sleeping →
    state.pauseUntil ≠ some timer.deadline
  firing : ∀ timer ∈ state.timers, timer.phase.fires = true → timer.superseded = false
  newest : state.flags.count false ≤ 1
  pausing : ∀ duration, state.transition = some (.pausingUser duration) →
    ∀ flag ∈ state.flags, flag = true
  resuming : ∀ timer, state.transition = some (.resuming timer) →
    state.gate.holds.user = false ∧
      ∀ index ∈ timer, ∀ timer ∈ state.timers[index]?, timer.superseded = false

structure Changes (gate : HoldGate) (result : HoldGate × JobsRequest) : Prop where
  shown : result.1.globallyPaused = result.1.holds.any
  user : result.1.holds.user = true → gate.holds.user = true
  resumes : result.2 = .resume → result.1.holds.user = false

theorem changes_applyScheduleHold {gate : HoldGate} (shown : gate.globallyPaused = gate.holds.any)
    (windows : List String) : Changes gate (gate.applyScheduleHold windows) := by
  have sameUser : (gate.applyScheduleHold windows).1.holds.user = gate.holds.user := by
    simp only [HoldGate.applyScheduleHold]
    split
    · rfl
    · rfl
  constructor
  case shown =>
    simp only [HoldGate.applyScheduleHold]
    split
    · exact shown
    · rfl
  case user =>
    rw [sameUser]
    exact id
  case resumes =>
    intro resume
    rw [sameUser]
    simp only [HoldGate.applyScheduleHold] at resume
    split at resume
    · cases resume
    · split at resume
      next lifted =>
        simp only [PauseHolds.any, PauseHolds.evaluate, PauseHolds.retainOpen] at lifted
        rcases isUser : gate.holds.user with _ | _
        · rfl
        · simp [isUser] at lifted
      · cases resume

theorem changes_expireUserHold (gate : HoldGate) : Changes gate gate.expireUserHold where
  shown := rfl
  user isUser := by cases isUser
  resumes _ := rfl

theorem changes_resumeAll (gate : HoldGate) : Changes gate gate.resumeAll where
  shown := rfl
  user isUser := by cases isUser
  resumes _ := rfl

theorem changes_clearDiskHold (gate : HoldGate) : Changes gate gate.clearDiskHold where
  shown := rfl
  user isUser := isUser
  resumes resume := by
    simp only [HoldGate.clearDiskHold, HoldGate.resumeHold, PauseHolds.any] at resume ⊢
    rcases isUser : gate.holds.user with _ | _
    · rfl
    · simp [isUser] at resume

theorem mem_setPhase {state : TimedPause} {timer other : Timer} {phase : TimerPhase}
    (mem : other ∈ (state.setPhase index timer phase).timers) :
    other ∈ state.timers ∨ other = { timer with phase := phase } :=
  List.mem_or_eq_of_mem_set mem

theorem modify_eq_set {timers : List Timer} {timer : Timer} (found : timers[index]? = some timer)
    (phase : TimerPhase) :
    timers.modify index (fun timer => { timer with phase := phase }) =
      timers.set index { timer with phase := phase } := by
  rcases List.getElem?_eq_some_iff.mp found with ⟨bound, rfl⟩
  apply List.ext_getElem
  · simp
  · intro other inModified inSet
    rcases eq_or_ne index other with rfl | differs
    · simp
    · simp [differs]

theorem user_pauseAllWithHold (gate : HoldGate) (since : ℤ) :
    (gate.pauseAllWithHold (some since)).1.holds.user = gate.holds.user := by
  simp only [HoldGate.pauseAllWithHold, HoldGate.pauseForHold, HoldGate.publishHolds,
    PauseHolds.cover]
  split
  · rfl
  · rfl

theorem superseded_set {timers : List Timer} {timer : Timer} (found : timers[index]? = some timer)
    (phase : TimerPhase) :
    (timers.set index { timer with phase := phase }).map (·.superseded) =
      timers.map (·.superseded) := by
  rcases List.getElem?_eq_some_iff.mp found with ⟨bound, rfl⟩
  apply List.ext_getElem
  · simp
  · intro other inSet inMap
    rcases eq_or_ne index other with rfl | differs
    · simp
    · simp [differs]

namespace Timed

variable {state : TimedPause}

theorem start (settings : Settings) (now : ℤ) : Timed (start settings now) where
  shown := rfl
  current timer mem := by simp [TimedPause.start] at mem
  stale timer mem := by simp [TimedPause.start] at mem
  firing timer mem := by simp [TimedPause.start] at mem
  newest := by simp [flags, TimedPause.start]
  pausing duration pausing := by simp [TimedPause.start] at pausing
  resuming timer resuming := by simp [TimedPause.start] at resuming

section

variable (timed : Timed state)

include timed

theorem setPhase {index : ℕ} {timer : Timer}
    (found : state.timers[index]? = some timer) (phase : TimerPhase)
    (awake : phase ≠ .sleeping) (fires : phase.fires = true → timer.superseded = false) :
    Timed (state.setPhase index timer phase) := by
  have sameFlags : (state.setPhase index timer phase).flags = state.flags := by
    simp only [flags, TimedPause.setPhase, superseded_set found]
  constructor
  case shown => exact timed.shown
  case current =>
    intro other mem fresh sleeps
    rcases mem_setPhase mem with old | rfl
    · exact timed.current other old fresh sleeps
    · exact absurd sleeps awake
  case stale =>
    intro other mem superseded sleeps
    rcases mem_setPhase mem with old | rfl
    · exact timed.stale other old superseded sleeps
    · exact absurd sleeps awake
  case firing =>
    intro other mem
    rcases mem_setPhase mem with old | rfl
    · exact timed.firing other old
    · exact fires
  case newest =>
    rw [sameFlags]
    exact timed.newest
  case pausing =>
    rw [sameFlags]
    exact timed.pausing
  case resuming =>
    intro owner resuming
    rcases timed.resuming owner resuming with ⟨user, fresh⟩
    refine ⟨user, fun own isOwn other mem => ?_⟩
    simp only [TimedPause.setPhase, List.getElem?_set] at mem
    split at mem
    next same =>
      subst same
      split at mem
      · cases Option.mem_some_iff.mp mem
        exact fresh _ isOwn timer found
      · cases mem
    · exact fresh own isOwn other mem

theorem release {result : HoldGate × JobsRequest}
    (changes : Changes state.gate result) (owner : Option ℕ)
    (fresh : ∀ index ∈ owner, ∀ timer ∈ state.timers[index]?, timer.superseded = false) :
    Timed (state.release result owner) := by
  constructor
  case shown => exact changes.shown
  case current =>
    intro timer mem unsuperseded sleeps
    rcases timed.current timer mem unsuperseded sleeps with deadline | notUser
    · exact .inl deadline
    · right
      rcases isUser : result.1.holds.user with _ | _
      · exact isUser
      · rw [changes.user isUser] at notUser
        cases notUser
  case stale => exact timed.stale
  case firing => exact timed.firing
  case newest => exact timed.newest
  case pausing =>
    intro duration pausing
    rcases result with ⟨gate, _ | _ | _⟩ <;> simp [TimedPause.release] at pausing
  case resuming =>
    intro timer resuming
    rcases result with ⟨gate, _ | _ | _⟩ <;> simp only [TimedPause.release] at resuming
    · cases resuming
    · cases resuming
    · cases resuming
      exact ⟨changes.resumes rfl, fresh⟩

theorem beginPause (quiet : ∀ timer ∈ state.timers, timer.phase.fires = false)
    (duration : Option ℕ) : Timed (state.beginPause duration) := by
  have superseded : ∀ flag ∈ (state.beginPause duration).flags, flag = true := by
    simp [flags, TimedPause.beginPause]
  constructor
  case shown => exact timed.shown
  case current =>
    intro timer mem fresh
    simp only [TimedPause.beginPause, List.mem_map] at mem
    rcases mem with ⟨old, -, rfl⟩
    cases fresh
  case stale =>
    intro timer mem
    simp [TimedPause.beginPause]
  case firing =>
    intro timer mem fires
    simp only [TimedPause.beginPause, List.mem_map] at mem
    rcases mem with ⟨old, isOld, rfl⟩
    have quiet := quiet old isOld
    rw [fires] at quiet
    cases quiet
  case newest =>
    rw [List.count_eq_zero.mpr fun mem => Bool.false_ne_true (superseded _ mem)]
    exact Nat.zero_le 1
  case pausing => exact fun _ _ => superseded
  case resuming =>
    intro timer resuming
    simp [TimedPause.beginPause] at resuming

theorem beginDisk (since : ℤ) (aside : ∀ timer ∈ state.timers, timer.phase = .sleeping →
      state.pauseUntil = some timer.deadline → state.gate.holds.user = false) :
    Timed { state with pauseUntil := none, transition := some (.pausingDisk since) } := by
  constructor
  case shown => exact timed.shown
  case current =>
    intro timer mem fresh sleeps
    rcases timed.current timer mem fresh sleeps with deadline | notUser
    · exact .inr (aside timer mem sleeps deadline)
    · exact .inr notUser
  case stale => simp
  case firing => exact timed.firing
  case newest => exact timed.newest
  case pausing =>
    intro duration pausing
    cases pausing
  case resuming =>
    intro timer resuming
    cases resuming

theorem settle {gate : HoldGate} (shown : gate.globallyPaused = gate.holds.any)
    (user : gate.holds.user = state.gate.holds.user) :
    Timed { state with gate := gate, transition := none } where
  shown := shown
  current timer mem fresh sleeps := by
    rw [user]
    exact timed.current timer mem fresh sleeps
  stale := timed.stale
  firing := timed.firing
  newest := timed.newest
  pausing duration pausing := by cases pausing
  resuming timer resuming := by cases resuming

theorem resumed (notUser : state.gate.holds.user = false) :
    Timed { state with pauseUntil := none, transition := none } where
  shown := timed.shown
  current _ _ _ _ := .inr notUser
  stale _ _ _ _ := by simp
  firing := timed.firing
  newest := timed.newest
  pausing duration pausing := by cases pausing
  resuming timer resuming := by cases resuming

theorem paused {duration : Option ℕ} (during : state.transition = some (.pausingUser duration)) :
    Timed (state.finish (.pausingUser duration)) := by
  have superseded := timed.pausing duration during
  simp only [flags, List.forall_mem_append, List.forall_mem_map] at superseded
  rcases superseded with ⟨ofPending, ofTimers⟩
  constructor
  case shown => rfl
  case current =>
    intro timer mem fresh
    rw [ofTimers timer mem] at fresh
    cases fresh
  case stale => exact timed.stale
  case firing => exact timed.firing
  case newest =>
    have noPending : (state.pending.map (·.superseded)).count false = 0 :=
      List.count_eq_zero.mpr (by simpa using ofPending)
    have noTimers : (state.timers.map (·.superseded)).count false = 0 :=
      List.count_eq_zero.mpr (by simpa using ofTimers)
    simp only [flags, TimedPause.finish, List.map_append, List.count_append, noPending, noTimers]
    cases duration <;> simp
  case pausing =>
    intro duration pausing
    cases pausing
  case resuming =>
    intro timer resuming
    cases resuming

theorem finish {part : Section} (during : state.transition = some part) :
    Timed (state.finish part) := by
  cases part with
  | pausingUser duration => exact timed.paused during
  | pausingDisk since => exact timed.settle rfl (user_pauseAllWithHold state.gate since)
  | resuming owner =>
      rcases timed.resuming owner during with ⟨notUser, -⟩
      have resumed := timed.resumed notUser
      rcases owner with _ | index
      · exact resumed
      · rcases found : state.timers[index]? with _ | timer
        · have absent := List.modify_eq_self (List.getElem?_eq_none_iff.mp found)
            (f := fun timer => { timer with phase := TimerPhase.done })
          simpa only [TimedPause.finish, absent] using resumed
        · have done := resumed.setPhase found .done (by simp)
            (by simp [TimerPhase.fires])
          simpa only [TimedPause.finish, TimedPause.setPhase, modify_eq_set found] using done

theorem setDeadline {call : ℕ} {pause : PendingPause} (found : state.pending[call]? = some pause)
    (fresh : pause.superseded = false) (apart : ∀ timer ∈ state.timers, timer.phase = .sleeping →
      timer.deadline ≠ state.deadlineOf pause.duration) :
    Timed { state with
      pauseUntil := some (state.deadlineOf pause.duration)
      pending := state.pending.eraseIdx call
      timers := state.timers ++
        [{ deadline := state.deadlineOf pause.duration
           phase := .sleeping
           superseded := pause.superseded }] } := by
  rcases List.getElem?_eq_some_iff.mp found with ⟨bound, same⟩
  have counted : (state.pending.map (·.superseded)).count false =
      ((state.pending.eraseIdx call).map (·.superseded)).count false + 1 := by
    have perm := (List.getElem_cons_eraseIdx_perm bound).map (·.superseded)
    rw [← perm.count_eq, List.map_cons, same, fresh, List.count_cons_self]
  have newest := timed.newest
  simp only [flags, List.count_append] at newest
  have superseded : ∀ timer ∈ state.timers, timer.superseded = true := by
    have none : (state.timers.map (·.superseded)).count false = 0 := by omega
    simpa using List.count_eq_zero.mp none
  constructor
  case shown => exact timed.shown
  case current =>
    intro timer mem unsuperseded _
    rcases List.mem_append.mp mem with old | last
    · rw [superseded timer old] at unsuperseded
      cases unsuperseded
    · cases List.mem_singleton.mp last
      exact .inl rfl
  case stale =>
    intro timer mem isSuperseded sleeps same
    rcases List.mem_append.mp mem with old | last
    · exact apart timer old sleeps (Option.some.inj same).symm
    · cases List.mem_singleton.mp last
      rw [fresh] at isSuperseded
      cases isSuperseded
  case firing =>
    intro timer mem fires
    rcases List.mem_append.mp mem with old | last
    · exact timed.firing timer old fires
    · cases List.mem_singleton.mp last
      exact fresh
  case newest =>
    simp only [flags, List.count_append, List.map_append, List.map_singleton, fresh,
      List.count_singleton_self]
    omega
  case pausing =>
    intro duration pausing
    have found : pause.superseded ∈ state.flags :=
      List.mem_append_left _ (List.mem_map_of_mem (List.mem_of_getElem? found))
    rw [timed.pausing duration pausing _ found] at fresh
    cases fresh
  case resuming =>
    intro owner resuming
    rcases timed.resuming owner resuming with ⟨notUser, ofOwner⟩
    refine ⟨notUser, fun index isOwner timer mem => ?_⟩
    simp only [List.getElem?_append] at mem
    split at mem
    · exact ofOwner index isOwner timer mem
    · simp only [List.getElem?_singleton, fresh] at mem
      split at mem
      · cases Option.mem_some_iff.mp mem
        rfl
      · cases mem

theorem superseded_of_fresh {index : ℕ} {timer : Timer} (found : state.timers[index]? = some timer)
    (fresh : timer.superseded = false) {phase : TimerPhase} {other : Timer}
    (mem : other ∈ (state.setPhase index timer phase).timers) :
    other = { timer with phase := phase } ∨ other.superseded = true := by
  rcases List.getElem?_eq_some_iff.mp found with ⟨bound, same⟩
  rcases List.mem_cons.mp ((List.set_perm_cons_eraseIdx bound _).mem_iff.mp mem) with rfl | among
  · exact .inl rfl
  · right
    have newest := timed.newest
    have perm := (List.getElem_cons_eraseIdx_perm bound).map (·.superseded)
    rw [flags, List.count_append, ← perm.count_eq, List.map_cons, same, fresh,
      List.count_cons_self] at newest
    have none : ((state.timers.eraseIdx index).map (·.superseded)).count false = 0 := by omega
    rcases isSuperseded : other.superseded with _ | _
    · exact absurd (isSuperseded ▸ List.mem_map_of_mem among) (List.count_eq_zero.mp none)
    · rfl

theorem step {event : PauseEvent} {next : TimedPause}
    (undisturbed : state.Undisturbed event) (move : Step state event next) : Timed next := by
  simp only [Step] at move
  cases event with
  | tick elapsed =>
      cases move
      exact ⟨timed.shown, timed.current, timed.stale, timed.firing, timed.newest, timed.pausing,
        timed.resuming⟩
  | pauseAll =>
      rcases Option.ite_none_right_eq_some.mp move with ⟨-, ⟨⟩⟩
      exact timed.beginPause undisturbed none
  | pauseFor duration =>
      rcases Option.ite_none_right_eq_some.mp move with ⟨-, ⟨⟩⟩
      exact timed.beginPause undisturbed (some duration)
  | diskTrip since =>
      rcases Option.ite_none_right_eq_some.mp move with ⟨-, ⟨⟩⟩
      exact timed.beginDisk since undisturbed
  | finish =>
      rcases Option.map_eq_some_iff.mp move with ⟨part, during, rfl⟩
      exact timed.finish during
  | resumeAll =>
      rcases Option.ite_none_right_eq_some.mp move with ⟨-, ⟨⟩⟩
      exact timed.release (changes_resumeAll _) none (by simp)
  | diskClear =>
      rcases Option.ite_none_right_eq_some.mp move with ⟨-, ⟨⟩⟩
      exact timed.release (changes_clearDiskHold _) none (by simp)
  | schedule decision enabled =>
      rcases Option.ite_none_right_eq_some.mp move with ⟨-, ⟨⟩⟩
      exact timed.release (changes_applyScheduleHold timed.shown _) none (by simp)
  | setDeadline call =>
      rcases Option.map_eq_some_iff.mp move with ⟨pause, found, rfl⟩
      rcases undisturbed pause found with ⟨fresh, apart⟩
      exact timed.setDeadline found fresh apart
  | check index =>
      rcases step_check move with ⟨timer, found, sleeps, -, rfl⟩
      apply timed.setPhase found
      · split <;> simp
      · intro fires
        split at fires
        next same =>
          rcases isSuperseded : timer.superseded with _ | _
          · rfl
          · exact absurd same (timed.stale timer (List.mem_of_getElem? found) isSuperseded sleeps)
        · cases fires
  | clear index =>
      rcases step_clear move with ⟨timer, found, matched, rfl⟩
      have fresh :=
        timed.firing timer (List.mem_of_getElem? found) (by simp [matched, TimerPhase.fires])
      have cleared := timed.setPhase found .cleared (by simp) fun _ => fresh
      refine ⟨cleared.shown, ?_, by simp, cleared.firing, cleared.newest, cleared.pausing,
        cleared.resuming⟩
      intro other mem unsuperseded sleeps
      rcases timed.superseded_of_fresh found fresh mem with rfl | superseded
      · cases sleeps
      · rw [superseded] at unsuperseded
        cases unsuperseded
  | expire index =>
      rcases step_expire move with ⟨timer, found, cleared, -, rfl⟩
      have fresh :=
        timed.firing timer (List.mem_of_getElem? found) (by simp [cleared, TimerPhase.fires])
      have awake := timed.setPhase found
        (if state.gate.expireUserHold.2 = .resume then .resuming else .done)
          (by split <;> simp) fun _ => fresh
      apply awake.release (changes_expireUserHold _)
      intro own isOwn other mem
      cases Option.mem_some_iff.mp isOwn
      simp only [TimedPause.setPhase, List.getElem?_set_self'] at mem
      rw [found] at mem
      cases Option.mem_some_iff.mp mem
      exact fresh

theorem rightful {event : PauseEvent} (move : Step state event next) :
    Rightful state event next := by
  constructor
  case lifts =>
    rintro index timer found fresh (⟨rfl, after, isAfter, done⟩ | rfl)
    · rcases step_check move with ⟨own, isOwn, sleeps, -, rfl⟩
      cases isOwn.symm.trans found
      have notUser : state.gate.holds.user = false := by
        rcases timed.current timer (List.mem_of_getElem? found) fresh sleeps with same | notUser
        · simp only [TimedPause.setPhase, if_pos same, List.getElem?_set_self'] at isAfter
          rw [found] at isAfter
          cases Option.mem_some_iff.mp isAfter
          cases done
        · exact notUser
      refine ⟨notUser, ?_⟩
      rw [TimedPause.setPhase, timed.shown, PauseHolds.any, notUser]
      simp
    · rcases step_expire move with ⟨own, -, -, -, rfl⟩
      refine ⟨rfl, ?_⟩
      simp [TimedPause.release, HoldGate.expireUserHold, HoldGate.publishHolds, PauseHolds.any,
        PauseHolds.expireUser]
  case spares =>
    intro index timer isTimer found superseded
    have quiet : timer.phase.fires = false := by
      rcases fires : timer.phase.fires with _ | _
      · rfl
      · rw [timed.firing timer (List.mem_of_getElem? found) fires] at superseded
        cases superseded
    cases event with
    | check own =>
        cases isTimer
        rcases step_check move with ⟨-, -, -, -, rfl⟩
        exact ⟨rfl, rfl⟩
    | clear own =>
        cases isTimer
        rcases step_clear move with ⟨other, isOther, matched, -⟩
        cases isOther.symm.trans found
        simp [matched, TimerPhase.fires] at quiet
    | expire own =>
        cases isTimer
        rcases step_expire move with ⟨other, isOther, cleared, -, -⟩
        cases isOther.symm.trans found
        simp [cleared, TimerPhase.fires] at quiet
    | finish =>
        simp only [timerOf] at isTimer
        split at isTimer
        next owner resuming =>
          cases isTimer
          have fresh := (timed.resuming _ resuming).2 index rfl timer found
          rw [superseded] at fresh
          cases fresh
        · cases isTimer
    | _ => cases isTimer

end

end Timed

/-- Over every undisturbed run, a timer that was not superseded ends its pause and the others leave
the pauses alone. -/
theorem rightful_of_undisturbed (settings : Settings) (now : ℤ) {events : List PauseEvent}
    {state : TimedPause} (run : Run Step (start settings now) events state)
    (always : Run.Always Step (start settings now) (fun _ => Undisturbed) events) :
    Run.Always Step (start settings now)
      (fun _ state event => ∀ next, Step state event next → Rightful state event next) events := by
  rintro before event after middle rfl upTo next move
  have timed : Timed middle := by
    refine upTo.invariant_of_steps (fun _ state => Timed state) always.of_append
      (.start settings now) ?_
    intro _ _ _ _ _ timed undisturbed move
    exact timed.step undisturbed move
  exact timed.rightful move

def undisturbedStep (state : TimedPause) (event : PauseEvent) : Option TimedPause :=
  if state.Undisturbed event then state.step event else none

theorem sound_undisturbedStep (state : TimedPause) (event : PauseEvent) (next : TimedPause)
    (move : undisturbedStep state event = some next) :
    Step state event next ∧ Undisturbed state event := by
  rcases Option.ite_none_right_eq_some.mp move with ⟨undisturbed, move⟩
  exact ⟨move, undisturbed⟩

theorem rightful_minute : Run.Always Step (start (fun _ => none) 0)
    (fun _ state event => ∀ next, Step state event next → Rightful state event next)
    [.pauseFor 60, .finish, .setDeadline 0, .tick 60, .check 0, .clear 0, .expire 0, .finish] := by
  have executed : (execute undisturbedStep (start (fun _ => none) 0) [.pauseFor 60, .finish,
      .setDeadline 0, .tick 60, .check 0, .clear 0, .expire 0, .finish]).isSome = true := by
    decide
  rcases Option.isSome_iff_exists.mp executed with ⟨state, executed⟩
  rcases Run.always_of_execute step_functional sound_undisturbedStep .start .nil executed with
    ⟨run, always⟩
  exact rightful_of_undisturbed (fun _ => none) 0 run always

/-- The disk guard trips during the minute, and nobody ends the pause. -/
theorem not_rightful_of_diskTrip : ¬∀ (settings : Settings) (now : ℤ) (events : List PauseEvent)
    (state : TimedPause), Run Step (start settings now) events state →
      Run.Always Step (start settings now)
        (fun _ state event => ∀ next, Step state event next → Rightful state event next)
        events := by
  intro rightful
  let before : List PauseEvent :=
    [.pauseFor 60, .finish, .setDeadline 0, .diskTrip 30, .finish, .diskClear, .tick 60]
  have executed : ((execute step (start (fun _ => none) 0) before).bind fun state =>
      (state.step (.check 0)).map fun next => (state.timers[0]?.map (·.superseded),
        next.timers[0]?.map (·.phase), next.gate.holds.user)) =
          some (some false, some .done, true) := by
    decide
  rcases Option.bind_eq_some_iff.mp executed with ⟨state, reached, checked⟩
  rcases Option.map_eq_some_iff.mp checked with ⟨next, move, facts⟩
  simp only [Prod.mk.injEq, Option.map_eq_some_iff] at facts
  rcases facts with ⟨⟨timer, found, fresh⟩, ⟨after, isAfter, done⟩, held⟩
  have run := Run.of_execute (fun _ _ _ move => move) .start reached
  have lifts :=
    (rightful _ _ _ _ (run.snoc move) _ _ [] state rfl run next move).lifts 0 timer found
    fresh (.inl ⟨rfl, after, isAfter, done⟩)
  rw [held] at lifts
  cases lifts.1

end TimedPause

end Rustnzb.Web
