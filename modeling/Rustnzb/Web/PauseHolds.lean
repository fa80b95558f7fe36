import Mathlib.Data.String.Basic
import Rustnzb.Lib.SortDedup

/-!
# The holds on the queue

The queue is paused while the user, the disk guard or the schedule holds it. Each of them adds its
hold and lifts only its own. The schedule holds for the occurrences of its windows that are open,
except for those the user has resumed by hand and, while a pause of the user lasts, for none. The
holds are saved as settings and read back at a restart.

What an operation asks of the jobs is its second component. The texts of the settings stand for what
is written to them: a JSON list for its strings, an RFC 3339 text for its time.
-/

namespace Rustnzb.Web

open Lib (sortDedup mem_sortDedup ascending_sortDedup sortDedup_of_ascending sortDedup_congr)

@[ext]
structure PauseHolds where
  user : Bool
  disk : Option ℤ
  schedule : Bool
  openWindows : List String
  triggeredWindows : List String
  resumedWindows : List String
  userPausedOver : List String
  deriving DecidableEq

inductive Setting where
  | text (value : String)
  | time (since : ℤ)
  | windows (names : List String)
  deriving DecidableEq

abbrev Settings := String → Option Setting

inductive JobsRequest where
  | nothing
  /-- `pause_jobs_for_global_hold`. -/
  | pause
  /-- `resume_jobs_after_holds`. -/
  | resume
  deriving DecidableEq

namespace PauseHolds

def none : PauseHolds where
  user := false
  disk := .none
  schedule := false
  openWindows := []
  triggeredWindows := []
  resumedWindows := []
  userPausedOver := []

def any (holds : PauseHolds) : Bool :=
  holds.user || holds.disk.isSome || holds.schedule

def occurrences (windows : List String) : List String :=
  sortDedup windows

def newlyOpened (holds : PauseHolds) (windows : List String) : List String :=
  windows.filter fun window => !holds.triggeredWindows.contains window

def heldOccurrences (holds : PauseHolds) (windows : List String) : List String :=
  windows.filter fun window => holds.triggeredWindows.contains window &&
    !holds.resumedWindows.contains window && !holds.userPausedOver.contains window

def retainOpen (holds : PauseHolds) (opened : List String) : PauseHolds :=
  { holds with
    openWindows := opened
    triggeredWindows := holds.triggeredWindows.filter fun window => opened.contains window
    resumedWindows := holds.resumedWindows.filter fun window => opened.contains window
    userPausedOver := holds.userPausedOver.filter fun window => opened.contains window }

def cover (holds : PauseHolds) : PauseHolds :=
  if holds.user then { holds with userPausedOver := holds.openWindows, schedule := false }
  else holds

/-- `apply_schedule_hold`, for the holds. -/
def evaluate (holds : PauseHolds) (windows : List String) : PauseHolds :=
  let holds := { holds with
    triggeredWindows := sortDedup (holds.triggeredWindows ++ holds.newlyOpened windows) }
  let holds := holds.retainOpen windows
  { holds with schedule := !(holds.heldOccurrences windows).isEmpty && !holds.user }

def expireUser (holds : PauseHolds) : PauseHolds :=
  let holds := { holds with user := false, userPausedOver := [] }
  { holds with schedule := !(holds.heldOccurrences holds.openWindows).isEmpty && !holds.user }

def resume (holds : PauseHolds) : PauseHolds :=
  { holds with
    user := false
    disk := .none
    resumedWindows := sortDedup (holds.resumedWindows ++ holds.triggeredWindows)
    schedule := false
    userPausedOver := [] }

/-! ## The settings -/

def flag (value : Bool) : Setting := .text (if value then "true" else "false")

/-- What `persist_holds` writes, in its order. -/
def rows (holds : PauseHolds) : List (String × Setting) :=
  [("globally_paused", flag holds.any),
    ("user_pause_hold", flag holds.user),
    ("schedule_pause_hold", flag holds.schedule),
    ("disk_space_hold_since", match holds.disk with
      | some since => .time since
      | .none => .text ""),
    ("global_pause_owner", .text (if holds.user then "user" else if holds.schedule then "schedule"
      else if holds.disk.isSome then "disk_space" else "")),
    ("schedule_pause_windows", .windows holds.openWindows),
    ("schedule_triggered_windows", .windows holds.triggeredWindows),
    ("schedule_resumed_windows", .windows holds.resumedWindows),
    ("schedule_user_paused_windows", .windows holds.userPausedOver)]

def persistHolds (holds : PauseHolds) (settings : Settings) : Settings :=
  holds.rows.foldl (fun settings row => Function.update settings row.1 (some row.2)) settings

def readFlag (settings : Settings) (key : String) : Bool :=
  settings key = some (.text "true")

def readWindows (settings : Settings) (key : String) : List String :=
  match settings key with
  | some (.windows names) => names
  | _ => []

def restoreHolds (settings : Settings) : PauseHolds :=
  let wasPaused := readFlag settings "globally_paused"
  let disk := match settings "disk_space_hold_since" with
    | some (.time since) => some since
    | _ => .none
  let owner := match settings "global_pause_owner" with
    | some (.text owner) => owner
    | _ => ""
  let legacy := (settings "user_pause_hold").isNone && (settings "schedule_pause_hold").isNone
  let user := if legacy then owner = "user" || (owner = "" && disk.isNone)
    else readFlag settings "user_pause_hold"
  let schedule := if legacy then owner = "schedule"
    else readFlag settings "schedule_pause_hold"
  { user := wasPaused && user
    disk := if wasPaused then disk else .none
    schedule := wasPaused && schedule
    openWindows := readWindows settings "schedule_pause_windows"
    triggeredWindows := readWindows settings "schedule_triggered_windows"
    resumedWindows := readWindows settings "schedule_resumed_windows"
    userPausedOver := readWindows settings "schedule_user_paused_windows" }

end PauseHolds

structure ScheduleDecision where
  pause : Bool
  pauseWindows : List String

namespace ScheduleDecision

def idle : ScheduleDecision := { pause := false, pauseWindows := [] }

/-- The occurrences that `apply_schedule` finds open. -/
def windows (decision : ScheduleDecision) (enabled : Bool) : List String :=
  let decision := if enabled then decision else idle
  let windows := PauseHolds.occurrences decision.pauseWindows
  if decision.pause && windows.isEmpty then ["anonymous"] else windows

end ScheduleDecision

/-- The holds, the gate `globally_paused` and the settings. -/
structure HoldGate where
  holds : PauseHolds
  globallyPaused : Bool
  settings : Settings

namespace HoldGate

def new : HoldGate where
  holds := .none
  globallyPaused := false
  settings := fun _ => none

def publishHolds (gate : HoldGate) (holds : PauseHolds) : HoldGate where
  holds := holds
  globallyPaused := holds.any
  settings := holds.persistHolds gate.settings

def pauseForHold (gate : HoldGate) (apply : PauseHolds → PauseHolds) : HoldGate × JobsRequest :=
  (gate.publishHolds (apply gate.holds).cover,
    if gate.globallyPaused then .nothing else .pause)

def pauseAll (gate : HoldGate) : HoldGate × JobsRequest :=
  gate.pauseForHold fun holds => { holds with user := true }

def pauseAllWithHold (gate : HoldGate) (diskSpaceHold : Option ℤ) : HoldGate × JobsRequest :=
  gate.pauseForHold fun holds =>
    match diskSpaceHold with
    | some since => { holds with disk := some since }
    | none => holds

def applyScheduleHold (gate : HoldGate) (windows : List String) : HoldGate × JobsRequest :=
  let holds := gate.holds.evaluate windows
  (if holds = gate.holds then gate else gate.publishHolds holds,
    if holds.schedule && !gate.holds.schedule && !gate.globallyPaused then .pause
    else if !holds.schedule && gate.holds.schedule && !holds.any then .resume
    else .nothing)

def expireUserHold (gate : HoldGate) : HoldGate × JobsRequest :=
  let holds := gate.holds.expireUser
  (gate.publishHolds holds,
    if holds.schedule && !gate.holds.schedule && !gate.globallyPaused then .pause
    else if !holds.any then .resume
    else .nothing)

def resumeHold (gate : HoldGate) (apply : PauseHolds → PauseHolds) : HoldGate × JobsRequest :=
  let holds := apply gate.holds
  (gate.publishHolds holds, if holds.any then .nothing else .resume)

def resumeAll (gate : HoldGate) : HoldGate × JobsRequest :=
  gate.resumeHold PauseHolds.resume

def clearDiskHold (gate : HoldGate) : HoldGate × JobsRequest :=
  gate.resumeHold fun holds => { holds with disk := none }

/-- `restore_from_db`, for the holds; loading does not save. -/
def restore (gate : HoldGate) : HoldGate where
  holds := .restoreHolds gate.settings
  globallyPaused := (PauseHolds.restoreHolds gate.settings).any
  settings := gate.settings

end HoldGate

inductive HoldEvent where
  | schedule (decision : ScheduleDecision) (enabled : Bool)
  | pauseAll
  | diskTrip (since : ℤ)
  | diskClear
  | expireUserHold
  | resumeAll
  /-- `persists` when the holds are written once more before. -/
  | restart (persists : Bool)

namespace HoldGate

def step (gate : HoldGate) : HoldEvent → HoldGate
  | .schedule decision enabled => (gate.applyScheduleHold (decision.windows enabled)).1
  | .pauseAll => gate.pauseAll.1
  | .diskTrip since => (gate.pauseAllWithHold (some since)).1
  | .diskClear => gate.clearDiskHold.1
  | .expireUserHold => gate.expireUserHold.1
  | .resumeAll => gate.resumeAll.1
  | .restart persists =>
      (if persists then { gate with settings := gate.holds.persistHolds gate.settings }
        else gate).restore

def after (gate : HoldGate) (events : List HoldEvent) : HoldGate :=
  events.foldl step gate

end HoldGate

/-! ## What the holds mean -/

def lastEvaluated (events : List HoldEvent) : List String :=
  events.foldl (fun last event =>
    match event with
    | .schedule decision enabled => decision.windows enabled
    | _ => last) []

/-- The occurrence was open at a `resume_all` and has been open ever since. -/
def ResumedSince (events : List HoldEvent) (window : String) : Prop :=
  ∃ before after, events = before ++ .resumeAll :: after ∧ window ∈ lastEvaluated before ∧
    ∀ decision enabled, .schedule decision enabled ∈ after → window ∈ decision.windows enabled

section History

variable {events : List HoldEvent} {event : HoldEvent} {window : String}

theorem lastEvaluated_concat (events : List HoldEvent) (event : HoldEvent) :
    lastEvaluated (events ++ [event]) =
      match event with
      | .schedule decision enabled => decision.windows enabled
      | _ => lastEvaluated events := by
  rw [lastEvaluated, List.foldl_concat]
  rfl

theorem resumedSince_concat (events : List HoldEvent) (event : HoldEvent) (window : String) :
    ResumedSince (events ++ [event]) window ↔
      (event = .resumeAll ∧ window ∈ lastEvaluated events) ∨
        (ResumedSince events window ∧
          ∀ decision enabled, event = .schedule decision enabled →
            window ∈ decision.windows enabled) := by
  constructor
  · rintro ⟨before, after, split, wasOpen, stays⟩
    rcases List.eq_nil_or_concat after with rfl | ⟨rest, last, rfl⟩
    · rcases List.append_inj' split rfl with ⟨rfl, same⟩
      cases same
      exact .inl ⟨rfl, wasOpen⟩
    · rw [List.concat_eq_append, ← List.cons_append, ← List.append_assoc] at split
      rcases List.append_inj' split rfl with ⟨rfl, same⟩
      cases same
      refine .inr ⟨⟨before, rest, rfl, wasOpen, fun decision enabled mem => ?_⟩,
        fun decision enabled same => ?_⟩
      · exact stays decision enabled (by simp [mem])
      · exact stays decision enabled (by simp [same])
  · rintro (⟨rfl, wasOpen⟩ | ⟨⟨before, after, rfl, wasOpen, stays⟩, last⟩)
    · exact ⟨events, [], rfl, wasOpen, by simp⟩
    · refine ⟨before, after ++ [event], by simp, wasOpen, fun decision enabled mem => ?_⟩
      rcases List.mem_append.mp mem with earlier | now
      · exact stays decision enabled earlier
      · exact last decision enabled (List.mem_singleton.mp now).symm

theorem ResumedSince.isOpen (resumed : ResumedSince events window) :
    window ∈ lastEvaluated events := by
  induction events using List.reverseRecOn with
  | nil =>
      rcases resumed with ⟨before, after, split, -⟩
      simp at split
  | append_singleton events event ih =>
      rw [lastEvaluated_concat]
      rcases (resumedSince_concat _ _ _).mp resumed with ⟨rfl, wasOpen⟩ | ⟨before, last⟩
      · exact wasOpen
      · split
        next decision enabled => exact last decision enabled rfl
        · exact ih before

end History

namespace PauseHolds

variable {holds : PauseHolds} {windows : List String}

theorem mem_heldOccurrences {window : String} :
    window ∈ holds.heldOccurrences windows ↔ window ∈ windows ∧ window ∈ holds.triggeredWindows ∧
      window ∉ holds.resumedWindows ∧ window ∉ holds.userPausedOver := by
  simp [heldOccurrences, and_assoc]

theorem isEmpty_heldOccurrences :
    (!(holds.heldOccurrences windows).isEmpty) = true ↔ ∃ window ∈ windows,
      window ∈ holds.triggeredWindows ∧ window ∉ holds.resumedWindows ∧
        window ∉ holds.userPausedOver := by
  simp only [Bool.not_eq_true', List.isEmpty_eq_false_iff, ne_eq, List.eq_nil_iff_forall_not_mem,
    not_forall, not_not, mem_heldOccurrences]

theorem restoreHolds_persistHolds (holds : PauseHolds) (settings : Settings) :
    restoreHolds (holds.persistHolds settings) = holds := by
  rcases holds with ⟨user, disk, schedule, openWindows, triggered, resumed, pausedOver⟩
  cases user <;> cases disk <;> cases schedule <;>
    simp [restoreHolds, persistHolds, rows, readFlag, readWindows, flag, any, Function.update]

def next (holds : PauseHolds) : HoldEvent → PauseHolds
  | .schedule decision enabled => holds.evaluate (decision.windows enabled)
  | .pauseAll => cover { holds with user := true }
  | .diskTrip since => cover { holds with disk := some since }
  | .diskClear => { holds with disk := .none }
  | .expireUserHold => holds.expireUser
  | .resumeAll => holds.resume
  | .restart _ => holds

end PauseHolds

namespace HoldGate

variable {gate : HoldGate}

/-- The gate shows the holds, and a restart would read them back. -/
structure Saved (gate : HoldGate) : Prop where
  shown : gate.globallyPaused = gate.holds.any
  read : PauseHolds.restoreHolds gate.settings = gate.holds

theorem saved_publishHolds (gate : HoldGate) (holds : PauseHolds) :
    (gate.publishHolds holds).Saved :=
  ⟨rfl, holds.restoreHolds_persistHolds gate.settings⟩

theorem saved_new : new.Saved :=
  ⟨rfl, by simp [PauseHolds.restoreHolds, PauseHolds.readFlag, PauseHolds.readWindows, new,
    PauseHolds.none]⟩

theorem Saved.step (saved : gate.Saved) (event : HoldEvent) :
    (gate.step event).Saved ∧ (gate.step event).holds = gate.holds.next event := by
  cases event with
  | schedule decision enabled =>
      simp only [HoldGate.step, applyScheduleHold, PauseHolds.next]
      split
      next same => exact ⟨saved, same.symm⟩
      · exact ⟨saved_publishHolds gate _, rfl⟩
  | pauseAll | diskTrip since | diskClear | expireUserHold | resumeAll =>
      exact ⟨saved_publishHolds gate _, rfl⟩
  | restart persists =>
      rcases persists with _ | _
      · exact ⟨⟨rfl, rfl⟩, saved.read⟩
      · refine ⟨⟨rfl, rfl⟩, ?_⟩
        exact gate.holds.restoreHolds_persistHolds gate.settings

theorem Saved.after (saved : gate.Saved) (events : List HoldEvent) :
    (gate.after events).Saved ∧
      (gate.after events).holds = events.foldl PauseHolds.next gate.holds := by
  induction events generalizing gate with
  | nil => exact ⟨saved, rfl⟩
  | cons event events ih =>
      rcases saved.step event with ⟨savedNext, holds⟩
      rw [List.foldl_cons, ← holds]
      exact ih savedNext

end HoldGate

/-! ## The schedule's hold -/

theorem ascending_windows (decision : ScheduleDecision) (enabled : Bool) :
    (decision.windows enabled).Pairwise (· < ·) := by
  simp only [ScheduleDecision.windows]
  generalize (if enabled = true then decision else .idle) = decided
  split
  · exact List.pairwise_singleton _ _
  · exact ascending_sortDedup _

theorem ascending_lastEvaluated (events : List HoldEvent) :
    (lastEvaluated events).Pairwise (· < ·) := by
  induction events using List.reverseRecOn with
  | nil => exact List.Pairwise.nil
  | append_singleton events event ih =>
      rw [lastEvaluated_concat]
      split
      · exact ascending_windows _ _
      · exact ih

structure Tracks (events : List HoldEvent) (holds : PauseHolds) : Prop where
  opened : holds.openWindows = lastEvaluated events
  triggered : holds.triggeredWindows = holds.openWindows
  resumed : ∀ window, window ∈ holds.resumedWindows ↔ ResumedSince events window
  covers : holds.userPausedOver ⊆ holds.openWindows
  uncovered : holds.user = false → holds.userPausedOver = []
  schedule : holds.schedule = true ↔
    holds.user = false ∧ ∃ window ∈ holds.openWindows, window ∉ holds.resumedWindows

namespace Tracks

variable {events : List HoldEvent} {holds : PauseHolds}

theorem none : Tracks [] .none where
  opened := rfl
  triggered := rfl
  resumed window := by simp [PauseHolds.none, ResumedSince]
  covers := List.Subset.refl _
  uncovered _ := rfl
  schedule := by simp [PauseHolds.none]

theorem schedule_iff (triggered : holds.triggeredWindows = holds.openWindows)
    (uncovered : holds.user = false → holds.userPausedOver = []) (computed : holds.schedule =
      (!(holds.heldOccurrences holds.openWindows).isEmpty && !holds.user)) :
    holds.schedule = true ↔
      holds.user = false ∧ ∃ window ∈ holds.openWindows, window ∉ holds.resumedWindows := by
  rw [computed, Bool.and_eq_true, PauseHolds.isEmpty_heldOccurrences, Bool.not_eq_true', and_comm]
  refine and_congr_right fun notUser => ?_
  rw [uncovered notUser, triggered]
  refine exists_congr fun window => and_congr_right fun isOpen => ?_
  simp [isOpen]

section

variable (tracks : Tracks events holds)

include tracks

theorem evaluate (decision : ScheduleDecision) (enabled : Bool) :
    Tracks (events ++ [.schedule decision enabled])
      (holds.evaluate (decision.windows enabled)) := by
  have ascending := ascending_windows decision enabled
  have concat := lastEvaluated_concat events (.schedule decision enabled)
  dsimp only at concat
  have triggered : (holds.evaluate (decision.windows enabled)).triggeredWindows =
      decision.windows enabled := by
    refine Lib.eq_of_ascending ((ascending_sortDedup _).filter _) ascending fun window => ?_
    simp only [PauseHolds.evaluate, PauseHolds.retainOpen, PauseHolds.newlyOpened,
      List.mem_filter, mem_sortDedup, List.mem_append, List.contains_iff_mem]
    constructor
    · rintro ⟨-, isOpen⟩
      exact isOpen
    · intro isOpen
      by_cases known : window ∈ holds.triggeredWindows
      · exact ⟨.inl known, isOpen⟩
      · exact ⟨.inr ⟨isOpen, by simpa using known⟩, isOpen⟩
  have uncovered : (holds.evaluate (decision.windows enabled)).user = false →
      (holds.evaluate (decision.windows enabled)).userPausedOver = [] := by
    intro notUser
    have uncovered := tracks.uncovered notUser
    simp [PauseHolds.evaluate, PauseHolds.retainOpen, uncovered]
  constructor
  case opened => exact concat.symm
  case triggered => exact triggered
  case resumed =>
    intro window
    have filtered : window ∈ (holds.evaluate (decision.windows enabled)).resumedWindows ↔
        window ∈ holds.resumedWindows ∧ window ∈ decision.windows enabled := by
      simp [PauseHolds.evaluate, PauseHolds.retainOpen]
    rw [filtered, tracks.resumed, resumedSince_concat]
    simp
  case covers =>
    intro window mem
    have mem : window ∈ holds.userPausedOver ∧ window ∈ decision.windows enabled := by
      simpa [PauseHolds.evaluate, PauseHolds.retainOpen] using mem
    exact mem.2
  case uncovered => exact uncovered
  case schedule => exact schedule_iff triggered uncovered rfl

theorem keep {next : PauseHolds} {event : HoldEvent}
    (sameEvaluated : lastEvaluated (events ++ [event]) = lastEvaluated events)
    (sameResumed : ∀ window, ResumedSince (events ++ [event]) window ↔ ResumedSince events window)
    (lists : next.openWindows = holds.openWindows ∧
      next.triggeredWindows = holds.triggeredWindows ∧ next.resumedWindows = holds.resumedWindows)
    (covers : next.userPausedOver ⊆ next.openWindows)
    (uncovered : next.user = false → next.userPausedOver = []) (schedule : next.schedule = true ↔
      next.user = false ∧ ∃ window ∈ next.openWindows, window ∉ next.resumedWindows) :
    Tracks (events ++ [event]) next where
  opened := by rw [lists.1, tracks.opened, sameEvaluated]
  triggered := by rw [lists.1, lists.2.1, tracks.triggered]
  resumed window := by rw [lists.2.2, tracks.resumed, sameResumed]
  covers := covers
  uncovered := uncovered
  schedule := schedule

theorem cover {event : HoldEvent}
    (sameEvaluated : lastEvaluated (events ++ [event]) = lastEvaluated events)
    (sameResumed : ∀ window, ResumedSince (events ++ [event]) window ↔ ResumedSince events window)
    (user : Bool) (disk : Option ℤ) (keeps : holds.user = true → user = true) :
    Tracks (events ++ [event]) ({ holds with user := user, disk := disk } : PauseHolds).cover := by
  rcases user with _ | _
  · have notUser : holds.user = false := by
      rcases isUser : holds.user with _ | _
      · rfl
      · exact absurd (keeps isUser) (by simp)
    refine tracks.keep sameEvaluated sameResumed ⟨rfl, rfl, rfl⟩ tracks.covers
      (fun _ => tracks.uncovered notUser) ?_
    simpa [PauseHolds.cover, notUser] using tracks.schedule
  · refine tracks.keep sameEvaluated sameResumed ⟨rfl, rfl, rfl⟩ ?_ ?_ ?_
    · simp [PauseHolds.cover]
    · simp [PauseHolds.cover]
    · simp [PauseHolds.cover]

theorem resume : Tracks (events ++ [.resumeAll]) holds.resume where
  opened := tracks.opened.trans (lastEvaluated_concat events .resumeAll).symm
  triggered := tracks.triggered
  resumed window := by
    rw [PauseHolds.resume, mem_sortDedup, List.mem_append, tracks.triggered, tracks.opened,
      tracks.resumed, resumedSince_concat]
    simp [or_comm]
  covers := by simp [PauseHolds.resume]
  uncovered _ := rfl
  schedule := by
    simp [PauseHolds.resume, tracks.triggered]
    tauto

theorem next (event : HoldEvent) : Tracks (events ++ [event]) (holds.next event) := by
  have evaluated := lastEvaluated_concat events event
  have resumed := resumedSince_concat events event
  cases event with
  | schedule decision enabled => exact tracks.evaluate decision enabled
  | resumeAll => exact tracks.resume
  | pauseAll => exact tracks.cover evaluated (by simp [resumed]) true holds.disk (fun _ => rfl)
  | diskTrip since =>
      exact tracks.cover evaluated (by simp [resumed]) holds.user (some since) id
  | diskClear =>
      exact tracks.keep evaluated (by simp [resumed]) ⟨rfl, rfl, rfl⟩ tracks.covers
        tracks.uncovered tracks.schedule
  | expireUserHold =>
      refine tracks.keep evaluated (by simp [resumed]) ⟨rfl, rfl, rfl⟩
        (by simp [PauseHolds.next, PauseHolds.expireUser]) (fun _ => rfl) ?_
      exact schedule_iff tracks.triggered (fun _ => rfl) rfl
  | restart persists =>
      exact tracks.keep evaluated (by simp [resumed]) ⟨rfl, rfl, rfl⟩ tracks.covers
        tracks.uncovered tracks.schedule

theorem evaluate_eq : holds.evaluate holds.openWindows = holds := by
  have noneNew : holds.newlyOpened holds.openWindows = [] := by
    simp [PauseHolds.newlyOpened, tracks.triggered]
  have sorted : sortDedup holds.openWindows = holds.openWindows := by
    apply sortDedup_of_ascending
    rw [tracks.opened]
    exact ascending_lastEvaluated events
  have stays : ∀ {names : List String}, names ⊆ holds.openWindows →
      (names.filter fun window => holds.openWindows.contains window) = names := by
    intro names subset
    rw [List.filter_eq_self]
    intro window mem
    simpa using subset mem
  have resumed : holds.resumedWindows ⊆ holds.openWindows := by
    intro window mem
    rw [tracks.opened]
    exact ((tracks.resumed window).mp mem).isOpen
  have triggered : (holds.evaluate holds.openWindows).triggeredWindows = holds.openWindows := by
    simp only [PauseHolds.evaluate, PauseHolds.retainOpen, noneNew, List.append_nil,
      tracks.triggered, sorted]
    exact stays (List.Subset.refl _)
  have pausedOver : (holds.evaluate holds.openWindows).userPausedOver = holds.userPausedOver :=
    stays tracks.covers
  have byHand : (holds.evaluate holds.openWindows).resumedWindows = holds.resumedWindows :=
    stays resumed
  apply PauseHolds.ext
  case user => rfl
  case disk => rfl
  case schedule =>
    have scheduled :=
      schedule_iff (triggered : (holds.evaluate holds.openWindows).triggeredWindows =
      (holds.evaluate holds.openWindows).openWindows)
      (fun notUser => pausedOver.trans (tracks.uncovered notUser)) rfl
    rw [byHand] at scheduled
    rw [Bool.eq_iff_iff, tracks.schedule]
    exact scheduled
  case openWindows => rfl
  case triggeredWindows => exact triggered.trans tracks.triggered.symm
  case resumedWindows => exact byHand
  case userPausedOver => exact pausedOver

end

theorem of_events (events : List HoldEvent) :
    Tracks events (events.foldl PauseHolds.next .none) := by
  induction events using List.reverseRecOn with
  | nil => exact none
  | append_singleton events event ih =>
      rw [List.foldl_concat]
      exact ih.next event

end Tracks

structure Holding (events : List HoldEvent) (gate : HoldGate) : Prop where
  shown : gate.globallyPaused = true ↔
    gate.holds.user = true ∨ gate.holds.disk.isSome = true ∨ gate.holds.schedule = true
  schedule : gate.holds.schedule = true ↔ gate.holds.user = false ∧
    ∃ window ∈ lastEvaluated events, ¬ResumedSince events window
  repeated : ∀ decision enabled,
    (∀ window, window ∈ decision.windows enabled ↔ window ∈ lastEvaluated events) →
      gate.step (.schedule decision enabled) = gate
  /-- The open occurrences that were not resumed by hand hold the queue again. -/
  expired : (gate.step .expireUserHold).holds.user = false ∧
    (gate.step .expireUserHold).holds.disk = gate.holds.disk ∧
    (∀ window,
      window ∈ (gate.step .expireUserHold).holds.heldOccurrences (lastEvaluated events) ↔
        window ∈ lastEvaluated events ∧ ¬ResumedSince events window) ∧
    ((gate.step .expireUserHold).holds.schedule = true ↔
      ∃ window ∈ lastEvaluated events, ¬ResumedSince events window) ∧
    ((gate.step .expireUserHold).globallyPaused = true ↔ gate.holds.disk.isSome = true ∨
      ∃ window ∈ lastEvaluated events, ¬ResumedSince events window)
  restarted : ∀ persists later,
    (((gate.step (.restart persists)).after later).holds = (gate.after later).holds) ∧
      ((gate.step (.restart persists)).after later).globallyPaused =
        (gate.after later).globallyPaused

/-- The queue is paused exactly while something holds it, over any events. -/
theorem holding (events : List HoldEvent) : Holding events (HoldGate.new.after events) := by
  rcases HoldGate.saved_new.after events with ⟨saved, holds⟩
  have tracks := Tracks.of_events events
  rw [show PauseHolds.none = HoldGate.new.holds from rfl, ← holds] at tracks
  generalize HoldGate.new.after events = gate at saved tracks
  constructor
  case shown =>
    rw [saved.shown]
    simp [PauseHolds.any, or_assoc]
  case schedule =>
    rw [tracks.schedule, tracks.opened]
    simp only [tracks.resumed]
  case repeated =>
    intro decision enabled same
    have windows : decision.windows enabled = gate.holds.openWindows := by
      rw [tracks.opened]
      exact Lib.eq_of_ascending (ascending_windows decision enabled)
        (ascending_lastEvaluated events) same
    simp only [HoldGate.step, HoldGate.applyScheduleHold, windows, tracks.evaluate_eq, if_true]
  case expired =>
    rcases saved.step .expireUserHold with ⟨savedNow, holdsNow⟩
    have scheduled : (gate.holds.next .expireUserHold).schedule = true ↔
        ∃ window ∈ lastEvaluated events, ¬ResumedSince events window := by
      refine (tracks.next .expireUserHold).schedule.trans ?_
      simp only [PauseHolds.next, PauseHolds.expireUser, true_and, tracks.opened, tracks.resumed]
    rw [savedNow.shown, holdsNow]
    refine ⟨rfl, rfl, fun window => ?_, scheduled, ?_⟩
    · rw [PauseHolds.mem_heldOccurrences, ← tracks.opened, ← tracks.resumed]
      simp only [PauseHolds.next, PauseHolds.expireUser, tracks.triggered, List.not_mem_nil,
        not_false_eq_true, and_true]
      tauto
    · rw [← scheduled]
      simp [PauseHolds.any, PauseHolds.next, PauseHolds.expireUser]
  case restarted =>
    intro persists later
    rcases saved.step (.restart persists) with ⟨savedNow, same⟩
    rcases saved.after later with ⟨savedLater, holdsLater⟩
    rcases savedNow.after later with ⟨savedThen, holdsThen⟩
    have sameLater : ((gate.step (.restart persists)).after later).holds =
        (gate.after later).holds := by
      rw [holdsThen, same, holdsLater]
      rfl
    exact ⟨sameLater, by rw [savedThen.shown, savedLater.shown, sameLater]⟩

end Rustnzb.Web
