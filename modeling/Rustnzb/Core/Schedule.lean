import Mathlib.Data.String.Basic
import Rustnzb.Core.Par2Names
import Rustnzb.Lib.DayWindows
import Rustnzb.Lib.SortDedup
import Rustnzb.Lib.Url

/-!
# The download schedule

`evaluate` goes over the rules of the schedule and a local time. A date is the number of days since
the first of January 1970, which was a Thursday. What the calendar library fixes, the dates it knows
and how it writes them, is a parameter. Only whole seconds of a time are kept.
-/

namespace Rustnzb.Core.Schedule

open Par2Names (utf8Len)

/-! ## Dates and times -/

structure Calendar where
  minDay : ℤ
  maxDay : ℤ
  display : ℤ → String

structure NaiveDate (calendar : Calendar) where
  day : ℤ
  notBefore : calendar.minDay ≤ day
  notAfter : day ≤ calendar.maxDay
  deriving DecidableEq

inductive Weekday where
  | mon | tue | wed | thu | fri | sat | sun
  deriving DecidableEq

structure NaiveDateTime (calendar : Calendar) where
  date : NaiveDate calendar
  second : ℕ
  inDay : second < 86400

variable {calendar : Calendar}

namespace NaiveDate

@[ext]
theorem ext {date other : NaiveDate calendar} (same : date.day = other.day) : date = other := by
  cases date
  cases other
  cases same
  rfl

def weekday (date : NaiveDate calendar) : Weekday :=
  match ((date.day + 3) % 7).toNat with
  | 0 => .mon
  | 1 => .tue
  | 2 => .wed
  | 3 => .thu
  | 4 => .fri
  | 5 => .sat
  | _ => .sun

def predOpt (date : NaiveDate calendar) : Option (NaiveDate calendar) :=
  if known : calendar.minDay ≤ date.day - 1 then
    some ⟨date.day - 1, known, (sub_one_lt date.day).le.trans date.notAfter⟩
  else none

theorem predOpt_eq_some {date yesterday : NaiveDate calendar} :
    date.predOpt = some yesterday ↔ yesterday.day = date.day - 1 := by
  rw [predOpt]
  split
  next known =>
    rw [Option.some.injEq]
    exact ⟨fun eq => (congrArg day eq).symm, fun eq => NaiveDate.ext eq.symm⟩
  next unknown =>
    constructor
    · intro impossible
      cases impossible
    · intro eq
      exact absurd (eq ▸ yesterday.notBefore) unknown

end NaiveDate

namespace NaiveDateTime

def hour (now : NaiveDateTime calendar) : ℕ := now.second / 3600

def minute (now : NaiveDateTime calendar) : ℕ := now.second / 60 % 60

def moment (now : NaiveDateTime calendar) : ℤ := now.date.day * 86400 + now.second

theorem minutes_eq (now : NaiveDateTime calendar) :
    now.hour * 60 + now.minute = now.second / 60 := by
  rw [hour, minute]
  omega

end NaiveDateTime

/-! ## Rules -/

inductive ScheduleAction where
  | pause | speedLimit | disableServers
  deriving DecidableEq

structure ScheduleRule where
  id : String
  days : List String
  start : String
  stop : String
  action : ScheduleAction
  speedLimitBps : ℕ
  servers : List String
  deriving DecidableEq

structure ScheduleDecision where
  activeRuleIds : List String := []
  pause : Bool := false
  speedLimitBps : Option ℕ := none
  disabledServers : List String := []
  pauseWindows : List String := []
  deriving DecidableEq

def parseWeekday (name : String) : Option Weekday :=
  match String.ofList ((trim name.toList).map Char.toLower) with
  | "mon" | "monday" => some .mon
  | "tue" | "tues" | "tuesday" => some .tue
  | "wed" | "weds" | "wednesday" => some .wed
  | "thu" | "thur" | "thurs" | "thursday" => some .thu
  | "fri" | "friday" => some .fri
  | "sat" | "saturday" => some .sat
  | "sun" | "sunday" => some .sun
  | _ => none

def parseMinutes (value : String) : Option ℕ :=
  match Lib.splitOnce ':' (trim value.toList) with
  | none => none
  | some (hour, minute) =>
      if utf8Len hour ≠ 2 ∨ utf8Len minute ≠ 2 then none
      else
        match parseUnsigned (2 ^ 32) (String.ofList hour),
            parseUnsigned (2 ^ 32) (String.ofList minute) with
        | some hour, some minute =>
            if 59 < minute then none
            else if hour = 24 ∧ minute = 0 then some (24 * 60)
            else if hour ≤ 23 then some (hour * 60 + minute)
            else none
        | _, _ => none

def ruleProblem (rule : ScheduleRule) : Option String :=
  if rule.days = [] then some "pick at least one day"
  else
    match rule.days.find? fun day => (parseWeekday day).isNone with
    | some day => some ("`" ++ day ++ "` is not a weekday")
    | none =>
        match parseMinutes rule.start with
        | none => some ("start `" ++ rule.start ++ "` is not HH:MM")
        | some start =>
            match parseMinutes rule.stop with
            | none => some ("end `" ++ rule.stop ++ "` is not HH:MM")
            | some stop =>
                if 24 * 60 ≤ start then some "start must be earlier than 24:00"
                else if start = stop then some "start and end must differ"
                else if rule.action = .disableServers ∧ rule.servers = [] then
                  some "pick at least one server"
                else none

def activeWindowStart (rule : ScheduleRule) (now : NaiveDateTime calendar) :
    Option (NaiveDate calendar) :=
  match parseMinutes rule.start, parseMinutes rule.stop with
  | some start, some stop =>
      let days := rule.days.filterMap parseWeekday
      let minute := now.hour * 60 + now.minute
      if start < stop then
        if now.date.weekday ∈ days ∧ start ≤ minute ∧ minute < stop then some now.date else none
      else if now.date.weekday ∈ days ∧ start ≤ minute then some now.date
      else now.date.predOpt.filter fun yesterday => yesterday.weekday ∈ days ∧ minute < stop
  | _, _ => none

/-! ## The evaluation -/

structure Evaluation where
  decision : ScheduleDecision := {}
  sawUnlimited : Bool := false
  pauseWindows : List String := []

def occurrence (rule : ScheduleRule) (windowStart : NaiveDate calendar) : String :=
  rule.id ++ "@" ++ calendar.display windowStart.day

def addServer (servers : List String) (server : String) : List String :=
  if server ∈ servers then servers else servers ++ [server]

def applyRule (rule : ScheduleRule) (windowStart : NaiveDate calendar)
    (evaluation : Evaluation) : Evaluation :=
  let decision := { evaluation.decision with
    activeRuleIds := evaluation.decision.activeRuleIds ++ [rule.id] }
  match rule.action with
  | .pause =>
      { evaluation with
        decision := { decision with pause := true }
        pauseWindows := evaluation.pauseWindows ++ [occurrence rule windowStart] }
  | .speedLimit =>
      if rule.speedLimitBps = 0 then
        { evaluation with decision := decision, sawUnlimited := true }
      else
        { evaluation with
          decision := { decision with
            speedLimitBps := some (decision.speedLimitBps.elim rule.speedLimitBps
              fun bps => min bps rule.speedLimitBps) } }
  | .disableServers =>
      { evaluation with
        decision := { decision with
          disabledServers := rule.servers.foldl addServer decision.disabledServers } }

def openedOn (rule : ScheduleRule) (now : NaiveDateTime calendar) : Option (NaiveDate calendar) :=
  if (ruleProblem rule).isSome then none else activeWindowStart rule now

def evaluateRule (now : NaiveDateTime calendar) (evaluation : Evaluation) (rule : ScheduleRule) :
    Evaluation :=
  match openedOn rule now with
  | none => evaluation
  | some windowStart => applyRule rule windowStart evaluation

def evaluateRules (rules : List ScheduleRule) (now : NaiveDateTime calendar) : Evaluation :=
  rules.foldl (evaluateRule now) {}

/-- Texts are sorted by their characters, which is the order of their bytes. -/
def evaluate (rules : List ScheduleRule) (now : NaiveDateTime calendar) : ScheduleDecision :=
  let evaluation := evaluateRules rules now
  { evaluation.decision with
    speedLimitBps :=
      if evaluation.sawUnlimited then some 0 else evaluation.decision.speedLimitBps
    pauseWindows := Lib.sortDedup evaluation.pauseWindows }

end Rustnzb.Core.Schedule
