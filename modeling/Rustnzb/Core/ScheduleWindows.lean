import Rustnzb.Core.Schedule

/-!
# What the schedule says

A rule stands for one window a day, on the days it lists, and a decision follows from the windows
that a time is in. The hours and minutes of a rule are two digits each. The parser of numbers also
reads a plus sign and one digit, and what `evaluate` makes of such a rule is no schedule.
-/

namespace Rustnzb.Core.Schedule

open Par2Names (utf8Len utf8Len_cons utf8Len_nil)

variable {calendar : Calendar}

/-! ## The windows of a rule -/

def digitValue (char : Char) : ℕ := char.toNat - '0'.toNat

def TwoDigits (text : List Char) (value : ℕ) : Prop :=
  ∃ tens units, text = [tens, units] ∧ tens.isDigit ∧ units.isDigit ∧
    value = 10 * digitValue tens + digitValue units

def SignedDigit (text : List Char) (value : ℕ) : Prop :=
  ∃ units, text = ['+', units] ∧ units.isDigit ∧ value = digitValue units

/-- The numbers of two bytes that `u32::parse` reads. -/
def TwoBytes (text : List Char) (value : ℕ) : Prop := TwoDigits text value ∨ SignedDigit text value

/-- A time of day and its minutes since midnight, with hours and minutes as `number` has them. -/
def IsTime (number : List Char → ℕ → Prop) (text : String) (minutes : ℕ) : Prop :=
  ∃ hourText minuteText hour minute, trim text.toList = hourText ++ ':' :: minuteText ∧
    number hourText hour ∧ number minuteText minute ∧ minute ≤ 59 ∧
    (hour ≤ 23 ∨ hour = 24 ∧ minute = 0) ∧ minutes = hour * 60 + minute

structure InOrder (number : List Char → ℕ → Prop) (rule : ScheduleRule) (start stop : ℕ) :
    Prop where
  days : rule.days ≠ []
  weekdays : ∀ day ∈ rule.days, (parseWeekday day).isSome
  isStart : IsTime number rule.start start
  isStop : IsTime number rule.stop stop
  early : start < 24 * 60
  differ : start ≠ stop
  servers : rule.action = .disableServers → rule.servers ≠ []

def Valid (number : List Char → ℕ → Prop) (rule : ScheduleRule) : Prop :=
  ∃ start stop, InOrder number rule start stop

def Lists (rule : ScheduleRule) (date : NaiveDate calendar) : Prop :=
  ∃ day ∈ rule.days, parseWeekday day = some date.weekday

def Open (number : List Char → ℕ → Prop) (rule : ScheduleRule) (date : NaiveDate calendar)
    (now : NaiveDateTime calendar) : Prop :=
  ∃ start stop, InOrder number rule start stop ∧ Lists rule date ∧
    Lib.InDayWindow 86400 (60 * start) (60 * stop) date.day now.moment

/-! ## The decision -/

section Decision

variable (number : List Char → ℕ → Prop) (rules : List ScheduleRule) (now : NaiveDateTime calendar)

def Acts (action : ScheduleAction) (rule : ScheduleRule) : Prop :=
  rule ∈ rules ∧ rule.action = action ∧ ∃ date, Open number rule date now

structure Decides (decision : ScheduleDecision) : Prop where
  pause : decision.pause ↔ ∃ rule, Acts number rules now .pause rule
  ascending : decision.pauseWindows.Pairwise (· < ·)
  pauseWindows : ∀ window, window ∈ decision.pauseWindows ↔
    ∃ rule ∈ rules, rule.action = .pause ∧
      ∃ date, Open number rule date now ∧ occurrence rule date = window
  noCap : (∀ rule, ¬Acts number rules now .speedLimit rule) → decision.speedLimitBps = none
  unlimited : ∀ rule, Acts number rules now .speedLimit rule → rule.speedLimitBps = 0 →
    decision.speedLimitBps = some 0
  leastCap : ∀ rule, Acts number rules now .speedLimit rule →
    (∀ other, Acts number rules now .speedLimit other → other.speedLimitBps ≠ 0) →
      ∃ least, Acts number rules now .speedLimit least ∧
        (∀ other, Acts number rules now .speedLimit other →
          least.speedLimitBps ≤ other.speedLimitBps) ∧
        decision.speedLimitBps = some least.speedLimitBps
  distinct : decision.disabledServers.Nodup
  disabledServers : ∀ server, server ∈ decision.disabledServers ↔
    ∃ rule, Acts number rules now .disableServers rule ∧ server ∈ rule.servers

end Decision

/-- Nothing but the order of two lists depends on the order of the rules. -/
structure SameButForOrder (decision other : ScheduleDecision) : Prop where
  activeRuleIds : decision.activeRuleIds.Perm other.activeRuleIds
  pause : decision.pause = other.pause
  speedLimitBps : decision.speedLimitBps = other.speedLimitBps
  disabledServers : decision.disabledServers.Perm other.disabledServers
  pauseWindows : decision.pauseWindows = other.pauseWindows

/-- The rules are rejected and evaluated by what their two-digit times say. -/
structure FollowsWindows (rules : List ScheduleRule) (now : NaiveDateTime calendar) : Prop where
  problems : ∀ rule ∈ rules, ruleProblem rule = none ↔ Valid TwoDigits rule
  decides : Decides TwoDigits rules now (evaluate rules now)
  orderFree : ∀ other, rules.Perm other →
    SameButForOrder (evaluate rules now) (evaluate other now)

/-! ## What the parsers read -/

theorem digitValue_le {char : Char} (isDigit : char.isDigit) : digitValue char ≤ 9 := by
  have le : char.toNat ≤ 57 := by
    simp only [Char.isDigit, Bool.and_eq_true, decide_eq_true_eq] at isDigit
    exact isDigit.2
  rw [digitValue, show '0'.toNat = 48 from rfl]
  omega

theorem utf8Size_of_isDigit {char : Char} (isDigit : char.isDigit) : char.utf8Size = 1 := by
  have le : char.val ≤ 57 := by
    simp only [Char.isDigit, Bool.and_eq_true, decide_eq_true_eq] at isDigit
    exact isDigit.2
  rw [Char.utf8Size_eq_one_iff]
  exact UInt32.le_trans le (by decide)

theorem ne_plus_of_isDigit {char : Char} (isDigit : char.isDigit) : char ≠ '+' := by
  rintro rfl
  simp at isDigit

def valueOf (digits : List Char) : ℕ :=
  digits.foldl (fun value digit => value * 10 + (digit.toNat - 48)) 0

theorem valueOf_one (units : Char) : valueOf [units] = digitValue units := by
  rw [digitValue, show '0'.toNat = 48 from rfl, valueOf, List.foldl_cons, List.foldl_nil]
  omega

theorem valueOf_two (tens units : Char) :
    valueOf [tens, units] = 10 * digitValue tens + digitValue units := by
  rw [digitValue, digitValue, show '0'.toNat = 48 from rfl, valueOf, List.foldl_cons,
    List.foldl_cons, List.foldl_nil]
  omega

variable {value minutes : ℕ} {text : List Char} {number : List Char → ℕ → Prop}
  {date : NaiveDate calendar}

theorem parseUnsigned_eq_some {bound : ℕ} :
    parseUnsigned bound (String.ofList text) = some value ↔
      ∃ digits, (text = '+' :: digits ∨ text = digits ∧ text.head? ≠ some '+') ∧
        digits ≠ [] ∧ digits.all Char.isDigit ∧ valueOf digits < bound ∧
        valueOf digits = value := by
  have read : ∀ digits : List Char,
      (if digits ≠ [] ∧ digits.all Char.isDigit then
        if valueOf digits < bound then some (valueOf digits) else none
      else none) = some value ↔
      digits ≠ [] ∧ digits.all Char.isDigit ∧ valueOf digits < bound ∧ valueOf digits = value := by
    intro digits
    simp only [Option.ite_none_right_eq_some, Option.some.injEq, and_assoc]
  rw [parseUnsigned, String.toList_ofList]
  split
  next digits =>
    refine (read digits).trans ⟨fun found => ⟨digits, .inl rfl, found⟩, ?_⟩
    rintro ⟨others, same | ⟨-, unsigned⟩, found⟩
    · cases same
      exact found
    · exact absurd rfl unsigned
  next unsigned =>
    refine (read text).trans ⟨fun found => ⟨text, .inr ⟨rfl, ?_⟩, found⟩, ?_⟩
    · intro isPlus
      rcases List.head?_eq_some_iff.mp isPlus with ⟨rest, rfl⟩
      exact unsigned rest rfl
    · rintro ⟨others, rfl | ⟨rfl, -⟩, found⟩
      · exact absurd rfl (unsigned others)
      · exact found

theorem twoBytes_iff :
    utf8Len text = 2 ∧ parseUnsigned (2 ^ 32) (String.ofList text) = some value ↔
      TwoBytes text value := by
  rw [parseUnsigned_eq_some]
  constructor
  · rintro ⟨length, digits, sign, notEmpty, all, -, rfl⟩
    have digitsLength : utf8Len digits = digits.length := by
      rw [utf8Len, List.map_congr_left fun char mem =>
        utf8Size_of_isDigit (List.all_eq_true.mp all char mem)]
      simp
    rcases sign with rfl | ⟨rfl, -⟩
    · rw [utf8Len_cons, digitsLength, show Char.utf8Size '+' = 1 from rfl] at length
      obtain ⟨units, rfl⟩ := List.length_eq_one_iff.mp (by omega : digits.length = 1)
      exact .inr ⟨units, rfl, by simpa using all, valueOf_one units⟩
    · rw [digitsLength] at length
      obtain ⟨tens, units, rfl⟩ := List.length_eq_two.mp length
      simp only [List.all_cons, List.all_nil, Bool.and_true, Bool.and_eq_true] at all
      exact .inl ⟨tens, units, rfl, all.1, all.2, valueOf_two tens units⟩
  · rintro (⟨tens, units, rfl, tensDigit, unitsDigit, rfl⟩ | ⟨units, rfl, unitsDigit, rfl⟩)
    · have small := digitValue_le tensDigit
      have small' := digitValue_le unitsDigit
      refine ⟨by simp [utf8Size_of_isDigit tensDigit, utf8Size_of_isDigit unitsDigit],
        [tens, units], .inr ⟨rfl, ?_⟩, by simp, by simp [tensDigit, unitsDigit], ?_,
        valueOf_two tens units⟩
      · simpa using ne_plus_of_isDigit tensDigit
      · rw [valueOf_two]
        omega
    · have small := digitValue_le unitsDigit
      refine ⟨?_, [units], .inl rfl, by simp, by simp [unitsDigit], ?_, valueOf_one units⟩
      · simp [utf8Size_of_isDigit unitsDigit, show Char.utf8Size '+' = 1 from rfl]
      · rw [valueOf_one]
        omega

theorem colon_not_mem (two : TwoBytes text value) : ':' ∉ text := by
  have notDigit : ∀ char : Char, char.isDigit → ':' ≠ char := by
    rintro _ isDigit rfl
    simp at isDigit
  rcases two with ⟨tens, units, rfl, tensDigit, unitsDigit, -⟩ | ⟨units, rfl, unitsDigit, -⟩
  · simp [notDigit tens tensDigit, notDigit units unitsDigit]
  · simp [notDigit units unitsDigit]

theorem minutes_eq_some {hour minute : ℕ} :
    (if 59 < minute then none
      else if hour = 24 ∧ minute = 0 then some (24 * 60)
      else if hour ≤ 23 then some (hour * 60 + minute)
      else none) = some minutes ↔
      minute ≤ 59 ∧ (hour ≤ 23 ∨ hour = 24 ∧ minute = 0) ∧ minutes = hour * 60 + minute := by
  split
  next late =>
    constructor
    · intro impossible
      cases impossible
    · rintro ⟨inHour, -⟩
      omega
  · split
    next last =>
      rw [Option.some.injEq, last.1, last.2]
      omega
    · split
      · rw [Option.some.injEq]
        omega
      · constructor
        · intro impossible
          cases impossible
        · rintro ⟨-, early | last, -⟩ <;> omega

theorem parseMinutes_eq_some {text : String} :
    parseMinutes text = some minutes ↔ IsTime TwoBytes text minutes := by
  constructor
  · intro parsed
    rw [parseMinutes] at parsed
    split at parsed
    · cases parsed
    next hourText minuteText split =>
      split at parsed
      · cases parsed
      next lengths =>
        push Not at lengths
        split at parsed
        next hour minute isHour isMinute =>
          exact ⟨hourText, minuteText, hour, minute, (Lib.of_splitOnce split).1,
            twoBytes_iff.mp ⟨lengths.1, isHour⟩, twoBytes_iff.mp ⟨lengths.2, isMinute⟩,
            minutes_eq_some.mp parsed⟩
        · cases parsed
  · rintro ⟨hourText, minuteText, hour, minute, same, isHour, isMinute, bounds⟩
    have hourParsed := twoBytes_iff.mpr isHour
    have minuteParsed := twoBytes_iff.mpr isMinute
    rw [parseMinutes, same, Lib.splitOnce_append (colon_not_mem isHour)]
    simp only [hourParsed.1, minuteParsed.1, ne_eq, not_true_eq_false, or_self, if_false,
      hourParsed.2, minuteParsed.2]
    exact minutes_eq_some.mpr bounds

theorem IsTime.unique {text : String} {other : ℕ} (isTime : IsTime TwoBytes text minutes)
    (isOther : IsTime TwoBytes text other) : minutes = other :=
  Option.some_injective _
    ((parseMinutes_eq_some.mpr isTime).symm.trans (parseMinutes_eq_some.mpr isOther))

theorem IsTime.le {text : String} (isTime : IsTime number text minutes) : minutes ≤ 24 * 60 := by
  rcases isTime with ⟨-, -, hour, minute, -, -, -, bound, hours, rfl⟩
  omega

theorem ruleProblem_eq_none {rule : ScheduleRule} :
    ruleProblem rule = none ↔ Valid TwoBytes rule := by
  constructor
  · intro fine
    rw [ruleProblem] at fine
    split at fine
    · cases fine
    next days =>
      split at fine
      · cases fine
      next weekdays =>
        split at fine
        · cases fine
        next start isStart =>
          split at fine
          · cases fine
          next stop isStop =>
            split at fine
            · cases fine
            next early =>
              split at fine
              · cases fine
              next differ =>
                split at fine
                · cases fine
                next servers =>
                  refine ⟨start, stop, days, ?_, parseMinutes_eq_some.mp isStart,
                    parseMinutes_eq_some.mp isStop, not_le.mp early, differ, ?_⟩
                  · intro day mem
                    have known := List.find?_eq_none.mp weekdays day mem
                    simpa [Option.isSome_iff_ne_none] using known
                  · intro disables none
                    exact servers ⟨disables, none⟩
  · rintro ⟨start, stop, inOrder⟩
    have weekdays : rule.days.find? (fun day => (parseWeekday day).isNone) = none := by
      rw [List.find?_eq_none]
      intro day mem
      simpa [Option.isSome_iff_ne_none] using inOrder.weekdays day mem
    rw [ruleProblem, if_neg inOrder.days, weekdays, parseMinutes_eq_some.mpr inOrder.isStart,
      parseMinutes_eq_some.mpr inOrder.isStop]
    dsimp only
    rw [if_neg (not_le.mpr inOrder.early), if_neg inOrder.differ, if_neg]
    rintro ⟨disables, none⟩
    exact inOrder.servers disables none

/-! ## Open windows -/

theorem lists_iff {rule : ScheduleRule} :
    date.weekday ∈ rule.days.filterMap parseWeekday ↔ Lists rule date :=
  List.mem_filterMap

theorem activeWindowStart_eq_some {rule : ScheduleRule} {start stop : ℕ}
    (inOrder : InOrder TwoBytes rule start stop) {now : NaiveDateTime calendar} :
    activeWindowStart rule now = some date ↔ Lists rule date ∧
      Lib.InDayWindow 86400 (60 * start) (60 * stop) date.day now.moment := by
  have early := inOrder.early
  have stopLe := inOrder.isStop.le
  have inDay := now.inDay
  have minutes := now.minutes_eq
  rw [activeWindowStart, parseMinutes_eq_some.mpr inOrder.isStart,
    parseMinutes_eq_some.mpr inOrder.isStop]
  dsimp only
  split
  next forward =>
    rw [NaiveDateTime.moment, Lib.inDayWindow_of_lt (by omega) (by omega) (by omega) (by omega)
      (by omega), Option.ite_none_right_eq_some, Option.some.injEq]
    constructor
    · rintro ⟨⟨lists, started, notEnded⟩, rfl⟩
      exact ⟨lists_iff.mp lists, rfl, by omega, by omega⟩
    · rintro ⟨lists, today, started, notEnded⟩
      cases NaiveDate.ext today
      exact ⟨⟨lists_iff.mpr lists, by omega, by omega⟩, rfl⟩
  next overnight =>
    rw [NaiveDateTime.moment, Lib.inDayWindow_of_le (by omega) (by omega) (by omega) (by omega)
      (by omega) (by omega)]
    split
    next today =>
      rw [Option.some.injEq]
      constructor
      · rintro rfl
        exact ⟨lists_iff.mp today.1, .inl ⟨rfl, by omega⟩⟩
      · rintro ⟨-, ⟨same, -⟩ | ⟨-, notEnded⟩⟩
        · exact (NaiveDate.ext same).symm
        · have started := today.2
          omega
    next notToday =>
      rw [Option.filter_eq_some_iff, NaiveDate.predOpt_eq_some]
      constructor
      · rintro ⟨yesterday, open'⟩
        simp only [decide_eq_true_eq] at open'
        exact ⟨lists_iff.mp open'.1, .inr ⟨yesterday, by omega⟩⟩
      · rintro ⟨lists, ⟨same, started⟩ | ⟨yesterday, notEnded⟩⟩
        · cases NaiveDate.ext same
          exact absurd ⟨lists_iff.mpr lists, by omega⟩ notToday
        · refine ⟨yesterday, ?_⟩
          simp only [decide_eq_true_eq]
          exact ⟨lists_iff.mpr lists, by omega⟩

theorem openedOn_eq_some {rule : ScheduleRule} {now : NaiveDateTime calendar} :
    openedOn rule now = some date ↔ Open TwoBytes rule date now := by
  rw [openedOn]
  split
  next problem =>
    constructor
    · intro impossible
      cases impossible
    · rintro ⟨start, stop, inOrder, -⟩
      rw [ruleProblem_eq_none.mpr ⟨start, stop, inOrder⟩] at problem
      cases problem
  next noProblem =>
    rw [Option.not_isSome_iff_eq_none] at noProblem
    obtain ⟨start, stop, inOrder⟩ := ruleProblem_eq_none.mp noProblem
    rw [activeWindowStart_eq_some inOrder]
    constructor
    · intro opened
      exact ⟨start, stop, inOrder, opened⟩
    · rintro ⟨start', stop', inOrder', opened⟩
      rwa [inOrder.isStart.unique inOrder'.isStart, inOrder.isStop.unique inOrder'.isStop]

/-! ## The loop over the rules -/

variable {servers : List String}

theorem mem_addServer {server other : String} :
    other ∈ addServer servers server ↔ other ∈ servers ∨ other = server := by
  rw [addServer]
  split
  next known =>
    constructor
    · exact .inl
    · rintro (mem | rfl)
      · exact mem
      · exact known
  · rw [List.mem_append, List.mem_singleton]

theorem nodup_addServer (distinct : servers.Nodup) (server : String) :
    (addServer servers server).Nodup := by
  rw [addServer]
  split
  · exact distinct
  next unknown =>
    rw [List.nodup_append]
    refine ⟨distinct, List.nodup_singleton _, ?_⟩
    rintro known mem other isServer rfl
    rw [List.mem_singleton] at isServer
    exact unknown (isServer ▸ mem)

theorem mem_foldl_addServer {added : List String} {server : String} :
    server ∈ added.foldl addServer servers ↔ server ∈ servers ∨ server ∈ added := by
  induction added generalizing servers with
  | nil => simp
  | cons first rest ih => rw [List.foldl_cons, ih, mem_addServer, List.mem_cons, or_assoc]

theorem nodup_foldl_addServer (distinct : servers.Nodup) (added : List String) :
    (added.foldl addServer servers).Nodup := by
  induction added generalizing servers with
  | nil => exact distinct
  | cons first rest ih => exact ih (nodup_addServer distinct first)

def IsMinimum (values : Set ℕ) : Option ℕ → Prop
  | none => values = ∅
  | some least => IsLeast values least

theorem IsMinimum.insert {values : Set ℕ} {minimum : Option ℕ}
    (isMinimum : IsMinimum values minimum) (value : ℕ) :
    IsMinimum (insert value values) (some (minimum.elim value fun least =>
      min least value)) := by
  cases minimum with
  | none =>
      have empty : values = ∅ := isMinimum
      subst empty
      simp [IsMinimum]
  | some least =>
      have inserted := IsLeast.insert value isMinimum
      rw [min_comm] at inserted
      exact inserted

theorem IsMinimum.unique {values : Set ℕ} {minimum other : Option ℕ}
    (isMinimum : IsMinimum values minimum) (isOther : IsMinimum values other) :
    minimum = other := by
  cases minimum with
  | none =>
      have empty : values = ∅ := isMinimum
      subst empty
      cases other with
      | none => rfl
      | some least => exact absurd isOther.1 (Set.notMem_empty _)
  | some least =>
      cases other with
      | none =>
          have empty : values = ∅ := isOther
          subst empty
          exact absurd isMinimum.1 (Set.notMem_empty _)
      | some least' => rw [IsLeast.unique isMinimum isOther]

section Loop

variable (rules : List ScheduleRule) (now : NaiveDateTime calendar)

def Does (action : ScheduleAction) (rule : ScheduleRule) : Prop :=
  rule ∈ rules ∧ rule.action = action ∧ ∃ date, openedOn rule now = some date

structure Sums (evaluation : Evaluation) : Prop where
  activeRuleIds : evaluation.decision.activeRuleIds =
    rules.filterMap fun rule => (openedOn rule now).map fun _ => rule.id
  pause : evaluation.decision.pause ↔ ∃ rule, Does rules now .pause rule
  pauseWindows : ∀ window, window ∈ evaluation.pauseWindows ↔
    ∃ rule ∈ rules, rule.action = .pause ∧
      ∃ date, openedOn rule now = some date ∧ occurrence rule date = window
  sawUnlimited : evaluation.sawUnlimited ↔
    ∃ rule, Does rules now .speedLimit rule ∧ rule.speedLimitBps = 0
  cap : IsMinimum {bps | ∃ rule, Does rules now .speedLimit rule ∧
    rule.speedLimitBps ≠ 0 ∧ rule.speedLimitBps = bps} evaluation.decision.speedLimitBps
  distinct : evaluation.decision.disabledServers.Nodup
  disabledServers : ∀ server, server ∈ evaluation.decision.disabledServers ↔
    ∃ rule, Does rules now .disableServers rule ∧ server ∈ rule.servers

variable {rules now} {rule : ScheduleRule} {evaluation : Evaluation}

theorem does_append {action : ScheduleAction} {other : ScheduleRule} :
    Does (rules ++ [rule]) now action other ↔ Does rules now action other ∨
      other = rule ∧ rule.action = action ∧ ∃ date, openedOn rule now = some date := by
  rw [Does, Does, List.mem_append, List.mem_singleton, or_and_right]
  refine or_congr_right (and_congr_right ?_)
  rintro rfl
  rfl

theorem Sums.skip (sums : Sums rules now evaluation) (skipped : openedOn rule now = none) :
    Sums (rules ++ [rule]) now evaluation where
  activeRuleIds := by simp [sums.activeRuleIds, skipped]
  pause := by simp [sums.pause, does_append, skipped]
  pauseWindows window := by
    simp [sums.pauseWindows, or_and_right, exists_or, skipped]
  sawUnlimited := by simp [sums.sawUnlimited, does_append, skipped]
  cap := by simpa [does_append, skipped] using sums.cap
  distinct := sums.distinct
  disabledServers server := by simp [sums.disabledServers, does_append, skipped]

theorem Sums.apply (sums : Sums rules now evaluation) {date : NaiveDate calendar}
    (opened : openedOn rule now = some date) :
    Sums (rules ++ [rule]) now (applyRule rule date evaluation) := by
  rw [applyRule]
  split
  next action =>
    exact {
      activeRuleIds := by simp [sums.activeRuleIds, opened]
      pause := by simp [does_append, opened, action]
      pauseWindows window := by
        simp [sums.pauseWindows, or_and_right, exists_or, opened, action, eq_comm]
      sawUnlimited := by simp [sums.sawUnlimited, does_append, opened, action]
      cap := by simpa [does_append, opened, action] using sums.cap
      distinct := sums.distinct
      disabledServers server := by
        simp [sums.disabledServers, does_append, opened, action] }
  next action =>
    have limits : ∀ other, Does (rules ++ [rule]) now .speedLimit other ↔
        Does rules now .speedLimit other ∨ other = rule := by
      intro other
      simp [does_append, action, opened]
    have kept : ∀ action, action ≠ .speedLimit → ∀ other,
        Does (rules ++ [rule]) now action other ↔ Does rules now action other := by
      intro other isOther
      simp [does_append, action, isOther.symm]
    split
    next unlimited =>
      exact {
        activeRuleIds := by simp [sums.activeRuleIds, opened]
        pause := by simp [sums.pause, kept]
        pauseWindows window := by
          simp [sums.pauseWindows, or_and_right, exists_or, action]
        sawUnlimited := by simp [limits, or_and_right, exists_or, unlimited]
        cap := by simpa [limits, or_and_right, exists_or, unlimited] using sums.cap
        distinct := sums.distinct
        disabledServers server := by simp [sums.disabledServers, kept] }
    next limited =>
      exact {
        activeRuleIds := by simp [sums.activeRuleIds, opened]
        pause := by simp [sums.pause, kept]
        pauseWindows window := by
          simp [sums.pauseWindows, or_and_right, exists_or, action]
        sawUnlimited := by
          simp [sums.sawUnlimited, limits, or_and_right, exists_or, limited]
        cap := by
          have values : {bps | ∃ other, Does (rules ++ [rule]) now .speedLimit other ∧
              other.speedLimitBps ≠ 0 ∧ other.speedLimitBps = bps} =
              insert rule.speedLimitBps {bps | ∃ other, Does rules now .speedLimit other ∧
                other.speedLimitBps ≠ 0 ∧ other.speedLimitBps = bps} := by
            ext bps
            simp only [limits, or_and_right, exists_or, exists_eq_left, Set.mem_ofPred_eq,
              Set.mem_insert_iff, limited, ne_eq, not_false_eq_true, true_and]
            rw [or_comm, eq_comm]
          rw [values]
          exact sums.cap.insert _
        distinct := sums.distinct
        disabledServers server := by simp [sums.disabledServers, kept] }
  next action =>
    exact {
      activeRuleIds := by simp [sums.activeRuleIds, opened]
      pause := by simp [sums.pause, does_append, action]
      pauseWindows window := by
        simp [sums.pauseWindows, or_and_right, exists_or, action]
      sawUnlimited := by simp [sums.sawUnlimited, does_append, action]
      cap := by simpa [does_append, action] using sums.cap
      distinct := nodup_foldl_addServer sums.distinct _
      disabledServers server := by
        simp [mem_foldl_addServer, sums.disabledServers, does_append, or_and_right, exists_or,
          opened, action] }

theorem sums_evaluateRules (rules : List ScheduleRule) (now : NaiveDateTime calendar) :
    Sums rules now (evaluateRules rules now) := by
  induction rules using List.reverseRecOn with
  | nil =>
      exact {
        activeRuleIds := rfl
        pause := by simp [evaluateRules, Does]
        pauseWindows := by simp [evaluateRules]
        sawUnlimited := by simp [evaluateRules, Does]
        cap := by simp [evaluateRules, Does, IsMinimum]
        distinct := List.nodup_nil
        disabledServers := by simp [evaluateRules, Does] }
  | append_singleton rules rule ih =>
      rw [evaluateRules, List.foldl_concat, ← evaluateRules, evaluateRule]
      split
      next skipped => exact ih.skip skipped
      next date opened => exact ih.apply opened

end Loop

/-! ## Decisions -/

theorem acts_iff {rules : List ScheduleRule} {now : NaiveDateTime calendar}
    {action : ScheduleAction} {rule : ScheduleRule} :
    Acts TwoBytes rules now action rule ↔ Does rules now action rule := by
  simp only [Acts, Does, openedOn_eq_some]

theorem decides_evaluate (rules : List ScheduleRule) (now : NaiveDateTime calendar) :
    Decides TwoBytes rules now (evaluate rules now) := by
  have sums := sums_evaluateRules rules now
  have noneUnlimited : (∀ rule, Does rules now .speedLimit rule → rule.speedLimitBps ≠ 0) →
      (evaluate rules now).speedLimitBps = (evaluateRules rules now).decision.speedLimitBps := by
    intro limited
    apply if_neg
    rw [sums.sawUnlimited]
    rintro ⟨rule, does, unlimited⟩
    exact limited rule does unlimited
  refine
    { pause := ?pause
      ascending := Lib.ascending_sortDedup _
      pauseWindows := ?pauseWindows
      noCap := ?noCap
      unlimited := ?unlimited
      leastCap := ?leastCap
      distinct := sums.distinct
      disabledServers := ?disabledServers }
  case pause =>
    simp only [acts_iff]
    exact sums.pause
  case pauseWindows =>
    intro window
    simp only [← openedOn_eq_some]
    exact Lib.mem_sortDedup.trans (sums.pauseWindows window)
  case noCap =>
    simp only [acts_iff]
    intro noRule
    rw [noneUnlimited fun rule does => absurd does (noRule rule)]
    have minimum := sums.cap
    cases cap : (evaluateRules rules now).decision.speedLimitBps with
    | none => rfl
    | some least =>
        rw [cap] at minimum
        rcases minimum.1 with ⟨rule, does, -⟩
        exact absurd does (noRule rule)
  case unlimited =>
    simp only [acts_iff]
    intro rule does unlimited
    exact if_pos (sums.sawUnlimited.mpr ⟨rule, does, unlimited⟩)
  case leastCap =>
    simp only [acts_iff]
    intro rule does limited
    rw [noneUnlimited limited]
    have minimum := sums.cap
    cases cap : (evaluateRules rules now).decision.speedLimitBps with
    | none =>
        rw [cap] at minimum
        have mem : rule.speedLimitBps ∈ (∅ : Set ℕ) :=
          minimum ▸ ⟨rule, does, limited rule does, rfl⟩
        exact absurd mem (Set.notMem_empty _)
    | some least =>
        rw [cap] at minimum
        rcases minimum.1 with ⟨leastRule, leastDoes, -, rfl⟩
        exact ⟨leastRule, leastDoes,
          fun other does => minimum.2 ⟨other, does, limited other does, rfl⟩, rfl⟩
  case disabledServers =>
    simp only [acts_iff]
    exact sums.disabledServers

theorem evaluate_perm {rules other : List ScheduleRule} (perm : rules.Perm other)
    (now : NaiveDateTime calendar) : SameButForOrder (evaluate rules now) (evaluate other now) := by
  have sums := sums_evaluateRules rules now
  have sums' := sums_evaluateRules other now
  have does : ∀ action rule, Does other now action rule ↔ Does rules now action rule := by
    intro action rule
    rw [Does, Does, perm.mem_iff]
  have pause' := sums'.pause
  have sawUnlimited' := sums'.sawUnlimited
  have cap' := sums'.cap
  have disabledServers' := sums'.disabledServers
  simp only [does] at pause' sawUnlimited' cap' disabledServers'
  refine
    { activeRuleIds := ?activeRuleIds
      pause := Bool.eq_iff_iff.mpr (sums.pause.trans pause'.symm)
      speedLimitBps := ?speedLimitBps
      disabledServers := ?disabledServers
      pauseWindows := Lib.sortDedup_congr ?pauseWindows }
  case activeRuleIds =>
    rw [evaluate, evaluate, sums.activeRuleIds, sums'.activeRuleIds]
    exact perm.filterMap _
  case speedLimitBps =>
    have same : (evaluateRules rules now).sawUnlimited = (evaluateRules other now).sawUnlimited :=
      Bool.eq_iff_iff.mpr (sums.sawUnlimited.trans sawUnlimited'.symm)
    rw [evaluate, evaluate, same, sums.cap.unique cap']
  case disabledServers =>
    refine (List.perm_ext_iff_of_nodup sums.distinct sums'.distinct).mpr fun server => ?_
    exact (sums.disabledServers server).trans (disabledServers' server).symm
  case pauseWindows =>
    intro window
    rw [sums.pauseWindows, sums'.pauseWindows]
    simp only [perm.mem_iff]

/-! ## Signed numbers -/

variable {other : List Char → ℕ → Prop}

theorem IsTime.mono {text : String}
    (weaker : ∀ digits value, number digits value → other digits value)
    (isTime : IsTime number text minutes) : IsTime other text minutes := by
  rcases isTime with ⟨hourText, minuteText, hour, minute, same, isHour, isMinute, bounds⟩
  exact ⟨hourText, minuteText, hour, minute, same, weaker _ _ isHour, weaker _ _ isMinute, bounds⟩

theorem InOrder.mono {rule : ScheduleRule} {start stop : ℕ}
    (weaker : ∀ digits value, number digits value → other digits value)
    (inOrder : InOrder number rule start stop) : InOrder other rule start stop :=
  { inOrder with
    isStart := inOrder.isStart.mono weaker
    isStop := inOrder.isStop.mono weaker }

theorem twoBytes_of_twoDigits (two : TwoDigits text value) : TwoBytes text value :=
  .inl two

theorem Valid.twoBytes {rule : ScheduleRule} (valid : Valid TwoDigits rule) :
    Valid TwoBytes rule := by
  rcases valid with ⟨start, stop, inOrder⟩
  exact ⟨start, stop, inOrder.mono fun _ _ => twoBytes_of_twoDigits⟩

theorem TwoDigits.unsigned (two : TwoDigits text value) : '+' ∉ text := by
  rcases two with ⟨tens, units, rfl, tensDigit, unitsDigit, -⟩
  simp [(ne_plus_of_isDigit tensDigit).symm, (ne_plus_of_isDigit unitsDigit).symm]

theorem TwoBytes.twoDigits (two : TwoBytes text value) (unsigned : '+' ∉ text) :
    TwoDigits text value := by
  rcases two with two | ⟨units, rfl, -⟩
  · exact two
  · exact absurd List.mem_cons_self unsigned

theorem IsTime.unsigned {text : String} (isTime : IsTime TwoDigits text minutes) :
    '+' ∉ trim text.toList := by
  rcases isTime with ⟨hourText, minuteText, hour, minute, same, isHour, isMinute, -⟩
  rw [same, List.mem_append, List.mem_cons, not_or, not_or]
  exact ⟨isHour.unsigned, by decide, isMinute.unsigned⟩

theorem IsTime.twoDigits {text : String} (isTime : IsTime TwoBytes text minutes)
    (unsigned : '+' ∉ trim text.toList) : IsTime TwoDigits text minutes := by
  rcases isTime with ⟨hourText, minuteText, hour, minute, same, isHour, isMinute, bounds⟩
  rw [same, List.mem_append, List.mem_cons, not_or, not_or] at unsigned
  exact ⟨hourText, minuteText, hour, minute, same, isHour.twoDigits unsigned.1,
    isMinute.twoDigits unsigned.2.2, bounds⟩

def Signed (rule : ScheduleRule) : Prop :=
  '+' ∈ trim rule.start.toList ∨ '+' ∈ trim rule.stop.toList

theorem Valid.twoDigits {rule : ScheduleRule} (valid : Valid TwoBytes rule)
    (unsigned : ¬Signed rule) : Valid TwoDigits rule := by
  rw [Signed, not_or] at unsigned
  rcases valid with ⟨start, stop, inOrder⟩
  exact ⟨start, stop, { inOrder with
    isStart := inOrder.isStart.twoDigits unsigned.1
    isStop := inOrder.isStop.twoDigits unsigned.2 }⟩

theorem Valid.unsigned {rule : ScheduleRule} (valid : Valid TwoDigits rule) : ¬Signed rule := by
  rcases valid with ⟨start, stop, inOrder⟩
  rintro (signed | signed)
  · exact inOrder.isStart.unsigned signed
  · exact inOrder.isStop.unsigned signed

theorem open_twoDigits_iff {rule : ScheduleRule} (same : Valid TwoBytes rule → ¬Signed rule)
    {now : NaiveDateTime calendar} :
    Open TwoDigits rule date now ↔ Open TwoBytes rule date now := by
  constructor
  · rintro ⟨start, stop, inOrder, opened⟩
    exact ⟨start, stop, inOrder.mono fun _ _ => twoBytes_of_twoDigits, opened⟩
  · rintro ⟨start, stop, inOrder, opened⟩
    have unsigned := same ⟨start, stop, inOrder⟩
    rw [Signed, not_or] at unsigned
    exact ⟨start, stop, { inOrder with
      isStart := inOrder.isStart.twoDigits unsigned.1
      isStop := inOrder.isStop.twoDigits unsigned.2 }, opened⟩

theorem Decides.congr {rules : List ScheduleRule} {now : NaiveDateTime calendar}
    {decision : ScheduleDecision} (decides : Decides number rules now decision)
    (same : ∀ rule ∈ rules, ∀ date, Open other rule date now ↔ Open number rule date now) :
    Decides other rules now decision := by
  have acts : ∀ action rule,
      Acts other rules now action rule ↔ Acts number rules now action rule := by
    intro action rule
    exact and_congr_right fun mem => and_congr_right fun _ => exists_congr (same rule mem)
  exact {
    pause := by simpa only [acts] using decides.pause
    ascending := decides.ascending
    pauseWindows := by
      intro window
      rw [decides.pauseWindows]
      refine exists_congr fun rule => and_congr_right fun mem => and_congr_right fun _ => ?_
      exact exists_congr fun date => and_congr_left' (same rule mem date).symm
    noCap := by simpa only [acts] using decides.noCap
    unlimited := by simpa only [acts] using decides.unlimited
    leastCap := by simpa only [acts] using decides.leastCap
    distinct := decides.distinct
    disabledServers := by simpa only [acts] using decides.disabledServers }

/-- The schedule is that of its windows unless a rule writes an hour or a minute with a plus sign
and would be in order without. -/
theorem followsWindows_iff (rules : List ScheduleRule) (now : NaiveDateTime calendar) :
    FollowsWindows rules now ↔ ∀ rule ∈ rules, Valid TwoBytes rule → ¬Signed rule := by
  constructor
  · intro follows rule mem valid
    exact ((follows.problems rule mem).mp (ruleProblem_eq_none.mpr valid)).unsigned
  · intro unsigned
    refine ⟨?_, ?_, fun other perm => evaluate_perm perm now⟩
    · intro rule mem
      rw [ruleProblem_eq_none]
      exact ⟨fun valid => valid.twoDigits (unsigned rule mem valid), Valid.twoBytes⟩
    · exact (decides_evaluate rules now).congr fun rule mem date =>
        open_twoDigits_iff (unsigned rule mem)

def signedRule : ScheduleRule where
  id := "r1"
  days := ["mon"]
  start := "+9:30"
  stop := "17:00"
  action := .pause
  speedLimitBps := 0
  servers := []

theorem valid_signedRule : Valid TwoBytes signedRule := by
  refine ⟨570, 1020, by decide, ?_, ?_, ?_, by decide, by decide, by decide⟩
  · intro day isDay
    obtain rfl := List.mem_singleton.mp isDay
    decide
  · exact ⟨['+', '9'], ['3', '0'], 9, 30, by decide, .inr ⟨'9', by decide⟩,
      .inl ⟨'3', '0', by decide⟩, by decide⟩
  · exact ⟨['1', '7'], ['0', '0'], 17, 0, by decide, .inl ⟨'1', '7', by decide⟩,
      .inl ⟨'0', '0', by decide⟩, by decide⟩

def monday : NaiveDateTime ⟨0, 30000, fun _ => "2026-07-20"⟩ where
  date := ⟨20654, by decide, by decide⟩
  second := 12 * 3600
  inDay := by decide

theorem not_followsWindows_signed : ¬FollowsWindows [signedRule] monday := by
  intro follows
  have valid := (follows.problems _ (List.mem_singleton_self _)).mp
    (ruleProblem_eq_none.mpr valid_signedRule)
  exact valid.unsigned (.inl (by decide))

end Rustnzb.Core.Schedule
