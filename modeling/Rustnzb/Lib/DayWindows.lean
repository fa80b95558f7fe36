import Mathlib.Tactic

/-!
# Windows that recur by the day

Days of `length` units follow each other from the moment zero on. A daily window runs from `start`
into the day to `stop`, on the next day unless that is behind the start, and holds its start but not
its end. No moment is in the windows of two days, and what day a moment is in the window of can be
told from how far its own day has gone.
-/

namespace Rustnzb.Lib

variable {length start stop day other today offset moment : ℤ}

/-- A moment is in the window that starts on this day. -/
def InDayWindow (length start stop day moment : ℤ) : Prop :=
  day * length + start ≤ moment ∧
    moment < (if start < stop then day else day + 1) * length + stop

/-- Days in order start a whole day apart. -/
theorem day_add_le (length_nonneg : 0 ≤ length) (before : day < other) :
    day * length + length ≤ other * length := by
  have le : (day + 1) * length ≤ other * length :=
    mul_le_mul_of_nonneg_right (Int.add_one_le_of_lt before) length_nonneg
  rwa [add_mul, one_mul] at le

theorem inDayWindow_of_lt (start_nonneg : 0 ≤ start) (forward : start < stop)
    (stop_le : stop ≤ length) (offset_nonneg : 0 ≤ offset) (offset_lt : offset < length) :
    InDayWindow length start stop day (today * length + offset) ↔
      day = today ∧ start ≤ offset ∧ offset < stop := by
  rw [InDayWindow, if_pos forward]
  constructor
  · rintro ⟨started, notEnded⟩
    have length_nonneg : 0 ≤ length := by omega
    rcases lt_trichotomy day today with before | same | after
    · have apart := day_add_le length_nonneg before
      omega
    · subst same
      exact ⟨rfl, by omega, by omega⟩
    · have apart := day_add_le length_nonneg after
      omega
  · rintro ⟨rfl, started, notEnded⟩
    omega

theorem inDayWindow_of_le (start_nonneg : 0 ≤ start) (start_lt : start < length)
    (stop_nonneg : 0 ≤ stop) (overnight : stop ≤ start)
    (offset_nonneg : 0 ≤ offset) (offset_lt : offset < length) :
    InDayWindow length start stop day (today * length + offset) ↔
      day = today ∧ start ≤ offset ∨ day = today - 1 ∧ offset < stop := by
  have length_nonneg : 0 ≤ length := by omega
  rw [InDayWindow, if_neg (not_lt.mpr overnight)]
  constructor
  · rintro ⟨started, notEnded⟩
    rw [add_mul, one_mul] at notEnded
    rcases lt_trichotomy day today with before | same | after
    · have apart := day_add_le length_nonneg before
      rcases eq_or_lt_of_le (Int.le_sub_one_of_lt before) with yesterday | earlier
      · have next : today * length = day * length + length := by
          rw [yesterday, sub_mul, one_mul, sub_add_cancel]
        exact .inr ⟨yesterday, by omega⟩
      · have apart' := day_add_le length_nonneg earlier
        rw [sub_mul, one_mul] at apart'
        omega
    · subst same
      exact .inl ⟨rfl, by omega⟩
    · have apart := day_add_le length_nonneg after
      omega
  · rintro (⟨rfl, started⟩ | ⟨rfl, notEnded⟩)
    · rw [add_mul, one_mul]
      omega
    · rw [sub_add_cancel, sub_mul, one_mul]
      omega

end Rustnzb.Lib
