import Mathlib.Tactic

/-!
# A scan that leaps forward

A scan stands at a place and goes on to a later one, where it stands next. It comes to a place
exactly if it leaps over it from nowhere.
-/

namespace Rustnzb.Lib

variable {leap : ℕ → ℕ} {start place other : ℕ}

/-- The scan comes to a place. -/
def Reaches (leap : ℕ → ℕ) (start place : ℕ) : Prop := ∃ count, leap^[count] start = place

namespace Reaches

theorem refl (leap : ℕ → ℕ) (start : ℕ) : Reaches leap start start := ⟨0, rfl⟩

/-- The places from a start are the start and those from the next one. -/
theorem iff_eq_or :
    Reaches leap start place ↔ place = start ∨ Reaches leap (leap start) place := by
  constructor
  · rintro ⟨count, rfl⟩
    cases count with
    | zero => exact .inl rfl
    | succ count => exact .inr ⟨count, rfl⟩
  · rintro (rfl | ⟨count, rfl⟩)
    · exact refl leap place
    · exact ⟨count + 1, rfl⟩

variable (forward : ∀ place, place < leap place)

include forward

/-- The scan never stands still. -/
theorem strictMono (start : ℕ) : StrictMono fun count => leap^[count] start := by
  apply strictMono_nat_of_lt_succ
  intro count
  rw [Function.iterate_succ_apply']
  exact forward _

theorem le (reaches : Reaches leap start place) : start ≤ place := by
  rcases reaches with ⟨count, rfl⟩
  exact (strictMono forward start).monotone (Nat.zero_le count)

/-- The next place after one is where the leap ends. -/
theorem leap_le_of_lt (reaches : Reaches leap start place) (reaches' : Reaches leap start other)
    (lt : place < other) : leap place ≤ other := by
  rcases reaches with ⟨count, rfl⟩
  rcases reaches' with ⟨count', rfl⟩
  have mono := strictMono forward start
  rw [← Function.iterate_succ_apply' leap count start]
  exact mono.monotone (Nat.succ_le_of_lt (mono.lt_iff_lt.mp lt))

/-- The scan comes to a place, or leaps over it. -/
theorem or_leapt (after : start ≤ place) :
    Reaches leap start place ∨
      ∃ before, Reaches leap start before ∧ before < place ∧ place < leap before := by
  induction distance : place - start using Nat.strong_induction_on generalizing start with
  | _ distance ih =>
      rcases Nat.eq_or_lt_of_le after with rfl | lt
      · exact .inl (refl leap start)
      · rcases Nat.lt_or_ge place (leap start) with leapt | behind
        · exact .inr ⟨start, refl leap start, lt, leapt⟩
        · have further := forward start
          rcases ih (place - leap start) (by omega) behind rfl with
            reached | ⟨before, reached, between⟩
          · exact .inl (iff_eq_or.mpr (.inr reached))
          · exact .inr ⟨before, iff_eq_or.mpr (.inr reached), between⟩

end Reaches

end Rustnzb.Lib
