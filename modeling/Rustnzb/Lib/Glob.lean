import Mathlib.Data.List.Infix

/-!
# Glob patterns

A pattern over any alphabet with two symbols of its own: `star` stands for any sequence, `any` for
any one symbol. A reading of a pattern is plain if a star that begins at a star of the value stands
for just that one.
-/

namespace Rustnzb.Lib.Glob

universe u

variable {α : Type u} {star any : α}

/-- The pattern matches the whole value. -/
inductive Matches (star any : α) : List α → List α → Prop where
  | nil : Matches star any [] []
  | star {pattern rest : List α} (taken : List α) (tail : Matches star any pattern rest) :
      Matches star any (star :: pattern) (taken ++ rest)
  | any {pattern rest : List α} (symbol : α) (tail : Matches star any pattern rest) :
      Matches star any (any :: pattern) (symbol :: rest)
  | same {pattern rest : List α} {symbol : α} (isPlain : symbol ≠ star ∧ symbol ≠ any)
      (tail : Matches star any pattern rest) :
      Matches star any (symbol :: pattern) (symbol :: rest)

/-- The pattern matches the whole value, and each star that begins at a star is that star. -/
inductive Plainly (star any : α) : List α → List α → Prop where
  | nil : Plainly star any [] []
  | star {pattern rest : List α} (taken : List α) (begins : (taken ++ rest).head? ≠ some star)
      (tail : Plainly star any pattern rest) : Plainly star any (star :: pattern) (taken ++ rest)
  | any {pattern rest : List α} (symbol : α) (tail : Plainly star any pattern rest) :
      Plainly star any (any :: pattern) (symbol :: rest)
  | same {pattern rest : List α} (symbol : α) (tail : Plainly star any pattern rest) :
      Plainly star any (symbol :: pattern) (symbol :: rest)

/-- A text without symbols of its own matches itself. -/
theorem matches_self {text : List α} (plain : ∀ symbol ∈ text, symbol ≠ star ∧ symbol ≠ any) :
    Matches star any text text := by
  induction text with
  | nil => exact .nil
  | cons symbol text ih =>
      apply Matches.same (plain symbol List.mem_cons_self)
      exact ih fun other mem => plain other (List.mem_cons_of_mem symbol mem)

variable {pattern value : List α}

theorem Plainly.matches (plainly : Plainly star any pattern value) :
    Matches star any pattern value := by
  induction plainly with
  | nil => exact .nil
  | star taken _ _ ih => exact .star taken ih
  | any symbol _ ih => exact .any symbol ih
  | same symbol _ ih =>
      by_cases isStar : symbol = star
      · rw [isStar]
        exact .star [star] ih
      · by_cases isAny : symbol = any
        · rw [isAny]
          exact .any any ih
        · exact .same ⟨isStar, isAny⟩ ih

/-- Without a star in the value, every match is plain. -/
theorem Matches.plainly (isMatch : Matches star any pattern value) (absent : star ∉ value) :
    Plainly star any pattern value := by
  induction isMatch with
  | nil => exact .nil
  | star taken _ ih =>
      refine .star taken (fun begins => absent (List.mem_of_mem_head? begins)) (ih ?_)
      exact fun mem => absent (List.mem_append_right taken mem)
  | any symbol _ ih => exact .any symbol (ih fun mem => absent (List.mem_cons_of_mem symbol mem))
  | same _ _ ih => exact .same _ (ih fun mem => absent (List.mem_cons_of_mem _ mem))

/-- A symbol of the pattern that the first symbol of the value agrees with. -/
theorem plainly_cons_iff (differ : star ≠ any) {expected symbol : α} {rest : List α}
    (agrees : expected = symbol ∨ expected = any) :
    Plainly star any (expected :: pattern) (symbol :: rest) ↔ Plainly star any pattern rest := by
  constructor
  · intro plainly
    generalize isValue : symbol :: rest = value at plainly
    cases plainly with
    | star taken begins tail =>
        rcases agrees with rfl | isAny
        · rw [← isValue] at begins
          exact absurd rfl begins
        · exact absurd isAny differ
    | any _ tail =>
        rw [List.cons.injEq] at isValue
        rwa [isValue.2]
    | same _ tail =>
        rw [List.cons.injEq] at isValue
        rwa [isValue.2]
  · intro tail
    rcases agrees with rfl | rfl
    · exact .same expected tail
    · exact .any symbol tail

theorem suffix_of_plainly_star (plainly : Plainly star any (star :: pattern) value) :
    ∃ rest, rest <:+ value ∧ Plainly star any pattern rest := by
  cases plainly with
  | star taken _ tail => exact ⟨_, List.suffix_append taken _, tail⟩
  | any symbol tail => exact ⟨_, List.suffix_cons symbol _, tail⟩
  | same _ tail => exact ⟨_, List.suffix_cons _ _, tail⟩

/-- A star that does not begin at a star takes any number of symbols. -/
theorem plainly_star_iff (begins : value.head? ≠ some star) :
    Plainly star any (star :: pattern) value ↔ ∃ rest, rest <:+ value ∧
      Plainly star any pattern rest := by
  constructor
  · exact suffix_of_plainly_star
  · rintro ⟨rest, ⟨taken, rfl⟩, tail⟩
    exact .star taken begins tail

theorem not_plainly_cons {expected symbol : α} {rest : List α}
    (differs : expected ≠ symbol ∧ expected ≠ any ∧ expected ≠ star) :
    ¬Plainly star any (expected :: pattern) (symbol :: rest) := by
  generalize isValue : symbol :: rest = value
  intro plainly
  cases plainly with
  | star taken _ _ => exact differs.2.2 rfl
  | any _ _ => exact differs.2.1 rfl
  | same _ _ =>
      rw [List.cons.injEq] at isValue
      exact differs.1 isValue.1.symm

theorem plainly_nil_iff : Plainly star any pattern [] ↔ ∀ symbol ∈ pattern, symbol = star := by
  constructor
  · intro plainly
    generalize isValue : [] = value at plainly
    induction plainly with
    | nil => simp
    | star taken _ _ ih =>
        intro symbol mem
        rcases List.mem_cons.mp mem with isStar | mem
        · exact isStar
        · exact ih (List.append_eq_nil_iff.mp isValue.symm).2.symm symbol mem
    | any _ _ => nomatch isValue
    | same _ _ => nomatch isValue
  · intro stars
    induction pattern with
    | nil => exact .nil
    | cons symbol pattern ih =>
        rw [stars symbol List.mem_cons_self]
        have tail := ih fun other mem => stars other (List.mem_cons_of_mem symbol mem)
        exact Plainly.star [] (by simp) tail

/-- A run of the pattern agrees with as many symbols of the value. -/
abbrev Agree (any : α) : List α → List α → Prop :=
  List.Forall₂ fun expected symbol => expected = symbol ∨ expected = any

theorem plainly_append_iff (differ : star ≠ any) {run matched rest : List α}
    (agree : Agree any run matched) :
    Plainly star any (run ++ pattern) (matched ++ rest) ↔ Plainly star any pattern rest := by
  induction agree with
  | nil => rfl
  | cons agrees _ ih => exact (plainly_cons_iff differ agrees).trans ih

/-- Where a run agrees with the front of a value, beginning the run later leaves no more of the
value for what follows. -/
theorem suffix_of_agree (differ : star ≠ any) {run matched rest : List α}
    (agree : Agree any run matched) (isSuffix : value <:+ matched ++ rest)
    (plainly : Plainly star any (run ++ pattern) value) :
    ∃ left, left <:+ rest ∧ Plainly star any pattern left := by
  induction agree generalizing value with
  | nil => exact ⟨value, isSuffix, plainly⟩
  | @cons expected symbol run matched agrees _ ih =>
      have tail : ∀ {first later}, first :: later <:+ symbol :: (matched ++ rest) →
          later <:+ matched ++ rest := by
        intro first later isSuffix
        rcases List.suffix_cons_iff.mp isSuffix with same | isSuffix
        · rw [(List.cons.inj same).2]
        · exact (List.suffix_cons first later).trans isSuffix
      rw [List.cons_append] at isSuffix plainly
      cases plainly with
      | star taken begins plainly =>
          cases taken with
          | nil =>
              rcases List.suffix_cons_iff.mp isSuffix with same | isSuffix
              · rw [same] at begins
                rcases agrees with isStar | isAny
                · exact absurd (congrArg some isStar.symm) begins
                · exact absurd isAny differ
              · exact ih isSuffix plainly
          | cons first taken =>
              rw [List.cons_append] at isSuffix
              exact ih ((List.suffix_append taken _).trans (tail isSuffix)) plainly
      | any _ plainly => exact ih (tail isSuffix) plainly
      | same _ plainly => exact ih (tail isSuffix) plainly

end Rustnzb.Lib.Glob
