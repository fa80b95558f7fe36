import Mathlib.Tactic

/-!
# Lexical paths

A path is walked component by component from a position in the tree of directories, without looking
at the tree. A relative name stays strictly below where it starts exactly if each of its prefixes
goes down more often than up.
-/

namespace Rustnzb.Lib

inductive Component where
  | root
  | parent
  | name (name : List Char)
  deriving DecidableEq

/-- Put a character before the pieces of what follows it. -/
def before (char : Char) : List (List Char) → List (List Char)
  | first :: others => if char = '/' then [] :: first :: others else (char :: first) :: others
  | [] => []

/-- The pieces of a path between its slashes. -/
def pieces (path : List Char) : List (List Char) :=
  path.foldr before [[]]

def isAbsolute (path : List Char) : Bool := path.head? = some '/'

/-- The component a piece stands for; empty pieces and single dots stand for none. -/
def ofPiece (piece : List Char) : Option Component :=
  if piece = [] ∨ piece = ['.'] then none
  else if piece = ['.', '.'] then some .parent
  else some (.name piece)

def components (path : List Char) : List Component :=
  (if isAbsolute path then [.root] else []) ++ (pieces path).filterMap ofPiece

/-- Put a name after a base, which an absolute name replaces. -/
def join (base name : List Char) : List Char :=
  if isAbsolute name then name
  else if base = [] ∨ base.getLast? = some '/' then base ++ name
  else base ++ '/' :: name

/-- A position is the list of directories down to it, the deepest first. -/
def Component.apply (position : List (List Char)) : Component → List (List Char)
  | .root => []
  | .parent => position.tail
  | .name part => part :: position

def walk (position : List (List Char)) (path : List Component) : List (List Char) :=
  path.foldl Component.apply position

/-- Where a path leads, from a current directory. -/
def resolve (cwd : List (List Char)) (path : List Char) : List (List Char) :=
  walk cwd (components path)

/-- Strictly below a position. -/
def Below (base position : List (List Char)) : Prop :=
  base <:+ position ∧ position ≠ base

/-- A walk that goes somewhere, and is strictly below its start after each of its components. -/
def Confined (base : List (List Char)) (path : List Component) : Prop :=
  path ≠ [] ∧ ∀ visited, visited ≠ [] → visited <+: path → Below base (walk base visited)

/-- From a depth, the walk never comes back to depth zero, and does not end there. -/
def StaysDown : ℕ → List Component → Prop
  | depth, [] => 0 < depth
  | _, .root :: _ => False
  | depth, .parent :: rest => 2 ≤ depth ∧ StaysDown (depth - 1) rest
  | depth, .name _ :: rest => StaysDown (depth + 1) rest

theorem foldr_before_append (base : List Char) {parts : List (List Char)}
    (others : List (List Char)) (some : parts ≠ []) :
    base.foldr before parts ≠ [] ∧
      base.foldr before (parts ++ others) = base.foldr before parts ++ others := by
  induction base with
  | nil => exact ⟨some, rfl⟩
  | cons char base ih =>
      rcases ih with ⟨notNil, same⟩
      rcases List.exists_cons_of_ne_nil notNil with ⟨first, rest, isCons⟩
      simp only [List.foldr_cons, same, isCons, List.cons_append, before]
      split <;> simp

theorem pieces_append_slash (base name : List Char) :
    pieces (base ++ '/' :: name) = pieces base ++ pieces name := by
  have slash : pieces ('/' :: name) = [[]] ++ pieces name := by
    rcases List.exists_cons_of_ne_nil (foldr_before_append name [] (by simp : [[]] ≠ [])).1 with
      ⟨first, rest, isCons⟩
    simp only [pieces, List.foldr_cons, isCons, before]
    rfl
  have appended : pieces (base ++ '/' :: name) = base.foldr before (pieces ('/' :: name)) := by
    simp only [pieces, List.foldr_append]
  rw [appended, slash, (foldr_before_append base (pieces name) (by simp)).2]
  rfl

@[simp] theorem isAbsolute_append {base name : List Char} (some : base ≠ []) :
    isAbsolute (base ++ name) = isAbsolute base := by
  rcases List.exists_cons_of_ne_nil some with ⟨first, rest, rfl⟩
  rfl

theorem components_append_slash (base name : List Char) (some : base ≠ []) :
    components (base ++ '/' :: name) = components base ++ (pieces name).filterMap ofPiece := by
  simp [components, pieces_append_slash, some]

theorem walk_append (position : List (List Char)) (first second : List Component) :
    walk position (first ++ second) = walk (walk position first) second :=
  List.foldl_append

/-- A joined path leads where the name does from where the base leads. -/
theorem resolve_join (cwd : List (List Char)) (base name : List Char) :
    resolve cwd (join base name) = walk (resolve cwd base) (components name) := by
  simp only [join]
  split
  next absolute =>
    simp [resolve, components, absolute, walk, Component.apply]
  next relative =>
    have names : components name = (pieces name).filterMap ofPiece := by
      simp [components, relative]
    split
    next ends =>
      rcases ends with rfl | slash
      · rfl
      · rcases List.getLast?_eq_some_iff.mp slash with ⟨front, rfl⟩
        have whole : components (front ++ ['/'] ++ name) =
            components (front ++ ['/']) ++ (pieces name).filterMap ofPiece := by
          have absolute : isAbsolute (front ++ '/' :: name) = isAbsolute (front ++ ['/']) := by
            cases front <;> rfl
          have ended : (pieces ([] : List Char)).filterMap ofPiece = [] := rfl
          simp only [List.append_assoc, List.singleton_append, components, absolute,
            pieces_append_slash, List.filterMap_append, ended, List.append_nil]
        rw [resolve, whole, walk_append, names]
        rfl
    next ends =>
      rw [not_or] at ends
      rw [resolve, components_append_slash base name ends.1, walk_append, names]
      rfl

section Confined

variable {base above : List (List Char)} {path : List Component}

theorem below_append (some : above ≠ []) : Below base (above ++ base) := by
  simpa [Below] using some

/-- After a component, the walks of the prefixes are those from the next position. -/
theorem forall_prefix_cons {component : Component} {position : List (List Char)} :
    (∀ visited, visited ≠ [] → visited <+: component :: path → Below base (walk position visited)) ↔
      Below base (component.apply position) ∧
        ∀ visited, visited ≠ [] → visited <+: path →
          Below base (walk (component.apply position) visited) := by
  constructor
  · intro down
    refine ⟨down [component] (by simp) (by simp), ?_⟩
    intro visited _ isPrefix
    exact down (component :: visited) (by simp) (List.cons_prefix_cons.mpr ⟨rfl, isPrefix⟩)
  · rintro ⟨first, rest⟩ visited some isPrefix
    rcases List.exists_cons_of_ne_nil some with ⟨other, later, rfl⟩
    rcases List.cons_prefix_cons.mp isPrefix with ⟨rfl, laterPrefix⟩
    rcases later with _ | ⟨second, later⟩
    · exact first
    · exact rest (second :: later) (by simp) laterPrefix

variable (base) in
theorem staysDown_iff (above : List (List Char)) (path : List Component) :
    StaysDown above.length path ↔
      (0 < above.length ∨ path ≠ []) ∧
        ∀ visited, visited ≠ [] → visited <+: path → Below base (walk (above ++ base) visited) := by
  induction path generalizing above with
  | nil =>
      simp only [StaysDown, ne_eq, not_true, or_false, List.prefix_nil]
      exact (and_iff_left fun visited some none => absurd none some).symm
  | cons component path ih =>
      rw [forall_prefix_cons]
      simp only [ne_eq, reduceCtorEq, not_false_eq_true, or_true, true_and]
      cases component with
      | root =>
          simp only [StaysDown, Component.apply, false_iff, not_and]
          rintro ⟨suffix, notBase⟩
          exact absurd (List.suffix_nil.mp suffix).symm notBase
      | parent =>
          rcases above with _ | ⟨top, _ | ⟨next, above⟩⟩
          · have notBelow : ¬Below base base.tail := by
              rintro ⟨suffix, notBase⟩
              exact notBase (suffix.eq_of_length_le (by simp)).symm
            simp [StaysDown, Component.apply, notBelow]
          · simp [StaysDown, Component.apply, Below]
          · have below : Below base (next :: (above ++ base)) :=
              below_append (by simp : next :: above ≠ [])
            have rest := ih (next :: above)
            simpa [StaysDown, Component.apply, below] using rest
      | name part =>
          have below : Below base (part :: (above ++ base)) :=
            below_append (by simp : part :: above ≠ [])
          have rest := ih (part :: above)
          simpa [StaysDown, Component.apply, below] using rest

variable (base) in
theorem confined_iff_staysDown : Confined base path ↔ StaysDown 0 path := by
  have stays := staysDown_iff base [] path
  simpa [Confined] using stays.symm

end Confined

end Rustnzb.Lib
