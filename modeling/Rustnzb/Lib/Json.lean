import Mathlib.Data.List.Basic

/-!
# JSON documents

A document over numbers of any type. The first member of a name counts. A leaf is read and replaced
at a path of names, and what is replaced at one path is not seen at a path that leaves it.
-/

namespace Rustnzb.Lib

universe u

inductive Json (Number : Type u) where
  | null
  | bool (flag : Bool)
  | number (value : Number)
  | string (text : String)
  | array (items : List (Json Number))
  | object (members : List (String × Json Number))

namespace Json

variable {Number : Type u} {root child next value : Json Number} {name other : String}
  {members : List (String × Json Number)} {path path' : List String}

/-- Replace the member, or put it last. -/
def insertMember (name : String) (value : Json Number) :
    List (String × Json Number) → List (String × Json Number)
  | [] => [(name, value)]
  | member :: members =>
      if member.1 = name then (name, value) :: members
      else member :: insertMember name value members

theorem lookup_cons (first : String) (old : Json Number) :
    List.lookup other ((first, old) :: members) =
      if other = first then some old else members.lookup other := by
  by_cases same : other = first
  · simp [same]
  · rw [List.lookup_cons, beq_false_of_ne same, if_neg same]

theorem lookup_insertMember :
    (insertMember name value members).lookup other =
      if other = name then some value else members.lookup other := by
  induction members with
  | nil => exact lookup_cons name value
  | cons member members ih =>
      rcases member with ⟨first, old⟩
      unfold insertMember
      split
      next here =>
        dsimp only at here
        subst here
        rw [lookup_cons, lookup_cons]
        split <;> rfl
      next there =>
        rw [lookup_cons, lookup_cons, ih]
        by_cases here : other = first
        · subst here
          rw [if_pos rfl, if_pos rfl, if_neg there]
        · rw [if_neg here, if_neg here]

theorem mem_insertMember {member : String × Json Number}
    (mem : member ∈ insertMember name value members) : member.1 = name ∨ member ∈ members := by
  induction members with
  | nil =>
      rw [insertMember, List.mem_singleton] at mem
      exact .inl (congrArg Prod.fst mem)
  | cons first members ih =>
      unfold insertMember at mem
      split at mem
      · rcases List.mem_cons.mp mem with rfl | later
        · exact .inl rfl
        · exact .inr (List.mem_cons_of_mem _ later)
      · rcases List.mem_cons.mp mem with rfl | later
        · exact .inr List.mem_cons_self
        · exact (ih later).imp_right (List.mem_cons_of_mem _)

def get (name : String) : Json Number → Option (Json Number)
  | object members => members.lookup name
  | _ => none

def at? (root : Json Number) : List String → Option (Json Number)
  | [] => some root
  | name :: path => (root.get name).bind fun child => child.at? path

/-- Replace a leaf. Objects that are missing on the way are made. -/
def setLeaf (root : Json Number) : List String → Json Number → Option (Json Number)
  | [], _ => none
  | [name], value =>
      match root with
      | object members => some (object (insertMember name value members))
      | _ => none
  | name :: path, value =>
      match root with
      | object members =>
          (setLeaf ((members.lookup name).getD (object [])) path value).map fun child =>
            object (insertMember name child members)
      | _ => none

/-- The paths leave each other. -/
def Apart : List String → List String → Prop
  | name :: path, name' :: path' => name ≠ name' ∨ Apart path path'
  | _, _ => False

theorem setLeaf_cons (longer : path ≠ [])
    (replaced : root.setLeaf (name :: path) value = some next) :
    ∃ members child, root = object members ∧
      setLeaf ((members.lookup name).getD (object [])) path value = some child ∧
      next = object (insertMember name child members) := by
  rcases path with _ | ⟨second, path⟩
  · exact absurd rfl longer
  · rcases root with _ | _ | _ | _ | _ | members
    case object =>
      rw [setLeaf] at replaced
      · rcases Option.map_eq_some_iff.mp replaced with ⟨child, inner, rfl⟩
        exact ⟨members, child, rfl, inner, rfl⟩
      · simp
    all_goals simp [setLeaf] at replaced

theorem setLeaf_singleton (replaced : root.setLeaf [name] value = some next) :
    ∃ members, root = object members ∧ next = object (insertMember name value members) := by
  rcases root with _ | _ | _ | _ | _ | members
  case object =>
    cases replaced
    exact ⟨members, rfl, rfl⟩
  all_goals cases replaced

theorem at?_setLeaf (replaced : root.setLeaf path value = some next) :
    next.at? path = some value := by
  induction path generalizing root next with
  | nil => cases replaced
  | cons name path ih =>
      by_cases last : path = []
      · subst last
        rcases setLeaf_singleton replaced with ⟨members, rfl, rfl⟩
        simp [at?, get, lookup_insertMember]
      · rcases setLeaf_cons last replaced with ⟨members, child, rfl, inner, rfl⟩
        simp [at?, get, lookup_insertMember, ih inner]

theorem at?_object_nil (longer : path ≠ []) : (object [] : Json Number).at? path = none := by
  cases path with
  | nil => exact absurd rfl longer
  | cons name path => rfl

theorem Apart.ne_nil (apart : Apart path path') : path' ≠ [] := by
  rintro rfl
  cases path <;> cases apart

theorem at?_setLeaf_of_apart (replaced : root.setLeaf path value = some next)
    (apart : Apart path path') : next.at? path' = root.at? path' := by
  induction path generalizing root next path' with
  | nil => cases replaced
  | cons name path ih =>
      rcases path' with _ | ⟨name', path'⟩
      · cases apart
      · by_cases last : path = []
        · subst last
          rcases setLeaf_singleton replaced with ⟨members, rfl, rfl⟩
          have differs : name' ≠ name := (apart.resolve_right id).symm
          simp [at?, get, lookup_insertMember, differs]
        · rcases setLeaf_cons last replaced with ⟨members, child, rfl, inner, rfl⟩
          by_cases same : name' = name
          · subst same
            have deeper : Apart path path' := apart.resolve_left (fun differs => differs rfl)
            simp only [at?, get, lookup_insertMember, if_true, Option.bind_some]
            rw [ih inner deeper]
            cases members.lookup name' with
            | none => exact at?_object_nil deeper.ne_nil
            | some child => rfl
          · simp [at?, get, lookup_insertMember, same]

/-- The document is an object, and all its members are named. -/
def knownIn (names : List String) : Json Number → Bool
  | object members => members.all fun member => member.1 ∈ names
  | _ => false

theorem knownIn_insertMember {names : List String} (known : (object members).knownIn names = true)
    (isName : name ∈ names) : (object (insertMember name value members)).knownIn names = true := by
  simp only [knownIn, List.all_eq_true, decide_eq_true_eq] at known ⊢
  intro member mem
  rcases mem_insertMember mem with same | old
  · exact same ▸ isName
  · exact known member old

/-- The documents are the same up to the order of members. -/
inductive Same : Json Number → Json Number → Prop
  | leaf (value : Json Number) : Same value value
  | array {items items' : List (Json Number)} (each : List.Forall₂ Same items items') :
      Same (array items) (array items')
  | object {members members' : List (String × Json Number)}
      (named : ∀ name, (members.lookup name).isSome = (members'.lookup name).isSome)
      (each : ∀ name value value', members.lookup name = some value →
        members'.lookup name = some value' → Same value value') :
      Same (object members) (object members')

theorem knownIn_object_iff {names : List String} :
    (object members).knownIn names = true ↔
      ∀ name, (members.lookup name).isSome = true → name ∈ names := by
  induction members with
  | nil => simp [knownIn]
  | cons member members ih =>
      rcases member with ⟨first, value⟩
      simp only [knownIn, List.all_cons, Bool.and_eq_true, decide_eq_true_eq] at ih ⊢
      rw [ih]
      constructor
      · rintro ⟨known, later⟩ name found
        rw [lookup_cons] at found
        split at found
        next here => exact here ▸ known
        · exact later name found
      · intro each
        refine ⟨each first (by simp), fun name found => each name ?_⟩
        rw [lookup_cons]
        split
        · rfl
        · exact found

namespace Same

variable {first second : Json Number}

theorem symm (same : Same first second) : Same second first := by
  refine @Same.rec Number (fun first second _ => Same second first)
    (fun items items' _ => List.Forall₂ Same items' items) ?_ ?_ ?_ ?_ ?_ first second same
  · exact .leaf
  · exact fun _ => .array
  · intro members members' named _ each
    exact .object (fun name => (named name).symm) fun name value value' found found' =>
      each name value' value found' found
  · exact .nil
  · exact fun _ _ => .cons

theorem knownIn_eq (same : Same first second) (names : List String) :
    first.knownIn names = second.knownIn names := by
  cases same with
  | leaf => rfl
  | array => rfl
  | object named =>
      rw [Bool.eq_iff_iff, knownIn_object_iff, knownIn_object_iff]
      simp only [named]

theorem get (same : Same first second) (name : String) :
    Option.Rel Same (first.get name) (second.get name) := by
  cases same with
  | leaf =>
      cases first.get name with
      | none => exact .none
      | some value => exact .some (.leaf value)
  | array => exact .none
  | @object members members' named each =>
      have isNamed := named name
      rw [Json.get, Json.get]
      cases found : members.lookup name <;> cases found' : members'.lookup name
      · exact .none
      · rw [found, found'] at isNamed
        cases isNamed
      · rw [found, found'] at isNamed
        cases isNamed
      · exact .some (each name _ _ found found')

theorem at? (same : Same first second) (path : List String) :
    Option.Rel Same (first.at? path) (second.at? path) := by
  induction path generalizing first second with
  | nil => exact .some same
  | cons name path ih =>
      rw [Json.at?, Json.at?]
      have child := same.get name
      generalize first.get name = found, second.get name = found' at child
      cases child with
      | some inner => exact ih inner
      | none => exact .none

end Same

end Json

end Rustnzb.Lib
