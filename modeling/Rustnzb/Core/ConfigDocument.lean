import Rustnzb.Core.ConfigKeys

/-!
# One leaf of the configuration, replaced through its document

The way through the document replaces the leaf and nothing else, or it fails: when a path of the
configuration is not Unicode, when a number beside the leaf is not finite, or when the new value is
not one of the type of the leaf.
-/

namespace Rustnzb.Core.Config

open Lib

namespace AppConfig

variable {config : AppConfig} {key : Key} {owner : Section} {value : Json Number}

theorem lookup_filterMap {keys : List Key} {written : Key → Option (Json Number)}
    (distinct : (keys.map fun key => key.field.name).Nodup) (mem : key ∈ keys) :
    (keys.filterMap fun key => (written key).map (key.field.name, ·)).lookup key.field.name =
      written key := by
  induction keys with
  | nil => cases mem
  | cons first keys ih =>
      rw [List.map_cons, List.nodup_cons] at distinct
      rcases List.mem_cons.mp mem with rfl | later
      · cases isWritten : written key with
        | some value => simp [isWritten]
        | none =>
            rw [List.filterMap_cons_none (by rw [isWritten]; rfl), List.lookup_eq_none_iff]
            intro entry mem
            rcases List.mem_filterMap.mp mem with ⟨other, listed, isEntry⟩
            rcases Option.map_eq_some_iff.mp isEntry with ⟨value, -, rfl⟩
            have differs : key.field.name ≠ other.field.name := fun same =>
              distinct.1 (same ▸ List.mem_map_of_mem listed)
            simpa using differs
      · have differs : key.field.name ≠ first.field.name := fun same =>
          distinct.1 (same ▸ List.mem_map_of_mem later)
        cases isWritten : written first with
        | some value =>
            rw [List.filterMap_cons_some (by rw [isWritten]; rfl), Json.lookup_cons, if_neg differs]
            exact ih distinct.2 later
        | none =>
            rw [List.filterMap_cons_none (by rw [isWritten]; rfl)]
            exact ih distinct.2 later

theorem lookup_members (config : AppConfig) (mem : key ∈ Key.keys owner) :
    (config.members owner).lookup key.field.name =
      if config.present key then some (key.field.type.toValue (config key)) else none := by
  have asOptions : config.members owner = (Key.keys owner).filterMap fun key =>
      (if config.present key then some (key.field.type.toValue (config key)) else none).map
        (key.field.name, ·) := by
    rw [members, ← List.filterMap_eq_map, List.filterMap_filter]
    congr 1
    funext key
    split <;> rfl
  rw [asOptions]
  exact lookup_filterMap (Key.names_nodup owner) mem

/-- The objects of the sections, in the order of `AppConfig`. -/
def sectioned (members : Section → List (String × Json Number)) : List (String × Json Number) :=
  members .root ++ Section.nested.map fun owner => (owner.name, .object (members owner))

def FieldsOnly (members : Section → List (String × Json Number)) : Prop :=
  ∀ owner, ∀ entry ∈ members owner, ∃ key ∈ Key.keys owner, entry.1 = key.field.name

section Sectioned

variable {members : Section → List (String × Json Number)}

theorem lookup_sectioned_of_root (mem : key ∈ Key.keys .root) :
    (sectioned members).lookup key.field.name = (members .root).lookup key.field.name := by
  have noSection : (Section.nested.map fun owner =>
      (owner.name, Json.object (members owner))).lookup key.field.name = none := by
    rw [List.lookup_eq_none_iff]
    intro entry mem'
    rcases List.mem_map.mp mem' with ⟨owner, -, rfl⟩
    simpa using Key.root_name_ne owner key mem
  rw [sectioned, List.lookup_append, noSection, Option.or_none]

theorem lookup_sectioned_of_nested (fields : FieldsOnly members) (nested : owner ≠ .root) :
    (sectioned members).lookup owner.name = some (.object (members owner)) := by
  have noField : (members .root).lookup owner.name = none := by
    rw [List.lookup_eq_none_iff]
    intro entry mem
    rcases fields .root entry mem with ⟨key, isKey, same⟩
    rw [same]
    simpa using (Key.root_name_ne owner key isKey).symm
  rw [sectioned, List.lookup_append, noField, Option.none_or]
  cases owner
  case root => exact absurd rfl nested
  all_goals simp [Section.nested, Json.lookup_cons, Section.name]

theorem at?_sectioned (fields : FieldsOnly members) (key : Key) :
    (Json.object (sectioned members)).at? key.path =
      (members key.field.owner).lookup key.field.name := by
  by_cases isRoot : key.field.owner = .root
  · have mem : key ∈ Key.keys .root := isRoot ▸ key.mem_keys
    rw [Key.path_of_root isRoot, Json.at?, Json.get, lookup_sectioned_of_root mem, isRoot]
    cases (members .root).lookup key.field.name <;> rfl
  · rw [Key.path_of_nested isRoot, Json.at?, Json.get, lookup_sectioned_of_nested fields isRoot,
      Option.bind_some, Json.at?, Json.get]
    cases (members key.field.owner).lookup key.field.name <;> rfl

theorem knownIn_of_fieldsOnly (fields : FieldsOnly members) (owner : Section) :
    (Json.object (members owner)).knownIn ((Key.keys owner).map (·.field.name)) = true := by
  rw [Json.knownIn, List.all_eq_true]
  intro entry mem
  rcases fields owner entry mem with ⟨key, isKey, same⟩
  simpa [same] using ⟨key, isKey, rfl⟩

theorem knownIn_sectioned (fields : FieldsOnly members) :
    (Json.object (sectioned members)).knownIn
      ((Key.keys .root).map (·.field.name) ++ Section.nested.map Section.name) = true := by
  rw [Json.knownIn, List.all_eq_true]
  intro entry mem
  rw [decide_eq_true_eq, List.mem_append]
  rcases List.mem_append.mp mem with field | nested
  · rcases fields .root entry field with ⟨key, isKey, same⟩
    exact .inl (same ▸ List.mem_map_of_mem isKey)
  · rcases List.mem_map.mp nested with ⟨owner, isOwner, rfl⟩
    exact .inr (List.mem_map_of_mem isOwner)

end Sectioned

theorem fieldsOnly_members (config : AppConfig) : FieldsOnly config.members := by
  intro owner entry mem
  rcases List.mem_map.mp mem with ⟨key, isKey, rfl⟩
  exact ⟨key, List.mem_of_mem_filter isKey, rfl⟩

def allMembers (config : AppConfig) : List (String × Json Number) :=
  config.members .root ++
    Section.nested.map fun owner => (owner.name, .object (config.members owner))

theorem document_eq (config : AppConfig) : config.document = .object config.allMembers := rfl

theorem lookup_allMembers_of_nested (nested : owner ≠ .root) :
    config.allMembers.lookup owner.name = some (.object (config.members owner)) :=
  lookup_sectioned_of_nested config.fieldsOnly_members nested

theorem at?_document (config : AppConfig) (key : Key) :
    config.document.at? key.path =
      if config.present key then some (key.field.type.toValue (config key)) else none :=
  (at?_sectioned config.fieldsOnly_members key).trans (lookup_members config key.mem_keys)

theorem setLeaf_of_root (isRoot : key.field.owner = .root) :
    config.document.setLeaf key.path value =
      some (.object (Json.insertMember key.field.name value config.allMembers)) := by
  rw [Key.path_of_root isRoot]
  rfl

theorem setLeaf_of_nested (nested : key.field.owner ≠ .root) :
    config.document.setLeaf key.path value =
      some (.object (Json.insertMember key.field.owner.name
        (.object (Json.insertMember key.field.name value (config.members key.field.owner)))
        config.allMembers)) := by
  rw [Key.path_of_nested nested, document_eq, Json.setLeaf, lookup_allMembers_of_nested nested]
  · rfl
  · simp

theorem exists_setLeaf (config : AppConfig) (key : Key) (value : Json Number) :
    ∃ next, config.document.setLeaf key.path value = some next := by
  by_cases isRoot : key.field.owner = .root
  · exact ⟨_, setLeaf_of_root isRoot⟩
  · exact ⟨_, setLeaf_of_nested isRoot⟩

theorem wellFormed_object {members : List (String × Json Number)}
    (known : (Json.object members).knownIn
      ((Key.keys .root).map (·.field.name) ++ Section.nested.map Section.name) = true)
    (sections : ∀ owner ∈ Section.nested, ∃ fields,
      members.lookup owner.name = some (.object fields) ∧
        (Json.object fields).knownIn ((Key.keys owner).map (·.field.name)) = true) :
    wellFormed (.object members) = true := by
  rw [wellFormed, known, Bool.true_and, List.all_eq_true]
  intro owner isNested
  rcases sections owner isNested with ⟨fields, found, known⟩
  rw [Json.get, found]
  simp [known]

theorem Section.ne_root_of_mem {owner : Section} (mem : owner ∈ Section.nested) :
    owner ≠ .root := by
  rintro rfl
  revert mem
  decide

theorem Section.mem_nested {owner : Section} (nested : owner ≠ .root) : owner ∈ Section.nested := by
  cases owner
  case root => exact absurd rfl nested
  all_goals decide

theorem wellFormed_sectioned {members : Section → List (String × Json Number)}
    (fields : FieldsOnly members) : wellFormed (.object (sectioned members)) = true :=
  wellFormed_object (knownIn_sectioned fields) fun _ isNested =>
    ⟨_, lookup_sectioned_of_nested fields (Section.ne_root_of_mem isNested),
      knownIn_of_fieldsOnly fields _⟩

theorem wellFormed_setLeaf {next : Json Number}
    (replaced : config.document.setLeaf key.path value = some next) : wellFormed next = true := by
  by_cases isRoot : key.field.owner = .root
  · have mem : key ∈ Key.keys .root := isRoot ▸ key.mem_keys
    rw [setLeaf_of_root isRoot] at replaced
    cases replaced
    apply wellFormed_object
    · exact Json.knownIn_insertMember (knownIn_sectioned config.fieldsOnly_members)
        (List.mem_append_left _ (List.mem_map_of_mem mem))
    · intro owner isNested
      refine ⟨config.members owner, ?_, knownIn_of_fieldsOnly config.fieldsOnly_members owner⟩
      rw [Json.lookup_insertMember, if_neg (Key.root_name_ne owner key mem).symm,
        lookup_allMembers_of_nested (Section.ne_root_of_mem isNested)]
  · rw [setLeaf_of_nested isRoot] at replaced
    cases replaced
    apply wellFormed_object
    · exact Json.knownIn_insertMember (knownIn_sectioned config.fieldsOnly_members)
        (List.mem_append_right _ (List.mem_map_of_mem (Section.mem_nested isRoot)))
    · intro owner isNested
      by_cases same : owner = key.field.owner
      · subst same
        refine ⟨_, by rw [Json.lookup_insertMember, if_pos rfl], ?_⟩
        exact Json.knownIn_insertMember (knownIn_of_fieldsOnly config.fieldsOnly_members _)
          (List.mem_map_of_mem key.mem_keys)
      · refine ⟨config.members owner, ?_, knownIn_of_fieldsOnly config.fieldsOnly_members owner⟩
        rw [Json.lookup_insertMember, if_neg (fun equal => same (Section.eq_of_name_eq equal)),
          lookup_allMembers_of_nested (Section.ne_root_of_mem isNested)]

theorem fromValue_eq_some {document : Json Number} (shape : wellFormed document = true)
    (reads : ∀ key, readField document key = some (config key)) :
    fromValue document = some config := by
  have all : wellFormed document = true ∧ ∀ key ∈ Key.all, (readField document key).isSome :=
    ⟨shape, fun key _ => Option.isSome_of_eq_some (reads key)⟩
  rw [fromValue, dif_pos all]
  congr 1
  funext key
  exact Option.get_of_eq_some _ (reads key)

theorem fromValue_eq_none {document : Json Number} (unread : readField document key = none) :
    fromValue document = none := by
  rw [fromValue, dif_neg]
  intro all
  have found := all.2 key key.mem_all
  rw [unread] at found
  cases found

theorem eq_of_skipNone (skip : key.field.skipNone = true) : key = .logLevelBeforeDebug := by
  cases key <;> first | rfl | cases skip

theorem present_of_ne (differs : key ≠ .logLevelBeforeDebug) : config.present key = true := by
  have written : key.field.skipNone = false := by
    by_contra skip
    exact differs (eq_of_skipNone (Bool.of_not_eq_false skip))
  simp [present, written]

theorem missing_of_absent (absent : config.present key = false) :
    key.field.missing = config key := by
  rw [present, Bool.not_eq_false', Bool.and_eq_true] at absent
  rcases absent with ⟨skip, isNone⟩
  have same := eq_of_skipNone skip
  subst same
  exact (Option.isNone_iff_eq_none.mp isNone).symm

theorem readField_document (config : AppConfig) (key : Key)
    (writable : key.field.type.writable (config key) = true)
    (readable : key.field.type.readable (config key) = true) :
    readField config.document key = some (config key) := by
  rw [readField, at?_document]
  cases isPresent : config.present key with
  | true =>
      simp only [if_true]
      exact key.field.type.fromValue_toValue _ writable readable
  | false =>
      simp only [Bool.false_eq_true, if_false]
      rw [missing_of_absent isPresent]

theorem readField_document_eq_none (config : AppConfig) (key : Key)
    (isPresent : config.present key = true)
    (unreadable : key.field.type.readable (config key) = false) :
    readField config.document key = none := by
  rw [readField, at?_document, if_pos isPresent]
  exact key.field.type.fromValue_toValue_eq_none _ unreadable

theorem readField_setLeaf_self {next : Json Number}
    (replaced : config.document.setLeaf key.path value = some next) :
    readField next key = key.field.type.fromValue value := by
  rw [readField, Json.at?_setLeaf replaced]

theorem readField_setLeaf_of_ne {next : Json Number} {other : Key} (differs : key ≠ other)
    (replaced : config.document.setLeaf key.path value = some next) :
    readField next other = readField config.document other := by
  rw [readField, readField, Json.at?_setLeaf_of_apart replaced (Key.apart differs)]

def applyJsonLeaf (config : AppConfig) (key : Key) (value : Json Number) : AppConfig :=
  match config.toValue with
  | none => config
  | some document =>
      match document.setLeaf key.path value with
      | none => config
      | some document => (fromValue document).getD config

def copyJsonLeaf (next file : AppConfig) (key : Key) : AppConfig :=
  match file.toValue with
  | none => next
  | some document =>
      match document.at? key.path with
      | none => next
      | some value => next.applyJsonLeaf key value

def finite (config : AppConfig) : Bool := F64.isFinite (config .requiredCompletionPct)

/-- What stands beside the leaf goes through the document. -/
def Carries (config : AppConfig) (key : Key) : Prop :=
  config.writable = true ∧ (key = .requiredCompletionPct ∨ config.finite = true)

theorem readable_of_ne (differs : key ≠ .requiredCompletionPct) (value : key.Value) :
    key.field.type.readable value = true := by
  cases key <;> first | rfl | exact absurd rfl differs

theorem writable_at (writable : config.writable = true) (key : Key) :
    key.field.type.writable (config key) = true :=
  List.all_eq_true.mp writable key key.mem_all

theorem applyJsonLeaf_eq_update {new : key.Value} (carries : config.Carries key)
    (reads : key.field.type.fromValue value = some new) :
    config.applyJsonLeaf key value = config.set key new := by
  rcases exists_setLeaf config key value with ⟨next, replaced⟩
  have back : fromValue next = some (config.set key new) := by
    apply fromValue_eq_some (wellFormed_setLeaf replaced)
    intro other
    by_cases same : key = other
    · subst same
      rw [readField_setLeaf_self replaced, reads, set_self]
    · rw [readField_setLeaf_of_ne same replaced, set_of_ne (Ne.symm same)]
      apply readField_document config other (writable_at carries.1 other)
      by_cases isNumber : other = .requiredCompletionPct
      · subst isNumber
        exact carries.2.resolve_left same
      · exact readable_of_ne isNumber _
  rw [applyJsonLeaf, toValue, if_pos carries.1]
  simp only [replaced, back, Option.getD_some]

theorem applyJsonLeaf_eq_self_of_not_carries (fails : ¬config.Carries key) :
    config.applyJsonLeaf key value = config := by
  rw [applyJsonLeaf, toValue]
  by_cases writable : config.writable = true
  · rcases exists_setLeaf config key value with ⟨next, replaced⟩
    have differs : key ≠ .requiredCompletionPct := fun same => fails ⟨writable, .inl same⟩
    have notFinite : config.finite = false := by
      by_contra finite
      exact fails ⟨writable, .inr (Bool.of_not_eq_false finite)⟩
    have unread : readField next .requiredCompletionPct = none := by
      rw [readField_setLeaf_of_ne differs replaced]
      exact readField_document_eq_none config _ (present_of_ne (by decide)) notFinite
    rw [if_pos writable]
    simp only [replaced, fromValue_eq_none unread, Option.getD_none]
  · rw [if_neg writable]

theorem applyJsonLeaf_eq_self_of_unread (unread : key.field.type.fromValue value = none) :
    config.applyJsonLeaf key value = config := by
  rw [applyJsonLeaf, toValue]
  by_cases writable : config.writable = true
  · rcases exists_setLeaf config key value with ⟨next, replaced⟩
    have lost : readField next key = none := by rw [readField_setLeaf_self replaced, unread]
    rw [if_pos writable]
    simp only [replaced, fromValue_eq_none lost, Option.getD_none]
  · rw [if_neg writable]

def Offers (file : AppConfig) (key : Key) : Prop :=
  file.writable = true ∧ file.present key = true ∧
    (key = .requiredCompletionPct → file.finite = true)

theorem copyJsonLeaf_eq_update {next file : AppConfig} (offers : file.Offers key)
    (carries : next.Carries key) : next.copyJsonLeaf file key = next.set key (file key) := by
  rw [copyJsonLeaf, toValue, if_pos offers.1]
  simp only [at?_document, offers.2.1, if_true]
  apply applyJsonLeaf_eq_update carries
  apply key.field.type.fromValue_toValue _ (writable_at offers.1 key)
  by_cases isNumber : key = .requiredCompletionPct
  · subst isNumber
    exact offers.2.2 rfl
  · exact readable_of_ne isNumber _

theorem copyJsonLeaf_eq_self {next file : AppConfig}
    (fails : ¬(file.Offers key ∧ next.Carries key)) :
    next.copyJsonLeaf file key = next := by
  rw [copyJsonLeaf, toValue]
  by_cases writable : file.writable = true
  · rw [if_pos writable]
    simp only [at?_document]
    cases isPresent : file.present key with
    | false => simp
    | true =>
        simp only [if_true]
        by_cases carries : next.Carries key
        · apply applyJsonLeaf_eq_self_of_unread
          have notOffered : ¬file.Offers key := fun offers => fails ⟨offers, carries⟩
          by_cases isNumber : key = .requiredCompletionPct
          · subst isNumber
            apply FieldType.fromValue_toValue_eq_none
            by_contra finite
            exact notOffered ⟨writable, isPresent, fun _ => Bool.of_not_eq_false finite⟩
          · exact absurd ⟨writable, isPresent, fun same => absurd same isNumber⟩ notOffered
        · exact applyJsonLeaf_eq_self_of_not_carries carries
  · rw [if_neg writable]

end AppConfig

end Rustnzb.Core.Config
