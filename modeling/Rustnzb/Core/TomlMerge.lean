import Rustnzb.Lib.Json

/-!
# Merging a document into the one that is there

The documents of `toml_edit`, with the format they are written in, and `merge_table`. The merged
document has the layout of the old one and says what the new one says.
-/

namespace Rustnzb.Core.Toml

open Lib

structure Key (Format : Type) where
  name : String
  format : Option Format

/-- `toml_edit::Item`. A value without what stands around it is a `Bare`. -/
inductive Item (Bare Format : Type) where
  | value (decor : Format) (bare : Bare)
  | table (format : Format) (entries : List (Key Format × Item Bare Format))
  | tables (elements : List (Item Bare Format))

abbrev Entry (Bare Format : Type) : Type := Key Format × Item Bare Format

structure Document (Bare Format : Type) where
  trailing : Format
  entries : List (Entry Bare Format)

variable {Bare Format Number : Type}

section Merge

def named (name : String) (entries : List (Entry Bare Format)) : Option (Item Bare Format) :=
  (entries.find? fun entry => entry.1.name = name).map Prod.snd

def mergeEntry (merge : Item Bare Format → Item Bare Format) (name : String)
    (new : Item Bare Format) : List (Entry Bare Format) → List (Entry Bare Format)
  | [] => [(⟨name, none⟩, new)]
  | (key, item) :: entries =>
      if key.name = name then (key, merge item) :: entries
      else (key, item) :: mergeEntry merge name new entries

def dropStale (existing new : List (Entry Bare Format)) : List (Entry Bare Format) :=
  existing.filter fun entry => (named entry.1.name new).isSome

mutual

def mergeItem (text : Bare → String) (existing : Item Bare Format) :
    Item Bare Format → Item Bare Format
  | .value fresh new =>
      match existing with
      -- An unchanged value keeps the user's formatting around it.
      | .value decor old => .value decor (if text old ≠ text new then new else old)
      | _ => .value fresh new
  | .table fresh new =>
      match existing with
      | .table format old => .table format (mergeEntries text (dropStale old new) new)
      | _ => .table fresh new
  | .tables new =>
      match existing with
      | .tables old =>
          if old.length = new.length then .tables (mergeElements text old new) else .tables new
      | _ => .tables new

def mergeEntries (text : Bare → String) (existing : List (Entry Bare Format)) :
    List (Entry Bare Format) → List (Entry Bare Format)
  | [] => existing
  | (key, new) :: entries =>
      mergeEntries text
        (mergeEntry (fun old => mergeItem text old new) key.name new existing) entries

def mergeElements (text : Bare → String) (existing : List (Item Bare Format)) :
    List (Item Bare Format) → List (Item Bare Format)
  | [] => []
  | new :: later =>
      match existing with
      | [] => []
      | old :: existing => mergeItem text old new :: mergeElements text existing later

end

def mergeTable (text : Bare → String) (existing new : List (Entry Bare Format)) :
    List (Entry Bare Format) :=
  mergeEntries text (dropStale existing new) new

variable {text : Bare → String} {decor fresh format : Format} {old new : Bare}
  {existing entries : List (Entry Bare Format)} {elements elements' : List (Item Bare Format)}

theorem mergeItem_value : mergeItem text (.value decor old) (.value fresh new) =
    .value decor (if text old ≠ text new then new else old) := rfl

theorem mergeItem_table : mergeItem text (.table format existing) (.table fresh entries) =
    .table format (mergeTable text existing entries) := rfl

theorem mergeItem_tables : mergeItem text (.tables elements) (.tables elements') =
    if elements.length = elements'.length then .tables (mergeElements text elements elements')
    else .tables elements' := rfl

end Merge

mutual

def Item.data (read : Bare → Json Number) : Item Bare Format → Json Number
  | .value _ bare => read bare
  | .table _ entries => .object (members read entries)
  | .tables elements => .array (elementData read elements)

def members (read : Bare → Json Number) :
    List (Entry Bare Format) → List (String × Json Number)
  | [] => []
  | (key, item) :: entries => (key.name, item.data read) :: members read entries

def elementData (read : Bare → Json Number) : List (Item Bare Format) → List (Json Number)
  | [] => []
  | element :: elements => element.data read :: elementData read elements

end

def Document.data (read : Bare → Json Number) (document : Document Bare Format) : Json Number :=
  .object (members read document.entries)

/-- The keys of a table differ, and the elements of an array of tables are tables. -/
inductive Item.WellFormed : Item Bare Format → Prop
  | value (decor : Format) (bare : Bare) : WellFormed (.value decor bare)
  | table {format : Format} {entries : List (Entry Bare Format)}
      (distinct : (entries.map fun entry => entry.1.name).Nodup)
      (each : ∀ entry ∈ entries, WellFormed entry.2) : WellFormed (.table format entries)
  | tables {elements : List (Item Bare Format)}
      (isTable : ∀ element ∈ elements, ∃ format entries, element = .table format entries)
      (each : ∀ element ∈ elements, WellFormed element) : WellFormed (.tables elements)

def Document.WellFormed (document : Document Bare Format) : Prop :=
  (Item.table document.trailing document.entries).WellFormed

variable {text : Bare → String} {read : Bare → Json Number} {name other : String}
  {existing entries : List (Entry Bare Format)} {item new : Item Bare Format}
  {merge : Item Bare Format → Item Bare Format}

theorem named_cons (key : Key Format) (item : Item Bare Format) :
    named name ((key, item) :: entries) =
      if key.name = name then some item else named name entries := by
  unfold named
  by_cases same : key.name = name
  · rw [List.find?_cons_of_pos (by simpa using same), if_pos same]
    rfl
  · rw [List.find?_cons_of_neg (by simpa using same), if_neg same]

theorem named_eq_none_iff :
    named name entries = none ↔ name ∉ entries.map fun entry => entry.1.name := by
  simp [named]

theorem exists_mem_of_named (found : named name entries = some item) :
    ∃ entry ∈ entries, entry.1.name = name ∧ entry.2 = item := by
  rcases Option.map_eq_some_iff.mp found with ⟨entry, isFound, rfl⟩
  exact ⟨entry, List.mem_of_find?_eq_some isFound, by simpa using List.find?_some isFound, rfl⟩

theorem lookup_members :
    (members read entries).lookup name = (named name entries).map (·.data read) := by
  induction entries with
  | nil => rfl
  | cons entry entries ih =>
      rcases entry with ⟨key, item⟩
      rw [members, Json.lookup_cons, named_cons, ih]
      by_cases same : key.name = name
      · rw [if_pos same.symm, if_pos same]
        rfl
      · rw [if_neg (Ne.symm same), if_neg same]

theorem named_mergeEntry :
    named other (mergeEntry merge name new existing) =
      if name = other then some ((named name existing).elim new merge)
      else named other existing := by
  induction existing with
  | nil => exact named_cons ⟨name, none⟩ new
  | cons entry existing ih =>
      rcases entry with ⟨key, item⟩
      rw [mergeEntry, named_cons]
      split
      next here =>
        subst here
        rw [named_cons, named_cons]
        split <;> rfl
      next there =>
        rw [named_cons, named_cons, ih]
        by_cases same : name = other
        · subst same
          rw [if_neg there, if_neg there]
        · rw [if_neg same, if_neg same]

theorem named_mergeEntries (distinct : (entries.map fun entry => entry.1.name).Nodup) :
    named name (mergeEntries text existing entries) =
      match named name entries with
      | none => named name existing
      | some new => some ((named name existing).elim new fun old => mergeItem text old new) := by
  induction entries generalizing existing with
  | nil => rfl
  | cons entry entries ih =>
      rcases entry with ⟨key, new⟩
      rw [List.map_cons, List.nodup_cons] at distinct
      rw [mergeEntries, ih distinct.2, named_cons]
      by_cases same : key.name = name
      · subst same
        rw [named_eq_none_iff.mpr distinct.1, named_mergeEntry, if_pos rfl, if_pos rfl]
      · rw [named_mergeEntry, if_neg same, if_neg same]

theorem named_dropStale (isNew : (named name entries).isSome = true) :
    named name (dropStale existing entries) = named name existing := by
  induction existing with
  | nil => rfl
  | cons entry existing ih =>
      rcases entry with ⟨key, item⟩
      unfold dropStale at ih ⊢
      by_cases stays : (named key.name entries).isSome = true
      · simp only [List.filter_cons, stays, if_true]
        rw [named_cons, named_cons, ih]
      · have differs : key.name ≠ name := by
          rintro rfl
          exact stays isNew
        simp only [List.filter_cons, stays]
        rw [named_cons, if_neg differs]
        exact ih

theorem named_dropStale_eq_none (isStale : named name entries = none) :
    named name (dropStale existing entries) = none := by
  rw [named_eq_none_iff]
  intro mem
  rcases List.mem_map.mp mem with ⟨entry, isEntry, rfl⟩
  have isNew := (List.mem_filter.mp isEntry).2
  rw [isStale] at isNew
  cases isNew

theorem named_mergeTable (distinct : (entries.map fun entry => entry.1.name).Nodup) :
    named name (mergeTable text existing entries) =
      (named name entries).map fun new =>
        (named name existing).elim new fun old => mergeItem text old new := by
  rw [mergeTable, named_mergeEntries distinct]
  cases isNew : named name entries with
  | none => exact named_dropStale_eq_none isNew
  | some new =>
      dsimp only
      rw [named_dropStale (by rw [isNew]; rfl)]
      rfl

theorem same_members (distinct : (entries.map fun entry => entry.1.name).Nodup)
    (each : ∀ entry ∈ entries, ∀ old : Item Bare Format,
      Json.Same ((mergeItem text old entry.2).data read) (entry.2.data read)) :
    Json.Same (.object (members read (mergeTable text existing entries)))
      (.object (members read entries)) := by
  refine .object (fun name => ?_) fun name value value' found found' => ?_
  · rw [lookup_members, lookup_members, named_mergeTable distinct]
    cases named name entries <;> rfl
  · rw [lookup_members, named_mergeTable distinct] at found
    rw [lookup_members] at found'
    rcases Option.map_eq_some_iff.mp found' with ⟨new, isNew, rfl⟩
    rw [isNew] at found
    cases found
    rcases exists_mem_of_named isNew with ⟨entry, mem, -, rfl⟩
    cases named name existing with
    | none => exact .leaf _
    | some old => exact each entry mem old

theorem same_elements {old elements : List (Item Bare Format)}
    (asMany : old.length = elements.length) (each : ∀ element ∈ elements, ∀ old : Item Bare Format,
      Json.Same ((mergeItem text old element).data read) (element.data read)) :
    List.Forall₂ Json.Same (elementData read (mergeElements text old elements))
      (elementData read elements) := by
  induction elements generalizing old with
  | nil => exact .nil
  | cons element elements ih =>
      rcases old with _ | ⟨first, old⟩
      · cases asMany
      · rw [mergeElements, elementData, elementData]
        refine .cons (each element List.mem_cons_self first) ?_
        exact ih (Nat.succ.inj asMany) fun other mem => each other (List.mem_cons_of_mem _ mem)

theorem same_mergeItem (readsText : ∀ old new, text old = text new → read old = read new)
    (wellFormed : new.WellFormed) (old : Item Bare Format) :
    Json.Same ((mergeItem text old new).data read) (new.data read) := by
  induction wellFormed generalizing old with
  | value decor bare =>
      cases old with
      | value decor old =>
          rw [mergeItem_value]
          by_cases unchanged : text old = text bare
          · rw [if_neg (not_not.mpr unchanged), Item.data, Item.data, readsText old bare unchanged]
            exact .leaf _
          · rw [if_pos unchanged]
            exact .leaf _
      | table | tables => exact .leaf _
  | table distinct _ ih =>
      cases old with
      | table format old =>
          rw [mergeItem_table]
          exact same_members distinct ih
      | value | tables => exact .leaf _
  | tables _ _ ih =>
      cases old with
      | tables old =>
          rw [mergeItem_tables]
          split
          next asMany => exact .array (same_elements asMany ih)
          · exact .leaf _
      | value | table => exact .leaf _

theorem same_mergeTable (readsText : ∀ old new, text old = text new → read old = read new)
    (old : Document Bare Format) {new : Document Bare Format} (wellFormed : new.WellFormed) :
    Json.Same (.object (members read (mergeTable text old.entries new.entries))) (new.data read) :=
  same_mergeItem readsText wellFormed (.table old.trailing old.entries)

theorem names_mergeEntry : ((mergeEntry merge name new existing).map fun entry => entry.1.name) =
    if name ∈ existing.map fun entry => entry.1.name then existing.map fun entry => entry.1.name
    else (existing.map fun entry => entry.1.name) ++ [name] := by
  induction existing with
  | nil => rfl
  | cons entry existing ih =>
      rcases entry with ⟨key, item⟩
      rw [mergeEntry]
      by_cases here : key.name = name
      · simp [here]
      · rw [if_neg here, List.map_cons, ih]
        simp only [List.map_cons, List.mem_cons, Ne.symm here, false_or]
        split <;> rfl

theorem nodup_mergeEntry (distinct : (existing.map fun entry => entry.1.name).Nodup) :
    ((mergeEntry merge name new existing).map fun entry => entry.1.name).Nodup := by
  rw [names_mergeEntry]
  split
  · exact distinct
  next fresh =>
    rw [List.nodup_append]
    refine ⟨distinct, by simp, ?_⟩
    intro key isKey last isLast
    rw [List.mem_singleton.mp isLast]
    rintro rfl
    exact fresh isKey

theorem wellFormed_mergeEntry (kept : ∀ entry ∈ existing, entry.2.WellFormed)
    (isNew : new.WellFormed)
    (merged : ∀ old : Item Bare Format, old.WellFormed → (merge old).WellFormed) :
    ∀ entry ∈ mergeEntry merge name new existing, entry.2.WellFormed := by
  induction existing with
  | nil =>
      intro entry mem
      rw [mergeEntry, List.mem_singleton] at mem
      rw [mem]
      exact isNew
  | cons first existing ih =>
      rcases first with ⟨key, item⟩
      have first := kept (key, item) List.mem_cons_self
      have rest : ∀ entry ∈ existing, entry.2.WellFormed := fun entry mem =>
        kept entry (List.mem_cons_of_mem _ mem)
      intro entry mem
      rw [mergeEntry] at mem
      split at mem <;> rcases List.mem_cons.mp mem with rfl | later
      · exact merged item first
      · exact rest entry later
      · exact first
      · exact ih rest entry later

def Tabular (entries : List (Entry Bare Format)) : Prop :=
  (entries.map fun entry => entry.1.name).Nodup ∧ ∀ entry ∈ entries, entry.2.WellFormed

theorem tabular_mergeEntries (tabular : Tabular existing)
    (wellFormed : ∀ entry ∈ entries, entry.2.WellFormed)
    (merged : ∀ entry ∈ entries, ∀ old : Item Bare Format, old.WellFormed →
      (mergeItem text old entry.2).WellFormed) : Tabular (mergeEntries text existing entries) := by
  induction entries generalizing existing with
  | nil => exact tabular
  | cons entry entries ih =>
      rcases entry with ⟨key, new⟩
      rw [mergeEntries]
      apply ih
      · refine ⟨nodup_mergeEntry tabular.1, ?_⟩
        exact wellFormed_mergeEntry tabular.2 (wellFormed (key, new) List.mem_cons_self)
          (merged (key, new) List.mem_cons_self)
      · exact fun entry mem => wellFormed entry (List.mem_cons_of_mem _ mem)
      · exact fun entry mem => merged entry (List.mem_cons_of_mem _ mem)

theorem tabular_mergeTable (tabular : Tabular existing)
    (wellFormed : ∀ entry ∈ entries, entry.2.WellFormed)
    (merged : ∀ entry ∈ entries, ∀ old : Item Bare Format, old.WellFormed →
      (mergeItem text old entry.2).WellFormed) : Tabular (mergeTable text existing entries) := by
  refine tabular_mergeEntries ⟨?_, fun entry mem => ?_⟩ wellFormed merged
  · exact tabular.1.sublist (List.filter_sublist.map _)
  · exact tabular.2 entry (List.mem_of_mem_filter mem)

theorem mergeElements_wellFormed {old elements : List (Item Bare Format)}
    (wellFormed : ∀ element ∈ old, element.WellFormed)
    (isTable : ∀ element ∈ elements, ∃ format entries, element = .table format entries)
    (merged : ∀ element ∈ elements, ∀ old : Item Bare Format, old.WellFormed →
      (mergeItem text old element).WellFormed) :
    ∀ element ∈ mergeElements text old elements,
      (∃ format entries, element = .table format entries) ∧ element.WellFormed := by
  induction elements generalizing old with
  | nil => intro element mem; cases mem
  | cons new elements ih =>
      rcases old with _ | ⟨first, old⟩
      · intro element mem
        cases mem
      · intro element mem
        rw [mergeElements, List.mem_cons] at mem
        rcases mem with rfl | later
        · refine ⟨?_, merged new List.mem_cons_self first (wellFormed first List.mem_cons_self)⟩
          rcases isTable new List.mem_cons_self with ⟨fresh, entries, rfl⟩
          cases first with
          | table format old => exact ⟨format, _, rfl⟩
          | value | tables => exact ⟨fresh, _, rfl⟩
        · exact ih (fun element mem => wellFormed element (List.mem_cons_of_mem _ mem))
            (fun element mem => isTable element (List.mem_cons_of_mem _ mem))
            (fun element mem => merged element (List.mem_cons_of_mem _ mem)) element later

theorem wellFormed_mergeItem (wellFormed : new.WellFormed) (old : Item Bare Format)
    (wasWellFormed : old.WellFormed) : (mergeItem text old new).WellFormed := by
  induction wellFormed generalizing old with
  | value decor bare =>
      cases old with
      | value | table | tables => exact .value _ _
  | table distinct each ih =>
      cases wasWellFormed with
      | table distinct' each' =>
          rw [mergeItem_table]
          have tabular := tabular_mergeTable ⟨distinct', each'⟩ each ih
          exact .table tabular.1 tabular.2
      | value | tables => exact .table distinct each
  | tables isTable each ih =>
      cases wasWellFormed with
      | tables _ each' =>
          rw [mergeItem_tables]
          split
          · have merged := mergeElements_wellFormed each' isTable ih
            exact .tables (fun element mem => (merged element mem).1)
              fun element mem => (merged element mem).2
          · exact .tables isTable each
      | value | table => exact .tables isTable each

theorem wellFormed_mergeTable {old new : Document Bare Format} (wellFormed : new.WellFormed)
    (wasWellFormed : old.WellFormed) :
    Document.WellFormed ⟨old.trailing, mergeTable text old.entries new.entries⟩ :=
  wellFormed_mergeItem wellFormed (.table old.trailing old.entries) wasWellFormed

end Rustnzb.Core.Toml
