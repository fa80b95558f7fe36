import Mathlib.Algebra.Order.BigOperators.Group.List
import Mathlib.Algebra.Order.Ring.Nat
import Mathlib.Data.List.AList

/-!
# Registries

A registry keeps a value under each of its keys. One value is changed at a time, or all of them at
once, and the values that meet a predicate are counted: the census. The total sums a measure of
the values.
-/

namespace Rustnzb.Lib

universe u v w

abbrev Registry (Key : Type u) (Value : Type v) := AList fun _ : Key => Value

namespace Registry

variable {Key : Type u} {Value : Type v} {Other : Type w} [DecidableEq Key]
  {registry : Registry Key Value} {key other : Key} {old new : Value}

def modify (registry : Registry Key Value) (key : Key) (change : Value → Value) :
    Registry Key Value :=
  match registry.lookup key with
  | some value => registry.insert key (change value)
  | none => registry

omit [DecidableEq Key] in
theorem keys_map_entries (change : Key → Value → Other)
    (entries : List (Sigma fun _ : Key => Value)) :
    (entries.map fun entry =>
      (⟨entry.1, change entry.1 entry.2⟩ : Sigma fun _ : Key => Other)).keys =
      entries.keys := by
  simp [List.keys, Function.comp_def]

def mapValues (change : Key → Value → Other) (registry : Registry Key Value) : Registry Key Other :=
  ⟨registry.entries.map fun entry => ⟨entry.1, change entry.1 entry.2⟩, by
    rw [List.NodupKeys, keys_map_entries]
    exact registry.nodupKeys⟩

/-- Drop what does not meet the predicate. -/
def retain (registry : Registry Key Value) (keep : Key → Value → Bool) : Registry Key Value :=
  ⟨registry.entries.filter fun entry => keep entry.1 entry.2,
    List.NodupKeys.sublist List.filter_sublist registry.nodupKeys⟩

/-- How many values meet the predicate. -/
def census (registry : Registry Key Value) (meets : Value → Bool) : ℕ :=
  registry.entries.countP fun entry => meets entry.2

theorem lookup_modify (change : Value → Value) :
    (registry.modify key change).lookup other =
      if other = key then (registry.lookup other).map change else registry.lookup other := by
  rw [modify]
  split
  next value found =>
    by_cases same : other = key
    · subst same
      simp [found]
    · simp [same]
  next absent =>
    by_cases same : other = key
    · subst same
      simp [absent]
    · simp [same]

@[simp]
theorem mem_modify (change : Value → Value) :
    other ∈ registry.modify key change ↔ other ∈ registry := by
  rw [← AList.lookup_isSome, ← AList.lookup_isSome, lookup_modify]
  split <;> simp

theorem lookup_mapValues (change : Key → Value → Other) :
    (registry.mapValues change).lookup key = (registry.lookup key).map (change key) := by
  rw [mapValues, AList.lookup, AList.lookup]
  rcases registry with ⟨entries, apart⟩
  dsimp only
  clear apart
  induction entries with
  | nil => rfl
  | cons entry entries ih =>
      by_cases same : key = entry.1
      · subst same
        rw [List.map_cons, List.dlookup_cons_eq, List.dlookup_cons_eq]
        rfl
      · rw [List.map_cons, List.dlookup_cons_ne entries entry same,
          List.dlookup_cons_ne _
            (⟨entry.1, change entry.1 entry.2⟩ : Sigma fun _ : Key => Other) same]
        exact ih

theorem lookup_retain (keep : Key → Value → Bool) :
    (registry.retain keep).lookup key = (registry.lookup key).filter (keep key) := by
  ext value
  rw [← Option.mem_def, ← Option.mem_def, AList.mem_lookup_iff, Option.mem_filter_iff,
    AList.mem_lookup_iff]
  exact List.mem_filter

theorem lookup_of_lookup_erase {value : Value}
    (found : AList.lookup other (registry.erase key) = some value) :
    registry.lookup other = some value := by
  by_cases same : other = key
  · subst same
    simp at found
  · rwa [AList.lookup_erase_ne same] at found

theorem census_erase (meets : Value → Bool) (found : registry.lookup key = some old) :
    census (registry.erase key) meets + (meets old).toNat = registry.census meets := by
  have mem : key ∈ registry.entries.keys := List.dlookup_isSome.mp (Option.isSome_of_mem found)
  rcases List.exists_of_kerase mem with ⟨value, before, after, fresh, split, erased⟩
  have same : value = old := by
    rw [AList.lookup, split, List.dlookup_append, List.dlookup_eq_none.mpr fresh,
      Option.none_or, List.dlookup_cons_eq] at found
    exact Option.some_inj.mp found
  subst same
  have rest : census (registry.erase key) meets =
      (before ++ after).countP fun entry => meets entry.2 := by
    rw [← erased]
    rfl
  rw [rest, census, split, List.countP_append, List.countP_append, List.countP_cons]
  rcases meets value with _ | _
  · rfl
  · simp only [Bool.toNat_true, if_true]
    omega

theorem census_insert (meets : Value → Bool) :
    census (registry.insert key new) meets = census
      (registry.erase key) meets + (meets new).toNat := by
  have inserted : (registry.insert key new).entries = ⟨key, new⟩ :: (registry.erase key).entries :=
    rfl
  rw [census, inserted, List.countP_cons, census]
  rcases meets new with _ | _
  · rfl
  · rfl

/-- What a change of one value does to the census. -/
theorem census_modify (meets : Value → Bool) (change : Value → Value)
    (found : registry.lookup key = some old) :
    (registry.modify key change).census meets + (meets old).toNat =
      registry.census meets + (meets (change old)).toNat := by
  have erased := census_erase meets found
  rw [modify, found]
  dsimp only
  rw [census_insert]
  omega

omit [DecidableEq Key] in
theorem exists_of_census_pos (meets : Value → Bool) (some : 0 < registry.census meets) :
    ∃ entry ∈ registry.entries, meets entry.2 = true :=
  List.countP_pos_iff.mp some

/-- A census is at most another one when its keys are among those of the other. -/
theorem census_le_census {others : Registry Key Other} {meets : Value → Bool}
    {counts : Other → Bool}
    (among : ∀ key value, registry.lookup key = some value → meets value = true →
      ∃ other, others.lookup key = some other ∧ counts other = true) :
    registry.census meets ≤ others.census counts := by
  have apart : ((registry.entries.filter fun entry => meets entry.2).map Sigma.fst).Nodup :=
    List.Nodup.sublist (List.Sublist.map Sigma.fst List.filter_sublist)
      registry.nodupKeys
  have subset : ((registry.entries.filter fun entry => meets entry.2).map Sigma.fst) ⊆
      (others.entries.filter fun entry => counts entry.2).map Sigma.fst := by
    intro key isKey
    rcases List.mem_map.mp isKey with ⟨entry, filtered, rfl⟩
    rcases List.mem_filter.mp filtered with ⟨mem, met⟩
    rcases among entry.1 entry.2 (AList.mem_lookup_iff.mpr mem) met with ⟨other, found, counted⟩
    apply List.mem_map.mpr
    exact ⟨⟨entry.1, other⟩, List.mem_filter.mpr ⟨AList.mem_lookup_iff.mp found, counted⟩, rfl⟩
  have short := (List.subperm_of_subset apart subset).length_le
  rwa [List.length_map, List.length_map, ← List.countP_eq_length_filter,
    ← List.countP_eq_length_filter] at short

/-- Set what is kept under a key; `none` drops the key. -/
def put (registry : Registry Key Value) (key : Key) : Option Value → Registry Key Value
  | some value => registry.insert key value
  | none => registry.erase key

@[simp]
theorem lookup_put_self (value : Option Value) : (registry.put key value).lookup key = value := by
  cases value <;> simp [put]

theorem lookup_put_of_ne (value : Option Value) (differs : other ≠ key) :
    (registry.put key value).lookup other = registry.lookup other := by
  cases value <;> simp [put, AList.lookup_insert_ne differs, AList.lookup_erase_ne differs]

theorem length_keys_erase (registry : Registry Key Value) (key : Key) :
    (AList.keys (registry.erase key)).length + (if key ∈ registry then 1 else 0) =
      registry.keys.length := by
  rw [AList.keys_erase]
  split
  next mem => exact List.length_erase_add_one (AList.mem_keys.mp mem)
  next absent => rw [List.erase_of_not_mem absent, Nat.add_zero]

theorem length_keys_insert (registry : Registry Key Value) (key : Key) (value : Value) :
    (AList.keys (registry.insert key value)).length =
      registry.keys.length + if key ∈ registry then 0 else 1 := by
  rw [AList.keys_insert, List.length_cons]
  have erased := registry.length_keys_erase key
  rw [AList.keys_erase] at erased
  split at erased <;> simp_all

omit [DecidableEq Key] in
theorem length_keys_retain_le (registry : Registry Key Value) (keep : Key → Value → Bool) :
    (registry.retain keep).keys.length ≤ registry.keys.length := by
  simp only [AList.keys, List.keys, List.length_map]
  exact List.length_filter_le ..

/-- The sum of a measure over the values. -/
def total (registry : Registry Key Value) (measure : Value → ℕ) : ℕ :=
  (registry.entries.map fun entry => measure entry.2).sum

omit [DecidableEq Key] in
@[simp]
theorem total_empty (measure : Value → ℕ) : total (∅ : Registry Key Value) measure = 0 := rfl

theorem total_erase (registry : Registry Key Value) (key : Key) (measure : Value → ℕ) :
    total (registry.erase key) measure + (registry.lookup key).elim 0 measure =
      registry.total measure := by
  cases found : registry.lookup key with
  | none =>
      have absent : key ∉ registry.entries.keys := AList.lookup_eq_none.mp found
      have same : (registry.erase key).entries = registry.entries :=
        List.kerase_of_notMem_keys absent
      rw [total, total, same]
      rfl
  | some value =>
      have mem : key ∈ registry.entries.keys :=
        List.dlookup_isSome.mp (Option.isSome_of_mem found)
      rcases List.exists_of_kerase mem with ⟨held, before, after, fresh, split, erased⟩
      have same : held = value := by
        rw [AList.lookup, split, List.dlookup_append, List.dlookup_eq_none.mpr fresh,
          Option.none_or, List.dlookup_cons_eq] at found
        exact Option.some_inj.mp found
      subst same
      have rest : (registry.erase key).entries = before ++ after := by
        rw [← erased]
        rfl
      rw [total, total, rest, split]
      simp only [List.map_append, List.map_cons, List.sum_append, List.sum_cons,
        Option.elim_some]
      omega

theorem le_total (measure : Value → ℕ) (found : registry.lookup key = some old) :
    measure old ≤ registry.total measure := by
  have erased := total_erase registry key measure
  rw [found, Option.elim_some] at erased
  omega

/-- What setting one key does to the total. -/
theorem total_put (registry : Registry Key Value) (key : Key) (measure : Value → ℕ)
    (value : Option Value) :
    (registry.put key value).total measure + (registry.lookup key).elim 0 measure =
      registry.total measure + value.elim 0 measure := by
  have erased := total_erase registry key measure
  cases value with
  | none => exact erased
  | some value =>
      have inserted : total (registry.insert key value) measure =
          measure value + total (registry.erase key) measure := rfl
      rw [put, inserted, Option.elim_some]
      omega

theorem total_modify (registry : Registry Key Value) (key : Key) (measure : Value → ℕ)
    (change : Value → Value) :
    (registry.modify key change).total measure + (registry.lookup key).elim 0 measure =
      registry.total measure + (registry.lookup key).elim 0 fun value =>
        measure (change value) := by
  cases found : registry.lookup key with
  | none =>
      rw [modify, found]
      rfl
  | some value =>
      have put := total_put registry key measure (some (change value))
      rw [found] at put
      rw [modify, found]
      exact put

/-- A change that the measure does not see. -/
@[simp]
theorem total_modify_of_eq {measure : Value → ℕ} {change : Value → Value}
    (same : ∀ value, measure (change value) = measure value) :
    (registry.modify key change).total measure = registry.total measure := by
  have total := total_modify registry key measure change
  simp only [same] at total
  exact Nat.add_right_cancel total

theorem total_le_total {measure bound : Value → ℕ}
    (le : ∀ key value, registry.lookup key = some value → measure value ≤ bound value) :
    registry.total measure ≤ registry.total bound := by
  apply List.sum_le_sum
  intro entry mem
  exact le entry.1 entry.2 (AList.mem_lookup_iff.mpr mem)

theorem total_eq_zero {measure : Value → ℕ}
    (zero : ∀ key value, registry.lookup key = some value → measure value = 0) :
    registry.total measure = 0 := by
  apply List.sum_eq_zero
  intro amount mem
  rcases List.mem_map.mp mem with ⟨entry, isEntry, rfl⟩
  exact zero entry.1 entry.2 (AList.mem_lookup_iff.mpr isEntry)

end Registry

end Rustnzb.Lib
