import Rustnzb.Decode.Cache
import Rustnzb.Lib.Run

/-!
# What the article cache counts

`memoryBytes` is the size of what is in memory, and the eviction order has every key once. This
holds after every run of calls, whatever the disk refuses to write.

The spill loop turns the order over and over. It ends when the new data fits the limit, when there
is no other entry, or at an entry that cannot be written; with longer data beside entries that can
all be spilled it never ends.
-/

namespace Rustnzb.Decode

open Lib

namespace Entries

def inMemory (entries : Entries) (key : CacheKey) : ℕ :=
  match entries.lookup key with
  | some { location := .memory _, size := size } => size
  | _ => 0

def memoryTotal (entries : Entries) : ℕ :=
  ∑ key ∈ entries.keys.toFinset, inMemory entries key

variable {entries : Entries} {key : CacheKey}

@[simp]
theorem memoryTotal_empty : memoryTotal ∅ = 0 := by
  simp [memoryTotal]

theorem inMemory_of_notMem (absent : key ∉ entries) : inMemory entries key = 0 := by
  rw [inMemory, AList.lookup_eq_none.mpr absent]

theorem memoryTotal_erase (entries : Entries) (key : CacheKey) :
    memoryTotal (entries.erase key) + inMemory entries key = memoryTotal entries := by
  have others : ∀ other ∈ (entries.erase key).keys.toFinset,
      inMemory (entries.erase key) other = inMemory entries other := by
    intro other otherMem
    have different : other ≠ key := by
      rintro rfl
      simp only [AList.keys_erase, List.mem_toFinset] at otherMem
      exact entries.keys_nodup.not_mem_erase otherMem
    simp only [inMemory, AList.lookup_erase_ne different]
  have keysEq : (entries.erase key).keys.toFinset = entries.keys.toFinset.erase key := by
    ext other
    simp only [AList.keys_erase, List.mem_toFinset, Finset.mem_erase]
    exact entries.keys_nodup.mem_erase_iff
  rw [memoryTotal, Finset.sum_congr rfl others, keysEq]
  by_cases present : key ∈ entries.keys.toFinset
  · rw [add_comm, memoryTotal, Finset.add_sum_erase _ _ present]
  · have absent : key ∉ entries :=
      fun mem => present (List.mem_toFinset.mpr (AList.mem_keys.mp mem))
    rw [Finset.erase_eq_of_notMem present, inMemory_of_notMem absent]
    rfl

theorem memoryTotal_insert (entries : Entries) (key : CacheKey) (entry : CacheEntry) :
    memoryTotal (entries.insert key entry) =
      memoryTotal (entries.erase key) + inMemory (entries.insert key entry) key := by
  have split := memoryTotal_erase (entries.insert key entry) key
  have others : memoryTotal ((entries.insert key entry).erase key) =
      memoryTotal (entries.erase key) := by
    have keysEq : ((entries.insert key entry).erase key).keys.toFinset =
        (entries.erase key).keys.toFinset := by
      ext other
      simp
    rw [memoryTotal, memoryTotal, keysEq]
    refine Finset.sum_congr rfl fun other otherMem => ?_
    have different : other ≠ key := by
      rintro rfl
      simp only [AList.keys_erase, List.mem_toFinset] at otherMem
      exact entries.keys_nodup.not_mem_erase otherMem
    simp only [inMemory, AList.lookup_erase_ne different, AList.lookup_insert_ne different]
  omega

end Entries

namespace ArticleCache

open Entries

variable {Loc : Type} {disk : Disk Loc} {cache : ArticleCache Loc} {key : CacheKey}

/-- Every key is in the eviction order exactly once. -/
structure Ordered (cache : ArticleCache Loc) : Prop where
  distinct : cache.insertionOrder.Nodup
  mem_iff : ∀ key, key ∈ cache.insertionOrder ↔ key ∈ cache.entries

def Counted (cache : ArticleCache Loc) : Prop :=
  cache.memoryBytes = memoryTotal cache.entries

/-- The entry of `key` is in memory, and its spill file cannot be written. -/
def Unspillable (disk : Disk Loc) (cache : ArticleCache Loc) (key : CacheKey) : Prop :=
  ∃ data size, cache.entries.lookup key = some { location := .memory data, size := size } ∧
    disk.writable (spillPath disk cache.workDirs key) = false

theorem Unspillable.mem (unspillable : Unspillable disk cache key) : key ∈ cache.entries := by
  rcases unspillable with ⟨data, size, found, _⟩
  rw [← AList.lookup_isSome, found]
  rfl

variable {next : ArticleCache Loc} {order : List CacheKey}

theorem Counted.erase (counted : Counted cache) (entriesEq : next.entries = cache.entries.erase key)
    (memoryEq : next.memoryBytes = cache.memoryBytes - inMemory cache.entries key) :
    Counted next := by
  have split := memoryTotal_erase cache.entries key
  rw [Counted] at counted ⊢
  rw [memoryEq, entriesEq]
  omega

theorem counted_forget (counted : Counted cache) (key : CacheKey) : Counted (cache.forget key) := by
  unfold forget
  split
  · exact counted
  next old found =>
    refine counted.erase rfl ?_
    simp only [inMemory, found]
    rcases old with ⟨data | path, size⟩ <;> rfl

theorem ordered_forget (ordered : Ordered cache) (key : CacheKey) : Ordered (cache.forget key) := by
  unfold forget
  split
  · exact ordered
  · refine ⟨ordered.distinct.filter _, fun other => ?_⟩
    simp only [List.mem_filter, decide_eq_true_eq, AList.mem_erase, ordered.mem_iff]
    exact and_comm

theorem maxBytes_forget (cache : ArticleCache Loc) (key : CacheKey) :
    (cache.forget key).maxBytes = cache.maxBytes := by
  unfold forget
  split <;> rfl

variable {other : CacheKey}

theorem mem_forget : other ∈ (cache.forget key).entries ↔ other ∈ cache.entries ∧ other ≠ key := by
  unfold forget
  split
  next absent =>
    rw [and_iff_left_of_imp]
    rintro mem rfl
    exact AList.lookup_eq_none.mp absent mem
  · simp only [AList.mem_erase, and_comm]

theorem notMem_forget (cache : ArticleCache Loc) (key : CacheKey) :
    key ∉ (cache.forget key).entries :=
  fun mem => (mem_forget.mp mem).2 rfl

theorem unspillable_forget :
    Unspillable disk (cache.forget key) other ↔ Unspillable disk cache other ∧ other ≠ key := by
  by_cases same : other = key
  · subst same
    simp only [ne_eq, not_true_eq_false, and_false, iff_false]
    exact fun unspillable => notMem_forget cache other unspillable.mem
  · unfold forget
    split
    · simp [same]
    · simp [Unspillable, AList.lookup_erase_ne same, same]

theorem Ordered.rotate (ordered : Ordered cache) (orderEq : cache.insertionOrder = key :: order)
    (newOrder : next.insertionOrder = order ++ [key])
    (membersEq : ∀ other, other ∈ next.entries ↔ other ∈ cache.entries) : Ordered next := by
  have rotated : (order ++ [key]).Perm (key :: order) := List.perm_append_singleton _ _
  refine ⟨?_, fun other => ?_⟩
  · rw [newOrder, rotated.nodup_iff, ← orderEq]
    exact ordered.distinct
  · rw [newOrder, rotated.mem_iff, ← orderEq, membersEq]
    exact ordered.mem_iff other

theorem counted_insertNewest (counted : Counted cache) (absent : key ∉ cache.entries)
    (data : Bytes) : Counted (cache.insertNewest key data) := by
  have before := memoryTotal_erase cache.entries key
  have after := memoryTotal_insert cache.entries key
    { location := .memory data, size := data.length }
  have fresh := inMemory_of_notMem absent
  have newSize : inMemory (cache.entries.insert key
      { location := .memory data, size := data.length }) key = data.length := by
    simp [inMemory]
  simp only [Counted, insertNewest] at counted ⊢
  omega

theorem ordered_insertNewest (ordered : Ordered cache) (absent : key ∉ cache.entries)
    (data : Bytes) : Ordered (cache.insertNewest key data) := by
  refine ⟨?_, fun other => ?_⟩
  · simp only [insertNewest, List.nodup_append, List.mem_singleton]
    refine ⟨ordered.distinct, by simp, ?_⟩
    rintro other otherMem _ rfl rfl
    exact absent ((ordered.mem_iff other).mp otherMem)
  · simp only [insertNewest, List.mem_append, List.mem_singleton, AList.mem_insert,
      ordered.mem_iff]
    exact or_comm

theorem insertionOrder_forget_eq_nil (ordered : Ordered cache) :
    (cache.forget key).insertionOrder = [] ↔ ∀ other ∈ cache.entries, other = key := by
  simp only [List.eq_nil_iff_forall_not_mem, (ordered_forget ordered key).mem_iff, mem_forget,
    not_and, not_not]

variable [DecidableEq Loc]

theorem mem_spillEntry {entry : CacheEntry} {data : Bytes} (present : key ∈ cache.entries) :
    other ∈ (cache.spillEntry disk key order entry data).entries ↔ other ∈ cache.entries := by
  simp only [spillEntry, AList.mem_insert]
  constructor
  · rintro (rfl | mem)
    · exact present
    · exact mem
  · exact Or.inr

theorem counted_spillEntry {entry : CacheEntry} {data : Bytes} (counted : Counted cache)
    (found : cache.entries.lookup key = some entry) (location : entry.location = .memory data) :
    Counted (cache.spillEntry disk key order entry data) := by
  have before := memoryTotal_erase cache.entries key
  have after := memoryTotal_insert cache.entries key
    { entry with location := .disk (spillPath disk cache.workDirs key) }
  have nowOnDisk : inMemory (cache.entries.insert key
      { entry with location := .disk (spillPath disk cache.workDirs key) }) key = 0 := by
    simp [inMemory]
  have wasInMemory : inMemory cache.entries key = entry.size := by
    rcases entry with ⟨_, size⟩
    subst location
    simp [inMemory, found]
  simp only [Counted, spillEntry] at counted ⊢
  omega

/-- What one turn of the spill loop does with the oldest entry, when it is not one that cannot be
written: the entry is moved to the back of the order, on disk. -/
structure Turned (disk : Disk Loc) (cache : ArticleCache Loc) (key : CacheKey)
    (order : List CacheKey) (next : ArticleCache Loc) : Prop where
  turn : cache.spillOldest disk = (next, true)
  ordered : Ordered next
  counted : Counted cache → Counted next
  newOrder : next.insertionOrder = order ++ [key]
  sameLimit : next.maxBytes = cache.maxBytes
  spilled : inMemory next.entries key = 0
  unspillable : ∀ other, Unspillable disk next other ↔ Unspillable disk cache other
  still : ∀ other, inMemory cache.entries other = 0 → inMemory next.entries other = 0

theorem spillOldest_cons (spillable : ¬Unspillable disk cache key) (ordered : Ordered cache)
    (orderEq : cache.insertionOrder = key :: order) : ∃ next, Turned disk cache key order next := by
  have present : key ∈ cache.entries := (ordered.mem_iff key).mp (by simp [orderEq])
  rcases Option.isSome_iff_exists.mp (AList.lookup_isSome.mpr present) with
    ⟨⟨data | path, size⟩, found⟩
  · have writable : disk.writable (spillPath disk cache.workDirs key) = true := by
      rw [← Bool.not_eq_false]
      exact fun refused => spillable ⟨data, size, found, refused⟩
    refine ⟨cache.spillEntry disk key order { location := .memory data, size := size } data,
      ?_, ?_, fun counted => counted_spillEntry counted found rfl, rfl, rfl, ?_, ?_, ?_⟩
    · simp [spillOldest, orderEq, found, writable]
    · exact ordered.rotate orderEq rfl fun other => mem_spillEntry present
    · simp [spillEntry, inMemory]
    · intro other
      by_cases same : other = key
      · subst same
        simp [Unspillable, spillEntry, found, writable]
      · simp [Unspillable, spillEntry, AList.lookup_insert_ne same]
    · intro other isZero
      by_cases same : other = key
      · subst same
        simp [spillEntry, inMemory]
      · simpa only [spillEntry, inMemory, AList.lookup_insert_ne same] using isZero
  · refine ⟨{ cache with insertionOrder := order ++ [key] }, ?_, ?_, id, rfl, rfl, ?_,
      fun _ => Iff.rfl, fun _ => id⟩
    · simp [spillOldest, orderEq, found]
    · exact ordered.rotate orderEq rfl fun other => Iff.rfl
    · simp [inMemory, found]

theorem spillOldest_unspillable (unspillable : Unspillable disk cache key)
    (orderEq : cache.insertionOrder = key :: order) : cache.spillOldest disk = (cache, false) := by
  rcases unspillable with ⟨data, size, found, refused⟩
  simp [spillOldest, orderEq, found, refused]

theorem spill_keeps {dataLen fuel : ℕ} (ordered : Ordered cache)
    (returned : spill disk dataLen fuel cache = some next) :
    Ordered next ∧ (Counted cache → Counted next) ∧
      next.insertionOrder.Perm cache.insertionOrder := by
  induction fuel generalizing cache with
  | zero =>
      simp only [spill] at returned
      split at returned
      · simp at returned
      · exact Option.some.inj returned ▸ ⟨ordered, id, List.Perm.refl _⟩
  | succ fuel ih =>
      simp only [spill] at returned
      split at returned
      next overLimit =>
        rcases List.exists_cons_of_ne_nil overLimit.2 with ⟨key, order, orderEq⟩
        by_cases unspillable : Unspillable disk cache key
        · simp only [spillOldest_unspillable unspillable orderEq] at returned
          exact Option.some.inj returned ▸ ⟨ordered, id, List.Perm.refl _⟩
        · rcases spillOldest_cons unspillable ordered orderEq with ⟨turned, isTurned⟩
          simp only [isTurned.turn] at returned
          rcases ih isTurned.ordered returned with ⟨orderedNext, countedNext, perm⟩
          refine ⟨orderedNext, countedNext ∘ isTurned.counted, perm.trans ?_⟩
          rw [isTurned.newOrder, orderEq]
          exact List.perm_append_singleton _ _
      · exact Option.some.inj returned ▸ ⟨ordered, id, List.Perm.refl _⟩

/-- The loop ends after at most one turn for each entry. The induction is on the entries not yet
turned over; those already turned over are on disk. -/
theorem spill_returns {dataLen : ℕ} {waiting : List CacheKey} :
    ∀ (cache : ArticleCache Loc) (done : List CacheKey), Ordered cache → Counted cache →
      (dataLen ≤ cache.maxBytes ∨ ∃ key ∉ done, Unspillable disk cache key) →
      cache.insertionOrder = waiting ++ done →
      (∀ key ∈ done, inMemory cache.entries key = 0) →
      ∃ next, spill disk dataLen waiting.length cache = some next := by
  induction waiting with
  | nil =>
      intro cache done ordered counted fits orderEq spilled
      have isDone : ∀ key ∈ cache.entries, key ∈ done := by
        intro key mem
        simpa [orderEq] using (ordered.mem_iff key).mpr mem
      rcases fits with inLimit | ⟨key, notDone, unspillable⟩
      · have noneInMemory : memoryTotal cache.entries = 0 :=
          Finset.sum_eq_zero fun key keyMem =>
            spilled key (isDone key (AList.mem_keys.mpr (List.mem_toFinset.mp keyMem)))
        have notOver : ¬cache.OverLimit dataLen := by
          rw [OverLimit, counted, noneInMemory]
          omega
        exact ⟨cache, if_neg notOver⟩
      · exact absurd (isDone key unspillable.mem) notDone
  | cons key waiting ih =>
      intro cache done ordered counted fits orderEq spilled
      by_cases overLimit : cache.OverLimit dataLen
      · by_cases unspillable : Unspillable disk cache key
        · have stops := spillOldest_unspillable unspillable orderEq
          exact ⟨cache, by simp only [List.length_cons, spill, if_pos overLimit, stops]⟩
        · rcases spillOldest_cons unspillable ordered orderEq with ⟨turned, isTurned⟩
          have fitsTurned : dataLen ≤ turned.maxBytes ∨
              ∃ other ∉ done ++ [key], Unspillable disk turned other := by
            refine fits.imp (fun inLimit => isTurned.sameLimit ▸ inLimit) ?_
            rintro ⟨other, notDone, refused⟩
            refine ⟨other, ?_, (isTurned.unspillable other).mpr refused⟩
            rw [List.mem_append, List.mem_singleton, not_or]
            exact ⟨notDone, fun same => unspillable (same ▸ refused)⟩
          have restReturns := ih turned (done ++ [key]) isTurned.ordered
            (isTurned.counted counted) fitsTurned (by simp [isTurned.newOrder]) (by
              intro other otherMem
              rcases List.mem_append.mp otherMem with isDone | isKey
              · exact isTurned.still other (spilled other isDone)
              · rw [List.mem_singleton.mp isKey]
                exact isTurned.spilled)
          simpa only [List.length_cons, spill, if_pos overLimit, isTurned.turn] using restReturns
      · exact ⟨cache, if_neg overLimit⟩

theorem spill_never_returns {dataLen : ℕ} (fuel : ℕ) (ordered : Ordered cache)
    (spillable : ∀ key, ¬Unspillable disk cache key) (tooLong : cache.maxBytes < dataLen)
    (nonempty : cache.insertionOrder ≠ []) : spill disk dataLen fuel cache = none := by
  have overLimit : cache.OverLimit dataLen := ⟨by omega, nonempty⟩
  induction fuel generalizing cache with
  | zero => exact if_pos overLimit
  | succ fuel ih =>
      rcases List.exists_cons_of_ne_nil nonempty with ⟨key, order, orderEq⟩
      rcases spillOldest_cons (spillable key) ordered orderEq with ⟨turned, isTurned⟩
      have stillNonempty : turned.insertionOrder ≠ [] := by simp [isTurned.newOrder]
      have stillTooLong : turned.maxBytes < dataLen := isTurned.sameLimit ▸ tooLong
      have stillSpillable : ∀ other, ¬Unspillable disk turned other := fun other unspillable =>
        spillable other ((isTurned.unspillable other).mp unspillable)
      simpa only [spill, if_pos overLimit, isTurned.turn] using
        ih isTurned.ordered stillSpillable stillTooLong stillNonempty ⟨by omega, stillNonempty⟩

theorem store_keeps {fuel : ℕ} {data : Bytes} (ordered : Ordered cache)
    (returned : cache.store disk fuel key data = some next) :
    Ordered next ∧ (Counted cache → Counted next) := by
  simp only [store, Option.map_eq_some_iff] at returned
  rcases returned with ⟨spilled, spillEq, rfl⟩
  have orderedForget := ordered_forget ordered key
  rcases spill_keeps orderedForget spillEq with ⟨orderedSpilled, countedSpilled, perm⟩
  have absent : key ∉ spilled.entries := by
    rw [← orderedSpilled.mem_iff, perm.mem_iff, orderedForget.mem_iff]
    exact notMem_forget cache key
  exact ⟨ordered_insertNewest orderedSpilled absent data, fun counted =>
    counted_insertNewest (countedSpilled (counted_forget counted key)) absent data⟩

/-- What a store needs to return: its data fits the limit, or there is no other entry, or one of
the others cannot be spilled. -/
def Ends (disk : Disk Loc) (cache : ArticleCache Loc) (key : CacheKey) (data : Bytes) : Prop :=
  data.length ≤ cache.maxBytes ∨ (∀ other ∈ cache.entries, other = key) ∨
    ∃ other ≠ key, Unspillable disk cache other

theorem store_returns {data : Bytes} (ordered : Ordered cache) (counted : Counted cache)
    (ends : Ends disk cache key data) :
    ∃ fuel next, cache.store disk fuel key data = some next := by
  have orderedForget := ordered_forget ordered key
  by_cases alone : (cache.forget key).insertionOrder = []
  · have notOver : ¬(cache.forget key).OverLimit data.length := fun overLimit => overLimit.2 alone
    exact ⟨0, (cache.forget key).insertNewest key data, by
      rw [store, spill, if_neg notOver, Option.map_some]⟩
  · have fits : data.length ≤ (cache.forget key).maxBytes ∨
        ∃ other ∉ ([] : List CacheKey), Unspillable disk (cache.forget key) other := by
      rcases ends with inLimit | others | ⟨other, different, unspillable⟩
      · exact Or.inl (maxBytes_forget cache key ▸ inLimit)
      · exact absurd ((insertionOrder_forget_eq_nil ordered).mpr others) alone
      · exact Or.inr ⟨other, List.not_mem_nil, unspillable_forget.mpr ⟨unspillable, different⟩⟩
    rcases spill_returns (cache.forget key) [] orderedForget (counted_forget counted key) fits
      (List.append_nil _).symm (by simp) with ⟨spilled, spillEq⟩
    exact ⟨_, spilled.insertNewest key data, by rw [store, spillEq, Option.map_some]⟩

theorem store_never_returns {data : Bytes} (fuel : ℕ) (ordered : Ordered cache)
    (never : ¬Ends disk cache key data) : cache.store disk fuel key data = none := by
  simp only [Ends, not_or, not_exists, not_and] at never
  rcases never with ⟨tooLong, others, spillable⟩
  have allSpillable : ∀ other, ¬Unspillable disk (cache.forget key) other := by
    intro other unspillable
    rcases unspillable_forget.mp unspillable with ⟨refused, different⟩
    exact spillable other different refused
  have stillTooLong : (cache.forget key).maxBytes < data.length := by
    rw [maxBytes_forget]
    exact not_le.mp tooLong
  rw [store, spill_never_returns fuel (ordered_forget ordered key) allSpillable stillTooLong
    fun alone => others ((insertionOrder_forget_eq_nil ordered).mp alone), Option.map_none]

theorem counted_removeEntry (counted : Counted cache) (key : CacheKey) :
    Counted (cache.removeEntry disk key) := by
  unfold removeEntry
  split
  · exact counted
  next old found =>
    rcases old with ⟨data | path, size⟩ <;>
      exact counted.erase rfl (by simp [inMemory, found])

theorem mem_removeEntry :
    other ∈ (cache.removeEntry disk key).entries ↔ other ∈ cache.entries ∧ other ≠ key := by
  unfold removeEntry
  split
  next absent =>
    constructor
    · intro mem
      refine ⟨mem, ?_⟩
      rintro rfl
      exact AList.lookup_eq_none.mp absent mem
    · exact And.left
  · split <;> simp only [AList.mem_erase, and_comm]

theorem insertionOrder_removeEntry :
    (cache.removeEntry disk key).insertionOrder = cache.insertionOrder := by
  unfold removeEntry
  split
  · rfl
  · split <;> rfl

theorem mem_removeEntries (keys : List CacheKey) :
    other ∈ (keys.foldl (removeEntry disk) cache).entries ↔
      other ∈ cache.entries ∧ other ∉ keys := by
  induction keys generalizing cache with
  | nil => simp
  | cons key keys ih =>
      rw [List.foldl_cons, ih, mem_removeEntry, List.mem_cons]
      tauto

theorem insertionOrder_removeEntries (keys : List CacheKey) :
    (keys.foldl (removeEntry disk) cache).insertionOrder = cache.insertionOrder := by
  induction keys generalizing cache with
  | nil => rfl
  | cons key keys ih => rw [List.foldl_cons, ih, insertionOrder_removeEntry]

theorem counted_removeEntries (keys : List CacheKey) (counted : Counted cache) :
    Counted (keys.foldl (removeEntry disk) cache) := by
  induction keys generalizing cache with
  | nil => exact counted
  | cons key keys ih => exact ih (counted_removeEntry counted key)

theorem ordered_remove (ordered : Ordered cache) : Ordered (cache.remove disk key) := by
  unfold remove
  split
  · refine ⟨ordered.distinct.filter _, fun other => ?_⟩
    simp only [List.mem_filter, decide_eq_true_eq, mem_removeEntry, ordered.mem_iff]
  · exact ordered

theorem ordered_clearJob {jobId : String} (ordered : Ordered cache) :
    Ordered (cache.clearJob disk jobId) := by
  refine ⟨?_, fun other => ?_⟩
  · simp only [clearJob, insertionOrder_removeEntries]
    exact ordered.distinct.filter _
  · simp only [clearJob, insertionOrder_removeEntries, mem_removeEntries, List.mem_filter,
      decide_eq_true_eq, ordered.mem_iff, ← AList.mem_keys]
    tauto

inductive CacheCall where
  | registerWorkDir (jobId workDir : String)
  | store (key : CacheKey) (data : Bytes)
  | load (key : CacheKey)
  | remove (key : CacheKey)
  | clearJob (jobId : String)
  | setLimit (bytes : ℕ)

inductive Step (disk : Disk Loc) (cache : ArticleCache Loc) :
    CacheCall → ArticleCache Loc → Prop
  | registerWorkDir (jobId workDir : String) :
      Step disk cache (.registerWorkDir jobId workDir) (cache.registerWorkDir jobId workDir)
  | store {fuel : ℕ} {key : CacheKey} {data : Bytes} {next : ArticleCache Loc}
      (returned : cache.store disk fuel key data = some next) :
      Step disk cache (.store key data) next
  | load (key : CacheKey) : Step disk cache (.load key) cache
  | remove (key : CacheKey) : Step disk cache (.remove key) (cache.remove disk key)
  | clearJob (jobId : String) : Step disk cache (.clearJob jobId) (cache.clearJob disk jobId)
  | setLimit (bytes : ℕ) : Step disk cache (.setLimit bytes) (cache.setLimit bytes)

theorem ordered_step {call : CacheCall} (ordered : Ordered cache) (move : Step disk cache call next)
    : Ordered next := by
  cases move with
  | registerWorkDir => exact ⟨ordered.1, ordered.2⟩
  | store returned => exact (store_keeps ordered returned).1
  | load => exact ordered
  | remove => exact ordered_remove ordered
  | clearJob => exact ordered_clearJob ordered
  | setLimit => exact ⟨ordered.1, ordered.2⟩

theorem counted_step {call : CacheCall} (ordered : Ordered cache) (counted : Counted cache)
    (move : Step disk cache call next) : Counted next := by
  cases move with
  | registerWorkDir => exact counted
  | store returned => exact (store_keeps ordered returned).2 counted
  | load => exact counted
  | remove key =>
      unfold remove
      split
      · exact counted_removeEntry counted key
      · exact counted
  | clearJob => exact counted_removeEntries _ counted
  | setLimit => exact counted

def AnyStep (cache : ArticleCache Loc) (call : Disk Loc × CacheCall) (next : ArticleCache Loc) :
    Prop :=
  Step call.1 cache call.2 next

/-- After every run the records are right, and the next store returns exactly when it ends. -/
theorem store_returns_iff {files : Loc → Option Bytes} {maxBytes : ℕ}
    {calls : List (Disk Loc × CacheCall)} (run : Run AnyStep (new files maxBytes) calls cache) :
    (Counted cache ∧ Ordered cache) ∧ ∀ disk key data,
      (∃ fuel next, cache.store disk fuel key data = some next) ↔ Ends disk cache key data := by
  have kept : Counted cache ∧ Ordered cache := by
    refine run.invariant (fun _ cache => Counted cache ∧ Ordered cache) ⟨?_, ?_, ?_⟩ ?_
    · simp [Counted, new]
    · simp [new]
    · simp [new]
    · rintro calls before call next _ ⟨counted, ordered⟩ move
      exact ⟨counted_step ordered counted move, ordered_step ordered move⟩
  refine ⟨kept, fun disk key data => ⟨?_, store_returns kept.2 kept.1⟩⟩
  rintro ⟨fuel, next, returned⟩
  by_contra never
  rw [store_never_returns fuel kept.2 never] at returned
  simp at returned

def plainDisk : Disk String where
  locate := id
  writable := fun _ => true
  tempDir := "/tmp"

def firstOf (jobId : String) : CacheKey :=
  { jobId := jobId, fileId := "f", segmentNumber := 1 }

theorem run_one_store : Run AnyStep (new (fun _ => none) 4)
    [(plainDisk, .store (firstOf "a") [1])]
    ((new (fun _ => none) 4).insertNewest (firstOf "a") [1]) :=
  Run.start.snoc (Step.store (rfl : store plainDisk 0 _ _ _ = _))

theorem store_returns_iff_full : ∃ fuel next,
    ((new (fun _ => none) 4).insertNewest (firstOf "a") [1]).store plainDisk fuel (firstOf "b")
      [1, 2, 3, 4] = some next :=
  ((store_returns_iff run_one_store).2 _ _ _).mpr (Or.inl (by decide))

/-- An article of five bytes is stored beside it. -/
theorem not_store_returns : ¬∀ (files : String → Option Bytes) (maxBytes : ℕ)
    (calls : List (Disk String × CacheCall)) (cache : ArticleCache String),
    Run AnyStep (new files maxBytes) calls cache → ∀ disk key data,
      ∃ fuel next, cache.store disk fuel key data = some next := by
  intro always
  rcases always _ _ _ _ run_one_store plainDisk (firstOf "b") [1, 2, 3, 4, 5] with
    ⟨fuel, next, returned⟩
  have ordered : Ordered ((new (fun _ => none : String → Option Bytes) 4).insertNewest
      (firstOf "a") [1]) :=
    ordered_insertNewest ⟨List.nodup_nil, fun key => by simp [new]⟩ (by simp [new]) [1]
  rw [store_never_returns fuel ordered] at returned
  · simp at returned
  · rintro (inLimit | others | ⟨other, _, data, size, _, refused⟩)
    · exact absurd inLimit (by decide)
    · exact absurd (others (firstOf "a") (by simp [insertNewest])) (by decide)
    · simp [plainDisk] at refused

end ArticleCache

end Rustnzb.Decode
