import Rustnzb.Decode.CacheAccounts

/-!
# The article cache as a map

Where an entry lives should not matter: a load returns what the latest store put there. This
holds along a run in which no store is larger than the limit next to other entries, and no store
over the limit finds two entries that would share a spill file. Without the first condition the
spill loop does not end; without the second one article's bytes replace another's.

The invariant `Sound` ties the cache to the contents it should have. A spill moves one entry and
keeps all contents, provided the places of the entries are different (`SpillsApart`).
-/

namespace Rustnzb.Decode

open Lib

namespace ArticleCache

open Entries

variable {Loc : Type} {disk : Disk Loc} {cache : ArticleCache Loc}

def OnDisk (cache : ArticleCache Loc) (key : CacheKey) (path : String) : Prop :=
  ∃ entry, cache.entries.lookup key = some entry ∧ entry.location = .disk path

/-- The cache returns `contents` for every key, and its records of what is in memory are right. -/
structure Sound (disk : Disk Loc) (contents : CacheKey → Option Bytes)
    (cache : ArticleCache Loc) : Prop where
  memory_eq : cache.memoryBytes = memoryTotal cache.entries
  holds : ∀ key, cache.load disk key = some (contents key)
  apart : ∀ left right leftPath rightPath, cache.OnDisk left leftPath →
    cache.OnDisk right rightPath → left ≠ right → disk.locate leftPath ≠ disk.locate rightPath

def place (disk : Disk Loc) (cache : ArticleCache Loc) (key : CacheKey) : String :=
  match cache.entries.lookup key with
  | some { location := .disk path, size := _ } => path
  | _ => spillPath disk cache.workDirs key

def SpillsApart (disk : Disk Loc) (cache : ArticleCache Loc) : Prop :=
  ∀ left right, left ∈ cache.entries → right ∈ cache.entries → left ≠ right →
    disk.locate (cache.place disk left) ≠ disk.locate (cache.place disk right)

theorem load_congr {other : ArticleCache Loc} {key : CacheKey}
    (sameEntry : other.entries.lookup key = cache.entries.lookup key)
    (sameFile : ∀ path, cache.OnDisk key path →
      other.files (disk.locate path) = cache.files (disk.locate path)) :
    other.load disk key = cache.load disk key := by
  unfold load
  rw [sameEntry]
  rcases found : cache.entries.lookup key with _ | entry
  · rfl
  · rcases location : entry.location with data | path
    · simp [location]
    · simp [location, sameFile path ⟨entry, found, location⟩]

variable {contents : CacheKey → Option Bytes} {key : CacheKey}

section Erase

variable {next : ArticleCache Loc}

theorem Sound.erase (sound : Sound disk contents cache)
    (entriesEq : next.entries = cache.entries.erase key)
    (memoryEq : next.memoryBytes = cache.memoryBytes - inMemory cache.entries key)
    (filesEq : ∀ other path, other ≠ key → cache.OnDisk other path →
      next.files (disk.locate path) = cache.files (disk.locate path)) :
    Sound disk (Function.update contents key none) next := by
  have lookupEq : ∀ other, other ≠ key →
      next.entries.lookup other = cache.entries.lookup other := by
    intro other different
    rw [entriesEq, AList.lookup_erase_ne different]
  have absent : next.entries.lookup key = none := by
    rw [entriesEq, AList.lookup_erase]
  refine ⟨?_, ?_, ?_⟩
  · exact Counted.erase sound.memory_eq entriesEq memoryEq
  · intro other
    by_cases same : other = key
    · subst same
      simp [load, absent]
    · rw [Function.update_of_ne same, ← sound.holds other]
      exact load_congr (lookupEq other same) fun path onDisk => filesEq other path same onDisk
  · rintro left right leftPath rightPath ⟨leftEntry, leftFound, leftLocation⟩
      ⟨rightEntry, rightFound, rightLocation⟩ different
    have leftOther : left ≠ key := by
      rintro rfl
      simp [absent] at leftFound
    have rightOther : right ≠ key := by
      rintro rfl
      simp [absent] at rightFound
    rw [lookupEq left leftOther] at leftFound
    rw [lookupEq right rightOther] at rightFound
    exact sound.apart left right leftPath rightPath ⟨leftEntry, leftFound, leftLocation⟩
      ⟨rightEntry, rightFound, rightLocation⟩ different

end Erase

theorem Sound.contents_of_lookup_none (sound : Sound disk contents cache)
    (absent : cache.entries.lookup key = none) : Function.update contents key none = contents := by
  have missing := sound.holds key
  simp only [load, absent, Option.some.injEq] at missing
  rw [missing, Function.update_eq_self]

theorem sound_forget (sound : Sound disk contents cache) (key : CacheKey) :
    Sound disk (Function.update contents key none) (cache.forget key) := by
  unfold forget
  split
  next absent => exact (sound.contents_of_lookup_none absent).symm ▸ sound
  next old found =>
    refine sound.erase rfl ?_ fun _ _ _ _ => rfl
    simp only [inMemory, found]
    rcases old with ⟨data | path, size⟩ <;> rfl

theorem place_of_memory {entry : CacheEntry} {data : Bytes}
    (found : cache.entries.lookup key = some entry) (location : entry.location = .memory data) :
    cache.place disk key = spillPath disk cache.workDirs key := by
  rcases entry with ⟨_, size⟩
  subst location
  simp [place, found]

theorem place_of_disk {path : String} (onDisk : cache.OnDisk key path) :
    cache.place disk key = path := by
  rcases onDisk with ⟨⟨_, size⟩, found, rfl⟩
  simp [place, found]

theorem OnDisk.mem {path : String} (onDisk : cache.OnDisk key path) : key ∈ cache.entries := by
  rcases onDisk with ⟨entry, found, _⟩
  rw [← AList.lookup_isSome, found]
  rfl

theorem sound_insertNewest (sound : Sound disk contents cache) (absent : key ∉ cache.entries)
    (data : Bytes) :
    Sound disk (Function.update contents key (some data)) (cache.insertNewest key data) := by
  have lookupOther : ∀ other, other ≠ key →
      (cache.insertNewest key data).entries.lookup other = cache.entries.lookup other :=
    fun other different => AList.lookup_insert_ne different
  have notOnDisk : ∀ path, ¬(cache.insertNewest key data).OnDisk key path := by
    rintro path ⟨entry, found, location⟩
    simp only [insertNewest, AList.lookup_insert, Option.some.injEq] at found
    subst found
    simp at location
  refine ⟨counted_insertNewest sound.memory_eq absent data, ?_, ?_⟩
  · intro other
    by_cases same : other = key
    · subst same
      simp [load, insertNewest]
    · rw [Function.update_of_ne same, ← sound.holds other]
      exact load_congr (lookupOther other same) fun _ _ => rfl
  · rintro left right leftPath rightPath leftDisk rightDisk different
    have leftOther : left ≠ key := by
      rintro rfl
      exact notOnDisk _ leftDisk
    have rightOther : right ≠ key := by
      rintro rfl
      exact notOnDisk _ rightDisk
    rcases leftDisk with ⟨leftEntry, leftFound, leftLocation⟩
    rcases rightDisk with ⟨rightEntry, rightFound, rightLocation⟩
    rw [lookupOther left leftOther] at leftFound
    rw [lookupOther right rightOther] at rightFound
    exact sound.apart left right leftPath rightPath ⟨leftEntry, leftFound, leftLocation⟩
      ⟨rightEntry, rightFound, rightLocation⟩ different

variable [DecidableEq Loc]

theorem sound_removeEntry (sound : Sound disk contents cache) (key : CacheKey) :
    Sound disk (Function.update contents key none) (cache.removeEntry disk key) := by
  unfold removeEntry
  split
  next absent => exact (sound.contents_of_lookup_none absent).symm ▸ sound
  next old found =>
    rcases old with ⟨data | path, size⟩
    · refine sound.erase rfl ?_ fun _ _ _ _ => rfl
      simp [inMemory, found]
    · refine sound.erase rfl ?_ ?_
      · simp [inMemory, found]
      · intro other otherPath different onDisk
        have elsewhere := sound.apart other key otherPath path onDisk ⟨_, found, rfl⟩ different
        simp [Function.update_of_ne elsewhere]

theorem sound_spillEntry {entry : CacheEntry} {data : Bytes} {order : List CacheKey}
    (sound : Sound disk contents cache) (apart : SpillsApart disk cache)
    (found : cache.entries.lookup key = some entry) (location : entry.location = .memory data) :
    Sound disk contents (cache.spillEntry disk key order entry data) ∧
      SpillsApart disk (cache.spillEntry disk key order entry data) := by
  set next := cache.spillEntry disk key order entry data
  have present : key ∈ cache.entries := by
    rw [← AList.lookup_isSome, found]
    rfl
  have lookupOther : ∀ other, other ≠ key →
      next.entries.lookup other = cache.entries.lookup other := fun other different =>
    AList.lookup_insert_ne different
  have placeEq : ∀ other, next.place disk other = cache.place disk other := by
    intro other
    by_cases same : other = key
    · subst same
      rw [place_of_memory found location]
      exact place_of_disk ⟨_, AList.lookup_insert _, rfl⟩
    · simp only [place, lookupOther other same]
      rfl
  have membersEq : ∀ other, other ∈ next.entries ↔ other ∈ cache.entries := fun other =>
    mem_spillEntry present
  have apartNext : SpillsApart disk next := by
    intro left right leftMem rightMem different
    rw [placeEq, placeEq]
    exact apart left right ((membersEq left).mp leftMem) ((membersEq right).mp rightMem) different
  refine ⟨⟨?_, ?_, ?_⟩, apartNext⟩
  · exact counted_spillEntry sound.memory_eq found location
  · intro other
    by_cases same : other = key
    · subst same
      rw [← sound.holds other]
      simp [load, next, spillEntry, found, location]
    · rw [← sound.holds other]
      refine load_congr (lookupOther other same) fun otherPath onDisk => ?_
      have elsewhere := apart other key onDisk.mem present same
      rw [place_of_disk onDisk, place_of_memory found location] at elsewhere
      exact Function.update_of_ne elsewhere _ _
  · intro left right leftPath rightPath leftDisk rightDisk different
    have := apartNext left right leftDisk.mem rightDisk.mem different
    rwa [place_of_disk leftDisk, place_of_disk rightDisk] at this

variable {next : ArticleCache Loc}

theorem sound_spillOldest {goesOn : Bool} (sound : Sound disk contents cache)
    (apart : SpillsApart disk cache) (turn : cache.spillOldest disk = (next, goesOn)) :
    Sound disk contents next ∧ SpillsApart disk next := by
  have reordered : ∀ order, Sound disk contents { cache with insertionOrder := order } :=
    fun _ => ⟨sound.1, sound.2, sound.3⟩
  simp only [spillOldest] at turn
  split at turn
  · exact (Prod.mk.inj turn).1 ▸ ⟨sound, apart⟩
  · split at turn
    · exact (Prod.mk.inj turn).1 ▸ ⟨reordered _, apart⟩
    next entry found =>
      split at turn
      · exact (Prod.mk.inj turn).1 ▸ ⟨reordered _, apart⟩
      next location =>
        split at turn
        · exact (Prod.mk.inj turn).1 ▸ sound_spillEntry sound apart found location
        · exact (Prod.mk.inj turn).1 ▸ ⟨sound, apart⟩

theorem sound_spill {dataLen fuel : ℕ} (sound : Sound disk contents cache)
    (apart : cache.OverLimit dataLen → SpillsApart disk cache)
    (returned : spill disk dataLen fuel cache = some next) : Sound disk contents next := by
  induction fuel generalizing cache with
  | zero =>
      simp only [spill] at returned
      split at returned
      · simp at returned
      · exact Option.some.inj returned ▸ sound
  | succ fuel ih =>
      simp only [spill] at returned
      split at returned
      next overLimit =>
        rcases turnEq : cache.spillOldest disk with ⟨turned, goesOn⟩
        rcases sound_spillOldest sound (apart overLimit) turnEq with ⟨soundTurned, apartTurned⟩
        rw [turnEq] at returned
        cases goesOn with
        | true => exact ih soundTurned (fun _ => apartTurned) returned
        | false => exact Option.some.inj returned ▸ soundTurned
      · exact Option.some.inj returned ▸ sound

/-- What a store needs to keep the cache a map: its data fits the limit or is alone in the cache,
and when it goes over the limit no two of the other keys have the same spill file. -/
structure Fits (disk : Disk Loc) (cache : ArticleCache Loc) (key : CacheKey) (data : Bytes) :
    Prop where
  fits : data.length ≤ cache.maxBytes ∨ (cache.forget key).insertionOrder = []
  apart : (cache.forget key).OverLimit data.length → SpillsApart disk (cache.forget key)

theorem sound_store {fuel : ℕ} {data : Bytes} (sound : Sound disk contents cache)
    (ordered : Ordered cache) (fits : Fits disk cache key data)
    (returned : cache.store disk fuel key data = some next) :
    Sound disk (Function.update contents key (some data)) next := by
  simp only [store, Option.map_eq_some_iff] at returned
  rcases returned with ⟨spilled, spillEq, rfl⟩
  rcases spill_keeps (ordered_forget ordered key) spillEq with ⟨orderedSpilled, _, perm⟩
  have absent : key ∉ spilled.entries := by
    rw [← orderedSpilled.mem_iff, perm.mem_iff, (ordered_forget ordered key).mem_iff]
    exact notMem_forget cache key
  simpa using sound_insertNewest (sound_spill (sound_forget sound key) fits.apart spillEq) absent
    data

theorem sound_removeEntries (keys : List CacheKey) (sound : Sound disk contents cache) :
    Sound disk (fun key => if key ∈ keys then none else contents key)
      (keys.foldl (removeEntry disk) cache) := by
  induction keys generalizing cache contents with
  | nil => simpa using sound
  | cons key keys ih =>
      have rest := ih (sound_removeEntry sound key)
      rw [List.foldl_cons]
      convert rest using 2 with other
      by_cases same : other = key
      · simp [same]
      · simp [same]

theorem sound_remove (sound : Sound disk contents cache) :
    Sound disk (Function.update contents key none) (cache.remove disk key) := by
  unfold remove
  split
  · have removed := sound_removeEntry sound key
    exact ⟨removed.1, removed.2, removed.3⟩
  next absent =>
    exact (sound.contents_of_lookup_none (AList.lookup_eq_none.mpr absent)).symm ▸ sound

theorem sound_clearJob {jobId : String} (sound : Sound disk contents cache) :
    Sound disk (fun key => if key.jobId = jobId then none else contents key)
      (cache.clearJob disk jobId) := by
  set keys := cache.entries.keys.filter fun k => k.jobId = jobId with keysEq
  have cleared := sound_removeEntries keys sound
  have sameContents : (fun key => if key ∈ keys then none else contents key) =
      fun key => if key.jobId = jobId then none else contents key := by
    funext key
    by_cases present : key ∈ cache.entries
    · simp [keysEq, ← AList.mem_keys, present]
    · have missing := sound.holds key
      simp only [load, AList.lookup_eq_none.mpr present, Option.some.injEq] at missing
      simp [← missing]
  rw [sameContents] at cleared
  exact ⟨cleared.1, cleared.2, cleared.3⟩

def CacheCall.effect (contents : CacheKey → Option Bytes) : CacheCall → CacheKey → Option Bytes
  | .store key data => Function.update contents key (some data)
  | .remove key => Function.update contents key none
  | .clearJob jobId => fun key => if key.jobId = jobId then none else contents key
  | _ => contents

def latest (calls : List CacheCall) : CacheKey → Option Bytes :=
  calls.foldl CacheCall.effect fun _ => none

@[simp]
theorem latest_append_singleton (calls : List CacheCall) (call : CacheCall) :
    latest (calls ++ [call]) = call.effect (latest calls) := by
  simp [latest]

/-- The condition on the state before a call under which the cache stays a map. -/
def Meets (disk : Disk Loc) (cache : ArticleCache Loc) : CacheCall → Prop
  | .store key data => Fits disk cache key data
  | _ => True

omit [DecidableEq Loc] in
theorem sound_new (files : Loc → Option Bytes) (maxBytes : ℕ) :
    Sound disk (latest []) (new files maxBytes) ∧ Ordered (new files maxBytes) := by
  refine ⟨⟨?_, ?_, ?_⟩, ?_, ?_⟩
  · simp [new]
  · simp [new, load, latest]
  · rintro left right leftPath rightPath ⟨entry, found, _⟩
    simp [new] at found
  · simp [new]
  · simp [new]

theorem sound_step {calls : List CacheCall} {call : CacheCall}
    (sound : Sound disk (latest calls) cache) (ordered : Ordered cache)
    (meets : Meets disk cache call) (move : Step disk cache call next) :
    Sound disk (latest (calls ++ [call])) next := by
  rw [latest_append_singleton]
  cases move with
  | registerWorkDir => exact ⟨sound.1, sound.2, sound.3⟩
  | store returned => exact sound_store sound ordered meets returned
  | load => exact sound
  | remove => exact sound_remove sound
  | clearJob => exact sound_clearJob sound
  | setLimit => exact ⟨sound.1, sound.2, sound.3⟩

/-- Along a run that meets the condition every load returns the latest data, and every next call
that meets it returns. -/
theorem cache_is_map {files : Loc → Option Bytes} {maxBytes : ℕ} {calls : List CacheCall}
    (_writable : ∀ path, disk.writable path = true)
    (run : Run (Step disk) (new files maxBytes) calls cache)
    (meets : Run.Always (Step disk) (new files maxBytes) (fun _ => Meets disk) calls) :
    (∀ key, cache.load disk key = some (latest calls key)) ∧
      ∀ call, Meets disk cache call → ∃ next, Step disk cache call next := by
  have sound := run.invariant_of_steps
    (fun calls cache => Sound disk (latest calls) cache ∧ Ordered cache) meets
    (sound_new files maxBytes)
    (fun _ _ _ _ _ sound meets move =>
      ⟨sound_step sound.1 sound.2 meets move, ordered_step sound.2 move⟩)
  refine ⟨sound.1.holds, fun call meetsCall => ?_⟩
  cases call with
  | registerWorkDir jobId workDir => exact ⟨_, .registerWorkDir jobId workDir⟩
  | store key data =>
      have ends : Ends disk cache key data := meetsCall.fits.imp_right fun alone =>
        Or.inl ((insertionOrder_forget_eq_nil sound.2).mp alone)
      rcases store_returns sound.2 sound.1.memory_eq ends with ⟨fuel, next, returned⟩
      exact ⟨next, .store returned⟩
  | load key => exact ⟨_, .load key⟩
  | remove key => exact ⟨_, .remove key⟩
  | clearJob jobId => exact ⟨_, .clearJob jobId⟩
  | setLimit bytes => exact ⟨_, .setLimit bytes⟩

/-- Two jobs store an article of the same name, and the first one is spilled and loaded again. -/
theorem cache_is_map_spilled : ∃ cache : ArticleCache String,
    (∃ path, cache.OnDisk (firstOf "a") path) ∧
      cache.load plainDisk (firstOf "a") = some (some [1, 2, 3]) ∧
      cache.load plainDisk (firstOf "b") = some (some [4, 5]) := by
  have run : Run (Step plainDisk) (new (fun _ => none) 4)
      ([] ++ [.registerWorkDir "a" "/a"] ++ [.store (firstOf "a") [1, 2, 3]] ++
        [.store (firstOf "b") [4, 5]]) _ :=
    ((Run.start.snoc (.registerWorkDir "a" "/a")).snoc
      (.store (rfl : store plainDisk 0 _ _ _ = _))).snoc
      (.store (rfl : store plainDisk 1 _ _ _ = _))
  have isMap := (cache_is_map (fun _ => rfl) run ?_).1
  · exact ⟨_, ⟨_, _, rfl, rfl⟩, isMap (firstOf "a"), isMap (firstOf "b")⟩
  refine ((Run.Always.nil.concat fun _ _ => trivial).concat fun cache before => ?_).concat
    fun cache before => ?_
  · rcases before.of_snoc with ⟨cache, none, move⟩
    cases none.eq_init
    cases move
    exact ⟨Or.inr rfl, fun overLimit => absurd rfl overLimit.2⟩
  · rcases before.of_snoc with ⟨cache, registered, move⟩
    rcases registered.of_snoc with ⟨cache, none, registers⟩
    cases none.eq_init
    cases registers
    rcases move with _ | @⟨_ | fuel, _, _, _, returned⟩
    all_goals
      cases Option.some.inj returned
      refine ⟨Or.inl (by decide), fun _ left right leftMem rightMem other => ?_⟩
      rw [List.mem_singleton.mp leftMem, List.mem_singleton.mp rightMem] at other
      exact absurd rfl other

/-- Three articles of the same name from jobs without a work directory, stored one by one in a
cache that holds one of them: the first load returns the second article. -/
theorem not_cache_is_map :
    ¬∀ (disk : Disk String) (files : String → Option Bytes) (maxBytes : ℕ)
      (calls : List CacheCall) (cache : ArticleCache String),
      (∀ path, disk.writable path = true) → Run (Step disk) (new files maxBytes) calls cache →
      ∀ key, cache.load disk key = some (latest calls key) := by
  intro always
  have run : Run (Step plainDisk) (new (fun _ => none) 1)
      [.store (firstOf "a") [1], .store (firstOf "b") [2], .store (firstOf "c") [3]] _ :=
    ((Run.start.snoc (.store (rfl : store plainDisk 3 _ _ _ = _))).snoc
      (.store (rfl : store plainDisk 3 _ _ _ = _))).snoc
      (.store (rfl : store plainDisk 3 _ _ _ = _))
  have loaded := always plainDisk _ _ _ _ (fun _ => rfl) run (firstOf "a")
  have other : (some (some [2]) : Option (Option Bytes)) = some (some [1]) := loaded
  simp at other

end ArticleCache

end Rustnzb.Decode
