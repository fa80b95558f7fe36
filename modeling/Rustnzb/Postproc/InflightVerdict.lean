import Rustnzb.Postproc.Rename

/-!
# Trusting the slice map

The map says nothing of names: it is given to the one set whose slice count fits, and a file of that
set is looked up on disk by its PAR2 name. With a map that is sound for its set, the verdict is
that of the disk if each file that the map decides lies there under its PAR2 name as the file that
the download's tracker had mapped to it, or as one whose slices fail at the same places.
-/

namespace Rustnzb.Postproc

open Decode (Bytes Hashes)

/-- The map is right about the files that the tracker mapped to the files of `set`. -/
structure Sound (hashes : Hashes) (set : Par2FileSet) (map : SliceMapSummary)
    (tracked : ℕ → Option Bytes) : Prop where
  length : map.states.length = totalSlices set
  verified : ∀ n share, (set.shares map)[n]? = some share →
    ∀ i, share.2[i]? = some .verified →
      ∃ bytes, tracked n = some bytes ∧ sliceFails hashes share.1 set.sliceSize bytes i = false
  damaged : ∀ n share, (set.shares map)[n]? = some share →
    ∀ i, share.2[i]? = some .damaged →
      ∃ bytes, tracked n = some bytes ∧ sliceFails hashes share.1 set.sliceSize bytes i = true

/-- Each file of `set` that the map decides, and that is on disk at its PAR2 size, fails there at
the same slices as the file that the tracker mapped to it. -/
def Placed (hashes : Hashes) (set : Par2FileSet) (map : SliceMapSummary)
    (tracked : ℕ → Option Bytes) (dir : Dir) : Prop :=
  ∀ n share, (set.shares map)[n]? = some share → trusts dir share.1 share.2 = true →
    ∀ onDisk, dir.read share.1.filename = some onDisk → ∀ bytes, tracked n = some bytes →
      failing hashes share.1 set.sliceSize onDisk = failing hashes share.1 set.sliceSize bytes

/-- Every set gets the same verdict with the map chosen for it as without a map. -/
def Agrees (crate : Par2Crate) (fileSets : List Par2FileSet) (config : PostProcConfig)
    (dir : Dir) : Prop :=
  ∀ (k : ℕ) set map, fileSets[k]? = some set →
    (mapsForSets fileSets config)[k]? = some map →
      (verifySet crate set dir map).result.Same (verifySet crate set dir none).result

/-- The map is used, because one set alone fits it, and the files of the set it was built from are
where it takes them to be. -/
def PlacedIfUsed (hashes : Hashes) (fileSets : List Par2FileSet) (config : PostProcConfig)
    (built : Par2FileSet) (tracked : ℕ → Option Bytes) (dir : Dir) : Prop :=
  ∀ map, config.sliceMap = some map → config.trustInflightVerify = true →
    mapFits built map = true → (fileSets.filter fun set => mapFits set map).length = 1 →
      Placed hashes built map tracked dir

theorem VerifyResult.Same.refl (result : VerifyResult) : result.Same result :=
  ⟨.refl _, .refl _, .refl _, rfl⟩

section Shares

variable {sliceSize : ℕ} {states : List SliceVerdict}

theorem length_of_mem_shares {start : ℕ} {files : List Par2File}
    (enough : start + (files.map fun file => sliceCount file sliceSize).sum ≤ states.length)
    {share : Par2File × List SliceVerdict} (mem : share ∈ shares sliceSize states start files) :
    share.2.length = sliceCount share.1 sliceSize := by
  induction files generalizing start with
  | nil => simp [shares] at mem
  | cons file files ih =>
      simp only [List.map_cons, List.sum_cons] at enough
      simp only [shares, List.mem_cons] at mem
      rcases mem with rfl | later
      · simp only [List.length_take, List.length_drop]
        omega
      · exact ih (by omega) later

end Shares

section Reports

variable {hashes : Hashes} {set : Par2FileSet} {map : SliceMapSummary}
  {tracked : ℕ → Option Bytes} {dir : Dir}

variable {share : Par2File × List SliceVerdict}

theorem Sound.badOf_eq (sound : Sound hashes set map tracked) {n : ℕ}
    (given : (set.shares map)[n]? = some share) (decided : share.2.contains .unknown = false)
    {bytes : Bytes} (mapped : tracked n = some bytes) :
    badOf share.2 = failing hashes share.1 set.sliceSize bytes := by
  have length : share.2.length = sliceCount share.1 set.sliceSize := by
    apply length_of_mem_shares _ (List.mem_of_getElem? given)
    rw [sound.length, totalSlices, Nat.zero_add]
  simp only [badOf, failing, length]
  congr 1
  apply List.filter_congr
  intro i inRange
  have bound : i < share.2.length := by
    rw [length]
    exact List.mem_range.mp inRange
  have known : share.2[i] ≠ .unknown := by
    intro isUnknown
    have : SliceVerdict.unknown ∈ share.2 := isUnknown ▸ List.getElem_mem bound
    simp [this] at decided
  have here : share.2[i]? = some share.2[i] := List.getElem?_eq_getElem bound
  rcases verdict : share.2[i] with _ | _ | _
  · exact absurd verdict known
  · rw [verdict] at here
    rcases sound.verified n share given i here with ⟨other, otherMapped, passes⟩
    rw [mapped, Option.some.injEq] at otherMapped
    subst otherMapped
    simp [here, passes]
  · rw [verdict] at here
    rcases sound.damaged n share given i here with ⟨other, otherMapped, fails⟩
    rw [mapped, Option.some.injEq] at otherMapped
    subst otherMapped
    simp [here, fails]

theorem Sound.mapped_or_empty (sound : Sound hashes set map tracked) {n : ℕ}
    (given : (set.shares map)[n]? = some share) (decided : share.2.contains .unknown = false) :
    (∃ bytes, tracked n = some bytes) ∨ sliceCount share.1 set.sliceSize = 0 := by
  have length : share.2.length = sliceCount share.1 set.sliceSize := by
    apply length_of_mem_shares _ (List.mem_of_getElem? given)
    rw [sound.length, totalSlices, Nat.zero_add]
  rcases first : share.2 with _ | ⟨state, states⟩
  · right
    rw [← length, first]
    rfl
  · left
    have here : share.2[0]? = some state := by
      rw [first]
      rfl
    rcases state with _ | _ | _
    · simp [first] at decided
    · rcases sound.verified n share given 0 here with ⟨bytes, mapped, _⟩
      exact ⟨bytes, mapped⟩
    · rcases sound.damaged n share given 0 here with ⟨bytes, mapped, _⟩
      exact ⟨bytes, mapped⟩

theorem read_of_trusts {file : Par2File} {states : List SliceVerdict}
    (trusted : trusts dir file states = true) :
    states.contains .unknown = false ∧
      ∃ onDisk, dir.read file.filename = some onDisk ∧ onDisk.length = file.size := by
  simpa [trusts] using trusted

variable {crate : Par2Crate} {report : ℕ → Par2File → Option Bytes → FileReport}
  {available : Id16 → ℕ → ℕ → Dir → ℕ}

theorem reports_eq_iff (reports : crate.Reports hashes report available)
    (sound : Sound hashes set map tracked) {n : ℕ} (given : (set.shares map)[n]? = some share)
    (trusted : trusts dir share.1 share.2 = true) :
    mapReport set.sliceSize share = diskReport report set.sliceSize dir share.1 ↔
      ∀ onDisk, dir.read share.1.filename = some onDisk → ∀ bytes, tracked n = some bytes →
        failing hashes share.1 set.sliceSize onDisk =
          failing hashes share.1 set.sliceSize bytes := by
  rcases read_of_trusts trusted with ⟨decided, onDisk, found, size⟩
  have fromDisk : diskReport report set.sliceSize dir share.1 =
      .ofBad share.1 set.sliceSize (failing hashes share.1 set.sliceSize onDisk) := by
    simp only [diskReport, found]
    exact reports.exact set.sliceSize share.1 onDisk size
  rw [mapReport, fromDisk, (FileReport.ofBad_injective share.1 set.sliceSize).eq_iff]
  constructor
  · intro same other otherFound bytes mapped
    rw [found, Option.some.injEq] at otherFound
    subst otherFound
    rw [← same, sound.badOf_eq given decided mapped]
  · intro same
    rcases sound.mapped_or_empty given decided with ⟨bytes, mapped⟩ | empty
    · rw [same onDisk found bytes mapped, sound.badOf_eq given decided mapped]
    · have length := length_of_mem_shares
        (by rw [sound.length, totalSlices, Nat.zero_add]) (List.mem_of_getElem? given)
      simp [badOf, failing, empty, length]

end Reports

theorem eq_of_perm_map {α β κ : Type} (key : β → κ) {f g : α → β} {items : List α}
    (apart : (items.map fun item => key (f item)).Nodup)
    (sameKey : ∀ item ∈ items, key (g item) = key (f item))
    (same : (items.map f).Perm (items.map g)) : ∀ item ∈ items, f item = g item := by
  intro item mem
  rcases List.mem_map.mp (same.subset (List.mem_map_of_mem mem)) with ⟨other, otherMem, reached⟩
  have keys : key (f other) = key (f item) := by
    rw [← sameKey other otherMem, reached]
  have : other = item := List.inj_on_of_nodup_map apart otherMem mem keys
  rw [← reached, this]

section Choice

variable {fileSets : List Par2FileSet} {config : PostProcConfig}

theorem length_filter_mapFits (map : SliceMapSummary) :
    ((fileSets.map fun set => mapFits set map).filter id).length =
      (fileSets.filter fun set => mapFits set map).length := by
  rw [List.filter_map, List.length_map]
  rfl

theorem getElem?_mapsForSets {k : ℕ} {set : Par2FileSet} {map : SliceMapSummary}
    (there : fileSets[k]? = some set) :
    (mapsForSets fileSets config)[k]? = some (some map) ↔
      config.sliceMap = some map ∧ config.trustInflightVerify = true ∧ mapFits set map = true ∧
        (fileSets.filter fun set => mapFits set map).length = 1 := by
  simp only [mapsForSets, List.getElem?_map, there, Option.map_some]
  rcases config.sliceMap with _ | given
  · simp
  · rcases config.trustInflightVerify with _ | _
    · simp
    · simp only [Option.filter_some, if_true, Option.any_some, length_filter_mapFits]
      constructor
      · intro chosen
        split at chosen
        next used =>
          simp only [Option.some.injEq] at chosen
          subst chosen
          simpa using used
        · simp at chosen
      · rintro ⟨same, _, fits, unique⟩
        simp only [Option.some.injEq] at same
        subst same
        simp [fits, unique]

theorem eq_of_length_filter_eq_one {α : Type} {test : α → Bool} {items : List α}
    (one : (items.filter test).length = 1) {first second : α} (firstMem : first ∈ items)
    (firstPasses : test first = true) (secondMem : second ∈ items)
    (secondPasses : test second = true) : first = second := by
  rcases List.length_eq_one_iff.mp one with ⟨only, kept⟩
  have firstKept : first ∈ items.filter test := List.mem_filter.mpr ⟨firstMem, firstPasses⟩
  have secondKept : second ∈ items.filter test := List.mem_filter.mpr ⟨secondMem, secondPasses⟩
  rw [kept, List.mem_singleton] at firstKept secondKept
  rw [firstKept, secondKept]

end Choice

section Verdict

variable {hashes : Hashes} {crate : Par2Crate}
  {report : ℕ → Par2File → Option Bytes → FileReport} {available : Id16 → ℕ → ℕ → Dir → ℕ}
  {fileSets : List Par2FileSet} {config : PostProcConfig} {built : Par2FileSet}
  {tracked : ℕ → Option Bytes} {dir : Dir}

/-- No two files of `set` that the map decides share a PAR2 name. -/
def NamesApart (set : Par2FileSet) (dir : Dir) (map : SliceMapSummary) : Prop :=
  ((trustedShares set dir map).map fun share => share.1.filename).Nodup

variable {map : SliceMapSummary}

theorem exists_getElem?_of_mem_trustedShares {set : Par2FileSet}
    {share : Par2File × List SliceVerdict} (mem : share ∈ trustedShares set dir map) :
    trusts dir share.1 share.2 = true ∧ ∃ n : ℕ, (set.shares map)[n]? = some share := by
  rcases List.mem_filter.mp mem with ⟨given, trusted⟩
  exact ⟨trusted, List.mem_iff_getElem?.mp given⟩

theorem same_of_placed (reports : crate.Reports hashes report available)
    (sound : Sound hashes built map tracked) (fits : mapFits built map = true)
    (placed : Placed hashes built map tracked dir) :
    (verifySet crate built dir (some map)).result.Same
      (verifySet crate built dir none).result := by
  rw [same_verifySet_iff reports dir fits]
  apply List.Perm.of_eq
  apply List.map_congr_left
  intro share mem
  rcases exists_getElem?_of_mem_trustedShares mem with ⟨trusted, n, given⟩
  exact (reports_eq_iff reports sound given trusted).mpr (placed n share given trusted)

theorem placed_of_same (reports : crate.Reports hashes report available)
    (sound : Sound hashes built map tracked) (fits : mapFits built map = true)
    (apart : NamesApart built dir map) (same : (verifySet crate built dir (some map)).result.Same
      (verifySet crate built dir none).result) : Placed hashes built map tracked dir := by
  intro n share given trusted
  rw [same_verifySet_iff reports dir fits] at same
  rw [← reports_eq_iff reports sound given trusted]
  have keys : ∀ share : Par2File × List SliceVerdict,
      (mapReport built.sliceSize share).filename = share.1.filename := by
    intro share
    exact FileReport.filename_ofBad _ _ _
  refine eq_of_perm_map FileReport.filename ?_ ?_ same share ?_
  · simp only [keys]
    exact apart
  · intro other mem
    rcases exists_getElem?_of_mem_trustedShares mem with ⟨otherTrusted, _, _⟩
    rcases read_of_trusts otherTrusted with ⟨_, onDisk, found, size⟩
    rw [keys, diskReport, found, reports.exact built.sliceSize other.1 onDisk size]
    exact FileReport.filename_ofBad _ _ _
  · exact List.mem_filter.mpr ⟨List.mem_of_getElem? given, trusted⟩

/-- Before the rename passes: every file that has the PAR2 name of a file of `set`, or a claim to
it, fails at the same slices as the file that the tracker mapped to it. -/
def NoRival (hashes : Hashes) (fileSets : List Par2FileSet) (set : Par2FileSet)
    (map : SliceMapSummary) (tracked : ℕ → Option Bytes) (dir : Dir) : Prop :=
  ∀ (n : ℕ) share, (set.shares map)[n]? = some share → ∀ name onDisk, dir.read name = some onDisk →
    name = share.1.filename ∨ Claims hashes fileSets share.1.filename onDisk →
      ∀ bytes, tracked n = some bytes →
        failing hashes share.1 set.sliceSize onDisk = failing hashes share.1 set.sliceSize bytes

theorem placed_of_noRival (around : Surroundings)
    (noRival : NoRival hashes fileSets built map tracked dir) :
    Placed hashes built map tracked (renameAll hashes around fileSets dir) := by
  intro n share given _ onDisk found bytes mapped
  rcases settled_renameAll dir share.1.filename onDisk found with kept | ⟨claim, source, moved⟩
  · exact noRival n share given share.1.filename onDisk kept (.inl rfl) bytes mapped
  · exact noRival n share given source onDisk moved (.inr claim) bytes mapped

/-- Trusting the map gives every set the disk's verdict when its files are placed, and, for a set
whose decided files have names of their own, only then. They are when none had a rival before the
rename passes. -/
theorem verdict_of_trusted_map (around : Surroundings)
    (reports : crate.Reports hashes report available)
    (sound : ∀ map, config.sliceMap = some map → Sound hashes built map tracked)
    (present : built ∈ fileSets) (dir : Dir) :
    let after := renameAll hashes around fileSets dir
    (PlacedIfUsed hashes fileSets config built tracked after →
        Agrees crate fileSets config after) ∧
      ((∀ map, config.sliceMap = some map → NamesApart built after map) →
        Agrees crate fileSets config after →
          PlacedIfUsed hashes fileSets config built tracked after) ∧
      ((∀ map, config.sliceMap = some map → NoRival hashes fileSets built map tracked dir) →
        Agrees crate fileSets config after) := by
  intro after
  have enough : PlacedIfUsed hashes fileSets config built tracked after →
      Agrees crate fileSets config after := by
    intro placed k set chosen there given
    rcases chosen with _ | map
    · exact VerifyResult.Same.refl _
    · rcases (getElem?_mapsForSets there).mp given with ⟨same, trust, fits, unique⟩
      have builtFits : mapFits built map = true := by
        have total : 0 < totalSlices set ∧ totalSlices set = map.states.length := by
          simpa [mapFits] using fits
        have length := (sound map same).length
        simp only [mapFits, Bool.and_eq_true, decide_eq_true_eq]
        omega
      have own : set = built := eq_of_length_filter_eq_one unique (List.mem_of_getElem? there)
        fits present builtFits
      subst own
      exact same_of_placed reports (sound map same) fits (placed map same trust fits unique)
  refine ⟨enough, ?_, ?_⟩
  · intro apart agrees map same trust fits unique
    rcases List.mem_iff_getElem?.mp present with ⟨k, there⟩
    have given := (getElem?_mapsForSets there).mpr ⟨same, trust, fits, unique⟩
    exact placed_of_same reports (sound map same) fits (apart map same)
      (agrees k built (some map) there given)
  · intro noRival
    apply enough
    intro map same _ _ _
    exact placed_of_noRival around (noRival map same)

end Verdict

/-! ## A file under another's name -/

def firstByte : Hashes where
  md5 bytes := Vector.replicate 16 (bytes.headD 0)
  crc32 _ := 0

def exactReport (sliceSize : ℕ) (file : Par2File) : Option Bytes → FileReport
  | none =>
      .missing
        { filename := file.filename
          expectedSize := file.size
          blockCount := UInt32.ofNat (sliceCount file sliceSize) }
  | some bytes => .ofBad file sliceSize (failing firstByte file sliceSize bytes)

def exactCrate : Par2Crate where
  verify set dir :=
    let reports := set.orderedFiles.map (diskReport exactReport set.sliceSize dir)
    let result : VerifyResult :=
      { intact := reports.filterMap FileReport.intact?
        damaged := reports.filterMap FileReport.damaged?
        missing := reports.filterMap FileReport.missing?
        recoveryBlocksAvailable := 0
        repairPossible := false }
    { result with repairPossible := result.blocksNeeded ≤ result.recoveryBlocksAvailable }

theorem reports_exactCrate : exactCrate.Reports firstByte exactReport fun _ _ _ _ => 0 where
  exact _ _ _ _ := rfl
  intact _ _ := .refl _
  damaged _ _ := .refl _
  missing _ _ := .refl _
  recoveryBlocksAvailable _ _ := rfl
  repairPossible _ _ := rfl

def oneByteFile (fileId : Id16) (filename : String) (content : UInt8) : Par2File where
  fileId := fileId
  filename := filename.toList
  size := 1
  hash16k := firstByte.md5 [content]
  slices := [{ md5 := firstByte.md5 [content], crc32 := 0 }]

def smallSet : Par2FileSet where
  recoverySetId := 1
  sliceSize := 4
  fileOrder := [10]
  files := [oneByteFile 10 "x.bin" 1]
  recoveryBlockCount := 0

/-- A set of two files, of which one has the name of the file of `smallSet`. -/
def largeSet : Par2FileSet where
  recoverySetId := 2
  sliceSize := 4
  fileOrder := [20, 21]
  files := [oneByteFile 20 "x.bin" 2, oneByteFile 21 "y.bin" 3]
  recoveryBlockCount := 0

def obfuscated : Dir := fun name =>
  if name = "aaa".toList then some (.file [1])
  else if name = "bbb".toList then some (.file [2])
  else if name = "ccc".toList then some (.file [3])
  else none

def listed : Surroundings where
  readDir _ := some ["aaa".toList, "bbb".toList, "ccc".toList]
  readable _ _ := true
  renames _ _ _ := true
  values := Par2FileSet.files
  values_perm _ := .refl _

def oneVerified : PostProcConfig where
  sliceMap := some { states := [.verified] }
  trustInflightVerify := true

def trackedFirst (n : ℕ) : Option Bytes :=
  if n = 0 then some [1] else none

theorem shares_smallSet : smallSet.shares { states := [.verified] } =
    [(oneByteFile 10 "x.bin" 1, [.verified])] := rfl

theorem sound_oneVerified (map : SliceMapSummary) (given : oneVerified.sliceMap = some map) :
    Sound firstByte smallSet map trackedFirst := by
  simp only [oneVerified, Option.some.injEq] at given
  subst given
  refine ⟨rfl, ?_, ?_⟩
  · intro n share here i verdict
    rw [shares_smallSet, List.getElem?_singleton] at here
    split at here
    next first =>
      simp only [Option.some.injEq] at here
      subst here
      rw [List.getElem?_singleton] at verdict
      split at verdict
      next zero =>
        subst zero first
        exact ⟨[1], rfl, by decide⟩
      · simp at verdict
    · simp at here
  · intro n share here i verdict
    rw [shares_smallSet, List.getElem?_singleton] at here
    split at here
    · simp only [Option.some.injEq] at here
      subst here
      rw [List.getElem?_singleton] at verdict
      split at verdict
      · simp at verdict
      · simp at verdict
    · simp at here

/-- The pass for the larger set gives `bbb` the name of the other set's file, and the pass for the
other set then renames nothing. -/
theorem not_agrees_shared_name :
    (∀ map, oneVerified.sliceMap = some map → Sound firstByte smallSet map trackedFirst) ∧
      smallSet ∈ [largeSet, smallSet] ∧
      exactCrate.Reports firstByte exactReport (fun _ _ _ _ => 0) ∧
      ¬Agrees exactCrate [largeSet, smallSet] oneVerified
        (renameAll firstByte listed [largeSet, smallSet] obfuscated) := by
  refine ⟨sound_oneVerified, by simp, reports_exactCrate, ?_⟩
  intro agrees
  have same := agrees 1 smallSet (some { states := [.verified] }) rfl rfl
  have count := same.intact.length_eq
  revert count
  decide

theorem verdict_of_trusted_map_small :
    Agrees exactCrate [smallSet] oneVerified
      (renameAll firstByte listed [smallSet] obfuscated) := by
  refine (verdict_of_trusted_map listed reports_exactCrate sound_oneVerified
    List.mem_cons_self obfuscated).2.2 ?_
  intro map given n share here name onDisk found rival bytes mapped
  simp only [oneVerified, Option.some.injEq] at given
  subst given
  rw [shares_smallSet, List.getElem?_singleton] at here
  split at here
  next first =>
    simp only [Option.some.injEq] at here
    subst here first
    simp only [trackedFirst, if_true, Option.some.injEq] at mapped
    subst mapped
    -- A rival would have to be called `x.bin` or begin with the byte 1.
    simp only [Dir.read, obfuscated] at found
    rcases rival with same | ⟨set, mem, file, fileMem, _, hash⟩
    · subst same
      simp [oneByteFile] at found
    · simp only [List.mem_singleton] at mem
      subst mem
      simp only [smallSet, List.mem_singleton] at fileMem
      subst fileMem
      split_ifs at found <;> simp only [Option.some.injEq] at found
      all_goals subst found
      · rfl
      · exact absurd hash (by decide)
      · exact absurd hash (by decide)
  · simp at here

end Rustnzb.Postproc
