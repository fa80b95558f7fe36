import Rustnzb.Lib.SortDedup
import Rustnzb.Web.HopelessTracker

/-!
# The byte tiers of the hopeless check

The other counters of `HopelessTracker`, which the parity tier does not read, and `check` with all
its tiers. What `check` computes in floating point, and how it prints it, is a parameter: each of it
is a function of counters and of the setting.
-/

namespace Rustnzb.Web

open Dispatch (FileId ArticleFailureKind)
open Lib (Tally)

def countsTowardHopeless (kind : ArticleFailureKind) : Bool :=
  kind = .notFound || kind = .decodeError

structure ContentCounters where
  contentBytes : ℕ
  contentBytesBySet : Tally String
  missingContentBySet : Tally String
  unassociatedMissingBytes : ℕ
  contentBytesMissing : ℕ
  contentArticlesChecked : ℕ
  contentArticlesFailed : ℕ
  contentArticlesTotal : ℕ

namespace ContentCounters

def empty : ContentCounters where
  contentBytes := 0
  contentBytesBySet := ∅
  missingContentBySet := ∅
  unassociatedMissingBytes := 0
  contentBytesMissing := 0
  contentArticlesChecked := 0
  contentArticlesFailed := 0
  contentArticlesTotal := 0

def addFile (files : List TrackedFile) (counters : ContentCounters) (file : TrackedFile) :
    ContentCounters :=
  if file.isPar2 then counters
  else
    { counters with
      contentBytes := counters.contentBytes + file.bytes
      contentArticlesTotal := counters.contentArticlesTotal + file.articles.length
      contentBytesBySet :=
        match HopelessTracker.associatedSet files file with
        | some setName => counters.contentBytesBySet.bump setName file.bytes
        | none => counters.contentBytesBySet }

def recordSuccess (counters : ContentCounters) (isPar2 : Bool) : ContentCounters :=
  if isPar2 then counters
  else { counters with contentArticlesChecked := counters.contentArticlesChecked + 1 }

/-- `known` is the set that the file is taken to belong to, if the tracker knows the file. -/
def recordFailure (counters : ContentCounters) (known : Option (Option String)) (isPar2 : Bool)
    (estimatedBytes : ℕ) (kind : ArticleFailureKind) : ContentCounters :=
  if isPar2 then counters
  else
    let counters := { counters with
      contentArticlesChecked := counters.contentArticlesChecked + 1 }
    if countsTowardHopeless kind then
      let counters := { counters with
        contentArticlesFailed := counters.contentArticlesFailed + 1
        contentBytesMissing := counters.contentBytesMissing + estimatedBytes }
      match known with
      | some (some setName) =>
          { counters with
            missingContentBySet := counters.missingContentBySet.bump setName estimatedBytes }
      | _ =>
          { counters with
            unassociatedMissingBytes := counters.unassociatedMissingBytes + estimatedBytes }
    else counters

def reclassify (counters : ContentCounters) (known : Option (Option String)) (fileBytes : ℕ)
    (articleCount : ℕ) : ContentCounters :=
  { counters with
    contentBytes := counters.contentBytes - fileBytes
    contentArticlesTotal := counters.contentArticlesTotal - articleCount
    contentBytesBySet :=
      match known with
      | some (some oldSet) =>
          match counters.contentBytesBySet.lookup oldSet with
          | some bytes => counters.contentBytesBySet.insert oldSet (bytes - fileBytes)
          | none => counters.contentBytesBySet
      | _ => counters.contentBytesBySet }

end ContentCounters

structure JobTracker where
  parity : HopelessTracker
  content : ContentCounters

/-- What `check` computes in floating point. -/
structure Floats (Pct : Type*) where
  required : Pct → ℕ → ℕ
  rateReached : ℕ → ℕ → Bool
  projected : ℕ → ℕ → ℕ → ℕ
  ratePercent : ℕ → ℕ → String
  availability : ℕ → ℕ → String
  percent : Pct → String

def hopelessGraceArticles : ℕ := 5
def earlyCheckMinArticles : ℕ := 10

namespace JobTracker

def new (files : List TrackedFile) : JobTracker where
  parity := .new files
  content := files.foldl (ContentCounters.addFile files) .empty

def recordSuccess (tracker : JobTracker) (isPar2 : Bool) : JobTracker :=
  { tracker with content := tracker.content.recordSuccess isPar2 }

def recordFileFailure (tracker : JobTracker) (fileId : Option FileId) (isPar2 : Bool)
    (estimatedBytes : ℕ) (kind : ArticleFailureKind) : JobTracker where
  parity := tracker.parity.recordFileFailure fileId isPar2 estimatedBytes kind
  content :=
    tracker.content.recordFailure (fileId.bind tracker.parity.contentFileSets.lookup) isPar2
    estimatedBytes kind

def reclassifyAsPar2 (tracker : JobTracker) (fileId : FileId) (fileBytes articleCount : ℕ)
    (volume blocks : Option ℕ) (setName : Option String) : JobTracker where
  parity := tracker.parity.reclassifyAsPar2 fileId fileBytes volume blocks setName
  content := tracker.content.reclassify (tracker.parity.contentFileSets.lookup fileId) fileBytes
    articleCount

def markFileClassified (tracker : JobTracker) (fileId : FileId) : JobTracker :=
  { tracker with parity := tracker.parity.markFileClassified fileId }

section Check

variable {Pct : Type*} (floats : Floats Pct) (tracker : JobTracker) (requiredPct : Pct)

def usableRecoveryBytes : ℕ :=
  tracker.parity.recoveryCapacityBytes - tracker.parity.recoveryBytesUnavailable

/-- Tier 2: most of the checked articles failed. -/
def earlyFailure : Option HopelessAbort :=
  let failed := tracker.content.contentArticlesFailed
  let checked := tracker.content.contentArticlesChecked
  let projected := floats.projected tracker.content.contentBytes failed checked
  let reserve := floats.required requiredPct tracker.content.contentBytes -
    tracker.content.contentBytes
  if floats.rateReached failed checked && tracker.usableRecoveryBytes < projected + reserve then
    some {
      tier := "early_failure"
      reason := s!"Aborted: {floats.ratePercent failed checked}% of {checked} checked articles " ++
        s!"missing ({failed} of {checked} failed); projected damage {projected} bytes exceeds " ++
        s!"{tracker.usableRecoveryBytes} usable recovery bytes plus reserve" }
  else none

/-- One set of the loop over the sets with recovery volumes or missing content. -/
def setAvailability (setName : String) : Option HopelessAbort :=
  let usable := tracker.parity.recoveryCapacityBySet.count setName -
    tracker.parity.recoveryUnavailableBySet.count setName
  let missing := tracker.content.missingContentBySet.count setName
  if missing = 0 then none
  else
    let content := tracker.content.contentBytesBySet.count setName
    let reserve := floats.required requiredPct content - content
    if usable < missing + reserve then
      some {
        tier := "set_availability"
        reason := s!"Aborted: PAR2 set \"{setName}\" cannot repair its damage: {missing} " ++
          s!"missing content bytes, {usable} usable recovery bytes, {reserve} bytes safety " ++
          s!"reserve at {floats.percent requiredPct}%" }
    else none

/-- Tier 3: content and usable recovery data together. -/
def ongoingAvailability : Option HopelessAbort :=
  let bytes := tracker.content.contentBytes
  let effective := (bytes - tracker.content.contentBytesMissing) + tracker.usableRecoveryBytes
  if floats.required requiredPct bytes ≤ effective then none
  else if 0 < bytes then
    some {
      tier := "ongoing_availability"
      reason :=
        s!"Aborted: effective completion {floats.availability effective bytes}% is below " ++
        s!"{floats.percent requiredPct}%: {tracker.content.contentBytesMissing} missing content " ++
        s!"bytes in {tracker.content.contentArticlesFailed} of " ++
        s!"{tracker.content.contentArticlesTotal} articles, " ++
        s!"{tracker.usableRecoveryBytes} usable " ++
        s!"recovery bytes ({tracker.parity.recoveryBlocksUnavailable} of " ++
        s!"{tracker.parity.recoveryBlocksTotal} recovery blocks unavailable)" }
  else none

def setNames : List String :=
  Lib.sortDedup (tracker.parity.recoveryCapacityBySet.keys ++
    tracker.content.missingContentBySet.keys)

def check (abortHopeless earlyFailureCheck : Bool) : Option HopelessAbort :=
  if !abortHopeless then none
  else if let some abort := tracker.parity.parityTier abortHopeless then some abort
  else if tracker.parity.hasPar2Set && tracker.parity.recoveryBlocksKnown then none
  else if tracker.content.contentArticlesFailed ≤ hopelessGraceArticles then none
  else if !tracker.parity.pendingFileClassifications.isEmpty then none
  else
    let early :=
      if earlyFailureCheck && earlyCheckMinArticles ≤ tracker.content.contentArticlesChecked then
        tracker.earlyFailure floats requiredPct
      else none
    if let some abort := early then some abort
    else if !tracker.parity.recoveryCapacityBySet.keys.isEmpty then
      if 0 < tracker.content.unassociatedMissingBytes then none
      else tracker.setNames.findSome? (tracker.setAvailability floats requiredPct)
    else tracker.ongoingAvailability floats requiredPct

end Check

end JobTracker

/-! ## What can be read of a tracker -/

/-- A tracker with its maps as functions and its set as a predicate: no iteration order. -/
structure Reading where
  recoveryCapacityBytes : ℕ
  recoveryBlocksTotal : ℕ
  recoveryBytesUnavailable : ℕ
  recoveryBlocksUnavailable : ℕ
  recoveryCapacityBySet : String → Option ℕ
  recoveryUnavailableBySet : String → Option ℕ
  recoveryBlocksBySet : String → Option ℕ
  sliceSizeBoundBySet : String → Option ℕ
  sliceSizeBound : ℕ
  contentFileSets : FileId → Option (Option String)
  pendingFileClassifications : FileId → Prop
  hasPar2Set : Bool
  recoveryBlocksKnown : Bool
  confirmedMissingFiles : FileId → Option ℕ
  confirmedMissingUnattributed : ℕ
  contentBytes : ℕ
  contentBytesBySet : String → Option ℕ
  missingContentBySet : String → Option ℕ
  unassociatedMissingBytes : ℕ
  contentBytesMissing : ℕ
  contentArticlesChecked : ℕ
  contentArticlesFailed : ℕ
  contentArticlesTotal : ℕ

namespace JobTracker

def reading (tracker : JobTracker) : Reading where
  recoveryCapacityBytes := tracker.parity.recoveryCapacityBytes
  recoveryBlocksTotal := tracker.parity.recoveryBlocksTotal
  recoveryBytesUnavailable := tracker.parity.recoveryBytesUnavailable
  recoveryBlocksUnavailable := tracker.parity.recoveryBlocksUnavailable
  recoveryCapacityBySet setName := tracker.parity.recoveryCapacityBySet.lookup setName
  recoveryUnavailableBySet setName := tracker.parity.recoveryUnavailableBySet.lookup setName
  recoveryBlocksBySet setName := tracker.parity.recoveryBlocksBySet.lookup setName
  sliceSizeBoundBySet setName := tracker.parity.sliceSizeBoundBySet.lookup setName
  sliceSizeBound := tracker.parity.sliceSizeBound
  contentFileSets fileId := tracker.parity.contentFileSets.lookup fileId
  pendingFileClassifications fileId := fileId ∈ tracker.parity.pendingFileClassifications
  hasPar2Set := tracker.parity.hasPar2Set
  recoveryBlocksKnown := tracker.parity.recoveryBlocksKnown
  confirmedMissingFiles fileId := tracker.parity.confirmedMissingFiles.lookup fileId
  confirmedMissingUnattributed := tracker.parity.confirmedMissingUnattributed
  contentBytes := tracker.content.contentBytes
  contentBytesBySet setName := tracker.content.contentBytesBySet.lookup setName
  missingContentBySet setName := tracker.content.missingContentBySet.lookup setName
  unassociatedMissingBytes := tracker.content.unassociatedMissingBytes
  contentBytesMissing := tracker.content.contentBytesMissing
  contentArticlesChecked := tracker.content.contentArticlesChecked
  contentArticlesFailed := tracker.content.contentArticlesFailed
  contentArticlesTotal := tracker.content.contentArticlesTotal

variable {first second : JobTracker}

theorem damagedSlicesLowerBound_congr (alike : first.reading = second.reading) :
    first.parity.damagedSlicesLowerBound = second.parity.damagedSlicesLowerBound := by
  have entries := Tally.perm_entries (congrFun (congrArg Reading.confirmedMissingFiles alike))
  have bound : first.parity.sliceSizeBound = second.parity.sliceSizeBound :=
    congrArg Reading.sliceSizeBound alike
  have unattributed : first.parity.confirmedMissingUnattributed =
      second.parity.confirmedMissingUnattributed :=
    congrArg Reading.confirmedMissingUnattributed alike
  rw [HopelessTracker.damagedSlicesLowerBound, HopelessTracker.damagedSlicesLowerBound, bound,
    unattributed, (entries.map _).sum_eq]

theorem count_congr {counts others : Tally String} {key : String}
    (alike : counts.lookup key = others.lookup key) : counts.count key = others.count key := by
  rw [Tally.count, Tally.count, alike]

theorem setRecoveryBlocksAvailable_congr (alike : first.reading = second.reading)
    (setName : String) :
    first.parity.setRecoveryBlocksAvailable setName =
      second.parity.setRecoveryBlocksAvailable setName := by
  have blocks := count_congr (congrFun (congrArg Reading.recoveryBlocksBySet alike) setName)
  have capacity := count_congr (congrFun (congrArg Reading.recoveryCapacityBySet alike) setName)
  have unavailable :=
    count_congr (congrFun (congrArg Reading.recoveryUnavailableBySet alike) setName)
  rw [HopelessTracker.setRecoveryBlocksAvailable, HopelessTracker.setRecoveryBlocksAvailable,
    blocks, capacity, unavailable]

theorem boundedSet_congr (alike : first.reading = second.reading) :
    first.parity.boundedSet = second.parity.boundedSet := by
  funext fileId
  have sets := congrFun (congrArg Reading.contentFileSets alike) fileId
  simp only [reading] at sets
  rw [HopelessTracker.boundedSet, HopelessTracker.boundedSet, sets]
  split
  next setName found =>
    have bound := congrFun (congrArg Reading.sliceSizeBoundBySet alike) setName
    simp only [reading] at bound
    rw [bound]
  · rfl

theorem mergeSort_entries_congr (counts others : Tally String)
    (alike : ∀ key, counts.lookup key = others.lookup key) :
    (counts.entries.mergeSort fun left right => left.1 ≤ right.1) =
      others.entries.mergeSort fun left right => left.1 ≤ right.1 := by
  have perm := Tally.perm_entries alike
  have total : Std.Total fun left right : Sigma fun _ : String => ℕ => left.1 ≤ right.1 :=
    ⟨fun left right => le_total left.1 right.1⟩
  have trans : IsTrans (Sigma fun _ : String => ℕ) fun left right => left.1 ≤ right.1 :=
    ⟨fun _ _ _ => le_trans⟩
  have sorted := List.pairwise_mergeSort' fun left right : Sigma fun _ : String => ℕ =>
    left.1 ≤ right.1
  have perms := ((List.mergeSort_perm counts.entries fun left right => left.1 ≤ right.1).trans
    perm).trans (List.mergeSort_perm others.entries fun left right => left.1 ≤ right.1).symm
  refine perms.eq_of_pairwise ?_ (sorted _) (sorted _)
  rintro ⟨leftKey, left⟩ ⟨rightKey, right⟩ leftMem rightMem le ge
  obtain rfl : leftKey = rightKey := le_antisymm le ge
  have leftMem := AList.mem_lookup_iff.mpr ((List.mergeSort_perm _ _).mem_iff.mp leftMem)
  have rightMem := AList.mem_lookup_iff.mpr ((List.mergeSort_perm _ _).mem_iff.mp rightMem)
  rw [← alike] at rightMem
  rw [Option.mem_unique leftMem rightMem]

theorem isEmpty_pending_congr (alike : first.reading = second.reading) :
    first.parity.pendingFileClassifications.isEmpty =
      second.parity.pendingFileClassifications.isEmpty := by
  have pending := congrArg Reading.pendingFileClassifications alike
  simp only [reading, funext_iff, eq_iff_iff] at pending
  rw [Bool.eq_iff_iff, List.isEmpty_iff, List.isEmpty_iff, List.eq_nil_iff_forall_not_mem,
    List.eq_nil_iff_forall_not_mem]
  simp only [pending]

theorem parityTier_congr (alike : first.reading = second.reading) (abortHopeless : Bool) :
    first.parity.parityTier abortHopeless = second.parity.parityTier abortHopeless := by
  have known : first.parity.recoveryBlocksKnown = second.parity.recoveryBlocksKnown :=
    congrArg Reading.recoveryBlocksKnown alike
  have hasSet : first.parity.hasPar2Set = second.parity.hasPar2Set :=
    congrArg Reading.hasPar2Set alike
  have total : first.parity.recoveryBlocksTotal = second.parity.recoveryBlocksTotal :=
    congrArg Reading.recoveryBlocksTotal alike
  have unavailable : first.parity.recoveryBlocksUnavailable =
      second.parity.recoveryBlocksUnavailable :=
    congrArg Reading.recoveryBlocksUnavailable alike
  have pending := isEmpty_pending_congr alike
  have holes := Tally.perm_entries (congrFun (congrArg Reading.confirmedMissingFiles alike))
  have damaged := mergeSort_entries_congr first.parity.damagedBySet second.parity.damagedBySet
    fun key => by
      rw [HopelessTracker.damagedBySet, HopelessTracker.damagedBySet, boundedSet_congr alike]
      exact Tally.lookup_fill_of_perm holes
  have blocks : first.parity.recoveryBlocksAvailable = second.parity.recoveryBlocksAvailable := by
    rw [HopelessTracker.recoveryBlocksAvailable, HopelessTracker.recoveryBlocksAvailable, total,
      unavailable]
  have parity : first.parity.parityCheck = second.parity.parityCheck := by
    simp only [HopelessTracker.parityCheck, known, blocks, damaged,
      damagedSlicesLowerBound_congr alike, setRecoveryBlocksAvailable_congr alike]
  rw [HopelessTracker.parityTier, HopelessTracker.parityTier, hasSet, pending, parity]

theorem mem_keys_congr {counts others : Tally String}
    (alike : ∀ key, counts.lookup key = others.lookup key) (key : String) :
    key ∈ counts.keys ↔ key ∈ others.keys := by
  rw [← AList.mem_keys, ← AList.mem_keys, ← AList.lookup_isSome, ← AList.lookup_isSome, alike]

theorem check_congr {Pct : Type*} (floats : Floats Pct) (requiredPct : Pct)
    (alike : first.reading = second.reading) (abortHopeless earlyFailureCheck : Bool) :
    first.check floats requiredPct abortHopeless earlyFailureCheck =
      second.check floats requiredPct abortHopeless earlyFailureCheck := by
  have capacities := congrFun (congrArg Reading.recoveryCapacityBySet alike)
  have unavailables := congrFun (congrArg Reading.recoveryUnavailableBySet alike)
  have missings := congrFun (congrArg Reading.missingContentBySet alike)
  have contents := congrFun (congrArg Reading.contentBytesBySet alike)
  have keys := mem_keys_congr capacities
  have empty : first.parity.recoveryCapacityBySet.keys.isEmpty =
      second.parity.recoveryCapacityBySet.keys.isEmpty := by
    rw [Bool.eq_iff_iff, List.isEmpty_iff, List.isEmpty_iff, List.eq_nil_iff_forall_not_mem,
      List.eq_nil_iff_forall_not_mem]
    simp only [keys]
  have names : first.setNames = second.setNames := by
    apply Lib.sortDedup_congr
    intro name
    rw [List.mem_append, List.mem_append, keys, mem_keys_congr missings]
  have sets : first.setAvailability floats requiredPct =
      second.setAvailability floats requiredPct := by
    funext setName
    have capacity := count_congr (capacities setName)
    have unavailable := count_congr (unavailables setName)
    have missing := count_congr (missings setName)
    have content := count_congr (contents setName)
    simp only [setAvailability, capacity, unavailable, missing, content]
  have parity := parityTier_congr alike abortHopeless
  have pending := isEmpty_pending_congr alike
  simp only [reading, Reading.mk.injEq] at alike
  rcases alike with ⟨capacityBytes, blocksTotal, bytesUnavailable, blocksUnavailable, -, -, -, -, -,
    -, -, hasSet, known, -, -, contentBytes, -, -, unassociated, bytesMissing, checked, failed,
    total⟩
  have usable : first.usableRecoveryBytes = second.usableRecoveryBytes := by
    rw [usableRecoveryBytes, usableRecoveryBytes, capacityBytes, bytesUnavailable]
  have early : first.earlyFailure floats requiredPct = second.earlyFailure floats requiredPct := by
    unfold earlyFailure
    rw [failed, checked, contentBytes, usable]
  have ongoing : first.ongoingAvailability floats requiredPct =
      second.ongoingAvailability floats requiredPct := by
    unfold ongoingAvailability
    rw [contentBytes, bytesMissing, failed, total, usable, blocksUnavailable, blocksTotal]
  unfold check
  rw [parity, hasSet, known, failed, pending, checked, early, empty, unassociated, names, sets,
    ongoing]

end JobTracker

end Rustnzb.Web
