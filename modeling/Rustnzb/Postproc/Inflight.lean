import Rustnzb.Postproc.Par2

/-!
# Verifying from the in-flight slice map

`verify_set` takes the files that the download's slice map decides from the map, hands the others
to the disk verifier and merges the two halves. Here are the two halves as one list of reports, and
what has to hold for the merged result to be the disk verifier's own.
-/

namespace Rustnzb.Postproc

open Decode (Bytes Hashes)

inductive SliceVerdict where
  | unknown
  | verified
  | damaged
  deriving DecidableEq

/-- One verdict per global slice, in Main-packet file order. -/
structure SliceMapSummary where
  states : List SliceVerdict

/-- Where a recovery set's verify result came from. -/
inductive VerifySource where
  | inFlight
  | partly
  | disk
  deriving DecidableEq

structure SetVerify where
  result : VerifyResult
  source : VerifySource
  bytesSkipped : ℕ
  bytesFromDisk : ℕ

def totalSlices (set : Par2FileSet) : ℕ :=
  (set.orderedFiles.map fun file => sliceCount file set.sliceSize).sum

/-- Whether `map` describes `set`: its slice count must match the set's. -/
def mapFits (set : Par2FileSet) (map : SliceMapSummary) : Bool :=
  0 < totalSlices set && totalSlices set = map.states.length

/-- A copy of `set` restricted to `keep` (file ids), for a partial disk pass. -/
def subset (set : Par2FileSet) (keep : List Id16) : Par2FileSet where
  recoverySetId := set.recoverySetId
  sliceSize := set.sliceSize
  fileOrder := keep
  files := keep.filterMap set.get
  recoveryBlockCount := set.recoveryBlockCount

/-- The accumulators of the loop of `verify_set`. -/
structure Pass where
  start : ℕ
  intact : List VerifiedFile
  damaged : List DamagedFile
  fromDisk : List Id16
  bytesSkipped : ℕ
  bytesFromDisk : ℕ

/-- The block indices of the slices called damaged by a file's share of the map. -/
def badOf (states : List SliceVerdict) : List UInt32 :=
  ((List.range states.length).filter fun i => states[i]? = some .damaged).map UInt32.ofNat

/-- A file's share of the map decides it, and it is on disk at its PAR2 size. -/
def trusts (dir : Dir) (file : Par2File) (states : List SliceVerdict) : Bool :=
  !states.contains .unknown && (dir.read file.filename).map List.length = some file.size

/-- One turn of the loop of `verify_set`. -/
def passFile (sliceSize : ℕ) (dir : Dir) (map : SliceMapSummary) (pass : Pass) (file : Par2File) :
    Pass :=
  let count := sliceCount file sliceSize
  let states := (map.states.drop pass.start).take count
  let pass := { pass with start := pass.start + count }
  if trusts dir file states then
    let pass := { pass with bytesSkipped := pass.bytesSkipped + file.size }
    let bad := badOf states
    if bad.isEmpty then
      { pass with
        intact := pass.intact ++ [{ filename := file.filename, size := file.size }] }
    else
      { pass with
        damaged := pass.damaged ++
          [{ filename := file.filename
             size := file.size
             damagedBlockCount := UInt32.ofNat bad.length
             totalBlockCount := UInt32.ofNat count
             damagedBlockIndices := bad }] }
  else
    { pass with
      fromDisk := pass.fromDisk ++ [file.fileId]
      bytesFromDisk := pass.bytesFromDisk + file.size }

def Pass.start0 : Pass where
  start := 0
  intact := []
  damaged := []
  fromDisk := []
  bytesSkipped := 0
  bytesFromDisk := 0

/-- The rest of `verify_set`, once `map` is known to describe `set`. The disk pass also counts the
recovery blocks in `dir`. -/
def verifyWithMap (crate : Par2Crate) (set : Par2FileSet) (dir : Dir) (map : SliceMapSummary) :
    SetVerify :=
  let pass := set.orderedFiles.foldl (passFile set.sliceSize dir map) .start0
  let disk := crate.verify (subset set pass.fromDisk) dir
  let result : VerifyResult :=
    { intact := pass.intact ++ disk.intact
      damaged := pass.damaged ++ disk.damaged
      missing := disk.missing
      recoveryBlocksAvailable := disk.recoveryBlocksAvailable
      repairPossible := false }
  { result := { result with
      repairPossible := result.blocksNeeded ≤ result.recoveryBlocksAvailable }
    source := if pass.fromDisk.isEmpty then .inFlight else .partly
    bytesSkipped := pass.bytesSkipped
    bytesFromDisk := pass.bytesFromDisk }

/-- Verify `set` in `dir`, trusting `map` for every file it fully decides. -/
def verifySet (crate : Par2Crate) (set : Par2FileSet) (dir : Dir)
    (map : Option SliceMapSummary) : SetVerify :=
  match map.filter (mapFits set) with
  | none =>
      { result := crate.verify set dir
        source := .disk
        bytesSkipped := 0
        bytesFromDisk := (set.orderedFiles.map Par2File.size).sum }
  | some map => verifyWithMap crate set dir map

structure PostProcConfig where
  sliceMap : Option SliceMapSummary
  trustInflightVerify : Bool

/-- Pick the in-flight slice map for each set. The map carries no recovery set id, so it is matched
by slice count, and only when exactly one set fits. -/
def mapsForSets (fileSets : List Par2FileSet) (config : PostProcConfig) :
    List (Option SliceMapSummary) :=
  let map := config.sliceMap.filter fun _ => config.trustInflightVerify
  let fits := fileSets.map fun set => map.any (mapFits set)
  let unique := (fits.filter id).length == 1
  fits.map fun fit => if fit && unique then map else none

section Subset

variable {set : Par2FileSet} {keep : List Id16}

theorem get_subset {id : Id16} (kept : id ∈ keep) : (subset set keep).get id = set.get id := by
  rcases found : set.get id with _ | file
  · simp only [Par2FileSet.get, subset, List.find?_eq_none, decide_eq_true_eq]
    intro other mem sameId
    rcases List.mem_filterMap.mp mem with ⟨otherId, _, otherFound⟩
    have := Par2FileSet.fileId_of_get otherFound
    rw [← this, sameId, found] at otherFound
    simp at otherFound
  · have isKept : file ∈ (subset set keep).files := List.mem_filterMap.mpr ⟨id, kept, found⟩
    have own := Par2FileSet.fileId_of_get found
    rcases first : (subset set keep).get id with _ | other
    · simp only [Par2FileSet.get, List.find?_eq_none, decide_eq_true_eq] at first
      exact absurd own (first file isKept)
    · have mem := List.mem_of_find?_eq_some first
      rcases List.mem_filterMap.mp mem with ⟨otherId, _, otherFound⟩
      have sameId := Par2FileSet.fileId_of_get otherFound
      have otherOwn := Par2FileSet.fileId_of_get first
      rw [← sameId, otherOwn, found] at otherFound
      exact otherFound.symm

theorem orderedFiles_subset : (subset set keep).orderedFiles = keep.filterMap set.get := by
  simp only [Par2FileSet.orderedFiles]
  exact List.filterMap_congr fun id kept => get_subset kept

end Subset

/-- Each file of a set with its share of the map's states from `start` on. -/
def shares (sliceSize : ℕ) (states : List SliceVerdict) :
    ℕ → List Par2File → List (Par2File × List SliceVerdict)
  | _, [] => []
  | start, file :: files =>
      (file, (states.drop start).take (sliceCount file sliceSize)) ::
        shares sliceSize states (start + sliceCount file sliceSize) files

@[simp]
theorem map_fst_shares (sliceSize : ℕ) (states : List SliceVerdict) (start : ℕ)
    (files : List Par2File) : (shares sliceSize states start files).map Prod.fst = files := by
  induction files generalizing start with
  | nil => rfl
  | cons file files ih => simp [shares, ih]

def mapReport (sliceSize : ℕ) (share : Par2File × List SliceVerdict) : FileReport :=
  .ofBad share.1 sliceSize (badOf share.2)

/-- The loop of `verify_set` splits the files by `trusts`, and reports those it trusts. -/
theorem pass_eq (sliceSize : ℕ) (dir : Dir) (map : SliceMapSummary) (files : List Par2File)
    (pass : Pass) :
    let result := files.foldl (passFile sliceSize dir map) pass
    let given := shares sliceSize map.states pass.start files
    let trusted := given.filter fun share => trusts dir share.1 share.2
    result.intact = pass.intact ++
        (trusted.map (mapReport sliceSize)).filterMap FileReport.intact? ∧
      result.damaged = pass.damaged ++
        (trusted.map (mapReport sliceSize)).filterMap FileReport.damaged? ∧
      result.fromDisk = pass.fromDisk ++
        (given.filter fun share => !trusts dir share.1 share.2).map fun share =>
          share.1.fileId := by
  induction files generalizing pass with
  | nil => simp [shares]
  | cons file files ih =>
      simp only [List.foldl_cons, shares, List.filter_cons]
      have next := ih (passFile sliceSize dir map pass file)
      have start : (passFile sliceSize dir map pass file).start =
          pass.start + sliceCount file sliceSize := by
        simp only [passFile]
        split
        · split <;> rfl
        · rfl
      rw [start] at next
      rcases next with ⟨intact, damaged, fromDisk⟩
      rw [intact, damaged, fromDisk]
      rcases trusted : trusts dir file
        ((map.states.drop pass.start).take (sliceCount file sliceSize)) with _ | _
      · simp [passFile, trusted]
      · rcases clean : (badOf
          ((map.states.drop pass.start).take (sliceCount file sliceSize))).isEmpty with _ | _
        · simp [passFile, trusted, mapReport, FileReport.ofBad, clean, List.filterMap_cons,
            FileReport.intact?, FileReport.damaged?]
        · simp [passFile, trusted, mapReport, FileReport.ofBad, clean, List.filterMap_cons,
            FileReport.intact?, FileReport.damaged?]

theorem verifySet_none (crate : Par2Crate) (set : Par2FileSet) (dir : Dir) :
    (verifySet crate set dir none).result = crate.verify set dir := rfl

theorem verifySet_some {crate : Par2Crate} {set : Par2FileSet} {dir : Dir}
    {map : SliceMapSummary} (fits : mapFits set map = true) :
    verifySet crate set dir (some map) = verifyWithMap crate set dir map := by
  simp only [verifySet, Option.filter_some, fits, if_true]

/-- The lists of a result are those of `reports`, up to order. -/
structure VerifyResult.Says (result : VerifyResult) (reports : List FileReport) : Prop where
  intact : result.intact.Perm (reports.filterMap FileReport.intact?)
  damaged : result.damaged.Perm (reports.filterMap FileReport.damaged?)
  missing : result.missing.Perm (reports.filterMap FileReport.missing?)

theorem VerifyResult.Says.of_perm {result : VerifyResult} {reports others : List FileReport}
    (said : result.Says reports) (same : reports.Perm others) : result.Says others where
  intact := said.intact.trans (same.filterMap _)
  damaged := said.damaged.trans (same.filterMap _)
  missing := said.missing.trans (same.filterMap _)

theorem VerifyResult.Says.perm_iff {left right : VerifyResult} {reports others : List FileReport}
    (leftSays : left.Says reports) (rightSays : right.Says others) :
    reports.Perm others ↔ left.intact.Perm right.intact ∧ left.damaged.Perm right.damaged ∧
      left.missing.Perm right.missing := by
  rw [FileReport.perm_iff]
  constructor
  · rintro ⟨intact, damaged, missing⟩
    exact ⟨leftSays.intact.trans (intact.trans rightSays.intact.symm),
      leftSays.damaged.trans (damaged.trans rightSays.damaged.symm),
      leftSays.missing.trans (missing.trans rightSays.missing.symm)⟩
  · rintro ⟨intact, damaged, missing⟩
    exact ⟨leftSays.intact.symm.trans (intact.trans rightSays.intact),
      leftSays.damaged.symm.trans (damaged.trans rightSays.damaged),
      leftSays.missing.symm.trans (missing.trans rightSays.missing)⟩

section Merge

variable {crate : Par2Crate} {hashes : Hashes} {report : ℕ → Par2File → Option Bytes → FileReport}
  {available : Id16 → ℕ → ℕ → Dir → ℕ} {set : Par2FileSet} {map : SliceMapSummary}

def Par2FileSet.shares (set : Par2FileSet) (map : SliceMapSummary) :
    List (Par2File × List SliceVerdict) :=
  Postproc.shares set.sliceSize map.states 0 set.orderedFiles

def trustedShares (set : Par2FileSet) (dir : Dir) (map : SliceMapSummary) :
    List (Par2File × List SliceVerdict) :=
  (set.shares map).filter fun share => trusts dir share.1 share.2

def otherFiles (set : Par2FileSet) (dir : Dir) (map : SliceMapSummary) : List Par2File :=
  ((set.shares map).filter fun share => !trusts dir share.1 share.2).map Prod.fst

def diskReport (report : ℕ → Par2File → Option Bytes → FileReport) (sliceSize : ℕ) (dir : Dir)
    (file : Par2File) : FileReport :=
  report sliceSize file (dir.read file.filename)

theorem map_fileId_get {files : List Par2File}
    (stored : ∀ file ∈ files, set.get file.fileId = some file) :
    (files.map Par2File.fileId).filterMap set.get = files := by
  induction files with
  | nil => rfl
  | cons file files ih =>
      rw [List.map_cons, List.filterMap_cons, stored file List.mem_cons_self,
        ih fun other mem => stored other (List.mem_cons_of_mem file mem)]

theorem mem_orderedFiles_of_mem_shares {share : Par2File × List SliceVerdict}
    (mem : share ∈ set.shares map) : share.1 ∈ set.orderedFiles := by
  rw [← map_fst_shares set.sliceSize map.states 0 set.orderedFiles]
  exact List.mem_map_of_mem mem

theorem get_of_mem_otherFiles {dir : Dir} {file : Par2File} (mem : file ∈ otherFiles set dir map) :
    set.get file.fileId = some file := by
  rcases List.mem_map.mp mem with ⟨share, given, rfl⟩
  exact Par2FileSet.get_of_mem_orderedFiles
    (mem_orderedFiles_of_mem_shares (List.mem_of_mem_filter given))

theorem says_disk (reports : crate.Reports hashes report available) (set : Par2FileSet)
    (dir : Dir) :
    (crate.verify set dir).Says (set.orderedFiles.map (diskReport report set.sliceSize dir)) where
  intact := reports.intact set dir
  damaged := reports.damaged set dir
  missing := reports.missing set dir

theorem perm_trusted_others (set : Par2FileSet) (dir : Dir) (map : SliceMapSummary) :
    set.orderedFiles.Perm
      ((trustedShares set dir map).map Prod.fst ++ otherFiles set dir map) := by
  have split := List.filter_append_perm (fun share => trusts dir share.1 share.2)
    (set.shares map)
  have files : (set.shares map).map Prod.fst = set.orderedFiles :=
    map_fst_shares set.sliceSize map.states 0 set.orderedFiles
  have mapped := split.map Prod.fst
  rw [List.map_append, files] at mapped
  exact mapped.symm

theorem says_verifySet (reports : crate.Reports hashes report available) (dir : Dir)
    (fits : mapFits set map = true) :
    (verifySet crate set dir (some map)).result.Says
      ((trustedShares set dir map).map (mapReport set.sliceSize) ++
        (otherFiles set dir map).map (diskReport report set.sliceSize dir)) := by
  have kept : (subset set ((otherFiles set dir map).map Par2File.fileId)).orderedFiles =
      otherFiles set dir map := by
    rw [orderedFiles_subset]
    exact map_fileId_get fun file mem => get_of_mem_otherFiles mem
  have disk := says_disk reports
    (subset set ((otherFiles set dir map).map Par2File.fileId)) dir
  rw [kept] at disk
  rcases pass_eq set.sliceSize dir map set.orderedFiles .start0 with ⟨intact, damaged, fromDisk⟩
  have handed : (set.orderedFiles.foldl (passFile set.sliceSize dir map) .start0).fromDisk =
      (otherFiles set dir map).map Par2File.fileId := by
    rw [fromDisk, otherFiles, List.map_map]
    rfl
  rw [verifySet_some fits]
  constructor
  · simp only [verifyWithMap, intact, handed, List.filterMap_append]
    exact disk.intact.append_left _
  · simp only [verifyWithMap, damaged, handed, List.filterMap_append]
    exact disk.damaged.append_left _
  · simp only [verifyWithMap, handed, List.filterMap_append]
    have none_missing : ((trustedShares set dir map).map (mapReport set.sliceSize)).filterMap
        FileReport.missing? = [] := by
      simp [List.filterMap_eq_nil_iff, mapReport]
    rw [none_missing, List.nil_append]
    exact disk.missing

theorem same_verifySet_iff (reports : crate.Reports hashes report available) (dir : Dir)
    (fits : mapFits set map = true) :
    (verifySet crate set dir (some map)).result.Same (verifySet crate set dir none).result ↔
      ((trustedShares set dir map).map (mapReport set.sliceSize)).Perm
        ((trustedShares set dir map).map fun share =>
          diskReport report set.sliceSize dir share.1) := by
  have merged := says_verifySet reports dir fits
  have onDisk := (says_disk reports set dir).of_perm
    ((perm_trusted_others set dir map).map (diskReport report set.sliceSize dir))
  rw [List.map_append, List.map_map] at onDisk
  have lists := merged.perm_iff onDisk
  rw [List.perm_append_right_iff] at lists
  rw [show (fun share : Par2File × List SliceVerdict =>
    diskReport report set.sliceSize dir share.1) =
      diskReport report set.sliceSize dir ∘ Prod.fst from rfl, lists]
  constructor
  · intro same
    exact ⟨same.intact, same.damaged, same.missing⟩
  · rintro ⟨intact, damaged, missing⟩
    refine ⟨intact, damaged, missing, ?_⟩
    have counted : (verifySet crate set dir (some map)).result.recoveryBlocksAvailable =
        (crate.verify set dir).recoveryBlocksAvailable := by
      rw [verifySet_some fits, reports.recoveryBlocksAvailable]
      exact reports.recoveryBlocksAvailable _ dir
    have decided : (verifySet crate set dir (some map)).result.repairPossible =
        decide ((verifySet crate set dir (some map)).result.blocksNeeded ≤
          (verifySet crate set dir (some map)).result.recoveryBlocksAvailable) := by
      rw [verifySet_some fits]
      rfl
    rw [decided, counted, VerifyResult.blocksNeeded_of_perm damaged missing, verifySet_none]
    exact (reports.repairPossible set dir).symm

end Merge

end Rustnzb.Postproc
