import Rustnzb.Decode.SliceMap

/-!
# PAR2 recovery sets and their verification

What post-processing sees of the `rust_par2` crate: a parsed recovery set, the result of verifying
one, and what its disk verifier is documented to report. The crate itself is a parameter.

File names are lists of characters. Block indices and counts are `u32`, as in the crate.
-/

namespace Rustnzb.Postproc

open Decode (Bytes Md5Hash Hashes SliceDigest SliceVerifier)

abbrev Name := List Char

abbrev Id16 := ℕ

/-- A file of the job directory, by its path below it. -/
inductive Entry where
  | folder
  | file (bytes : Bytes)

abbrev Dir := Name → Option Entry

namespace Dir

/-- The content of the regular file called `name`. -/
def read (dir : Dir) (name : Name) : Option Bytes :=
  match dir name with
  | some (.file bytes) => some bytes
  | _ => none

/-- `std::fs::rename`, once it succeeds. -/
def rename (dir : Dir) (source target : Name) : Dir :=
  fun name =>
    if name = target then dir source else if name = source then none else dir name

end Dir

structure Par2File where
  fileId : Id16
  filename : Name
  size : ℕ
  hash16k : Md5Hash
  slices : List SliceDigest

/-- `files` is the map from file ids to files; each file is stored under its own id. -/
structure Par2FileSet where
  recoverySetId : Id16
  sliceSize : ℕ
  fileOrder : List Id16
  files : List Par2File
  recoveryBlockCount : ℕ

namespace Par2FileSet

def get (set : Par2FileSet) (id : Id16) : Option Par2File :=
  set.files.find? fun file => file.fileId = id

def orderedFiles (set : Par2FileSet) : List Par2File :=
  set.fileOrder.filterMap set.get

theorem fileId_of_get {set : Par2FileSet} {id : Id16} {file : Par2File}
    (found : set.get id = some file) : file.fileId = id := by
  simpa using List.find?_some found

theorem get_of_mem_orderedFiles {set : Par2FileSet} {file : Par2File}
    (mem : file ∈ set.orderedFiles) : set.get file.fileId = some file := by
  rcases List.mem_filterMap.mp mem with ⟨id, _, found⟩
  rw [fileId_of_get found]
  exact found

end Par2FileSet

def sliceCount (file : Par2File) (sliceSize : ℕ) : ℕ :=
  if sliceSize = 0 then 0 else (file.size + sliceSize - 1) / sliceSize

structure VerifiedFile where
  filename : Name
  size : ℕ
  deriving DecidableEq

structure DamagedFile where
  filename : Name
  size : ℕ
  damagedBlockCount : UInt32
  totalBlockCount : UInt32
  damagedBlockIndices : List UInt32
  deriving DecidableEq

structure MissingFile where
  filename : Name
  expectedSize : ℕ
  blockCount : UInt32
  deriving DecidableEq

structure VerifyResult where
  intact : List VerifiedFile
  damaged : List DamagedFile
  missing : List MissingFile
  recoveryBlocksAvailable : ℕ
  repairPossible : Bool

namespace VerifyResult

def blocksNeeded (result : VerifyResult) : ℕ :=
  (result.damaged.map fun file => file.damagedBlockCount.toNat).sum +
    (result.missing.map fun file => file.blockCount.toNat).sum

/-- Two results say the same, up to the order of their lists. -/
structure Same (left right : VerifyResult) : Prop where
  intact : left.intact.Perm right.intact
  damaged : left.damaged.Perm right.damaged
  missing : left.missing.Perm right.missing
  repairPossible : left.repairPossible = right.repairPossible

theorem blocksNeeded_of_perm {left right : VerifyResult} (damaged : left.damaged.Perm right.damaged)
    (missing : left.missing.Perm right.missing) : left.blocksNeeded = right.blocksNeeded := by
  have damagedSum := (damaged.map fun file => file.damagedBlockCount.toNat).sum_eq
  have missingSum := (missing.map fun file => file.blockCount.toNat).sum_eq
  simp only [blocksNeeded]
  rw [damagedSum, missingSum]

end VerifyResult

inductive FileReport where
  | intact (file : VerifiedFile)
  | damaged (file : DamagedFile)
  | missing (file : MissingFile)
  deriving DecidableEq

namespace FileReport

def intact? : FileReport → Option VerifiedFile
  | .intact file => some file
  | _ => none

def damaged? : FileReport → Option DamagedFile
  | .damaged file => some file
  | _ => none

def missing? : FileReport → Option MissingFile
  | .missing file => some file
  | _ => none

def filename : FileReport → Name
  | .intact file => file.filename
  | .damaged file => file.filename
  | .missing file => file.filename

def ofBad (file : Par2File) (sliceSize : ℕ) (bad : List UInt32) : FileReport :=
  if bad.isEmpty then .intact { filename := file.filename, size := file.size }
  else
    .damaged
      { filename := file.filename
        size := file.size
        damagedBlockCount := UInt32.ofNat bad.length
        totalBlockCount := UInt32.ofNat (sliceCount file sliceSize)
        damagedBlockIndices := bad }

@[simp]
theorem filename_ofBad (file : Par2File) (sliceSize : ℕ) (bad : List UInt32) :
    (ofBad file sliceSize bad).filename = file.filename := by
  simp only [ofBad]
  split <;> rfl

@[simp]
theorem missing?_ofBad (file : Par2File) (sliceSize : ℕ) (bad : List UInt32) :
    (ofBad file sliceSize bad).missing? = none := by
  simp only [ofBad]
  split <;> rfl

theorem ofBad_injective (file : Par2File) (sliceSize : ℕ) :
    Function.Injective (ofBad file sliceSize) := by
  intro left right same
  simp only [ofBad] at same
  split at same
  next leftNone =>
    split at same
    next rightNone => rw [List.isEmpty_iff.mp leftNone, List.isEmpty_iff.mp rightNone]
    · simp at same
  · split at same
    · simp at same
    · simp only [FileReport.damaged.injEq, DamagedFile.mk.injEq] at same
      exact same.2.2.2.2

theorem perm_iff (left right : List FileReport) :
    left.Perm right ↔
      (left.filterMap intact?).Perm (right.filterMap intact?) ∧
        (left.filterMap damaged?).Perm (right.filterMap damaged?) ∧
          (left.filterMap missing?).Perm (right.filterMap missing?) := by
  constructor
  · intro same
    exact ⟨same.filterMap _, same.filterMap _, same.filterMap _⟩
  · rintro ⟨intact, damaged, missing⟩
    have counted : ∀ (reports : List FileReport) (report : FileReport),
        reports.count report =
          match report with
          | .intact file => (reports.filterMap intact?).count file
          | .damaged file => (reports.filterMap damaged?).count file
          | .missing file => (reports.filterMap missing?).count file := by
      intro reports report
      induction reports with
      | nil => cases report <;> rfl
      | cons head tail ih =>
          cases head <;> cases report <;>
            simpa [List.count_cons, List.filterMap_cons, intact?, damaged?, missing?] using ih
    rw [List.perm_iff_count]
    intro report
    rw [counted left, counted right]
    cases report with
    | intact file => exact intact.count_eq file
    | damaged file => exact damaged.count_eq file
    | missing file => exact missing.count_eq file

end FileReport

def sliceBytes (file : Par2File) (sliceSize : ℕ) (bytes : Bytes) (i : ℕ) : Bytes :=
  (bytes.drop (i * sliceSize)).take (min sliceSize (file.size - i * sliceSize))

def sliceFails (hashes : Hashes) (file : Par2File) (sliceSize : ℕ) (bytes : Bytes) (i : ℕ) : Bool :=
  match file.slices[i]? with
  | none => false
  | some expected =>
      SliceVerifier.verdict hashes sliceSize expected (sliceBytes file sliceSize bytes i) = .damaged

/-- The block indices of the slices of `file` whose checksums do not match `bytes`. -/
def failing (hashes : Hashes) (file : Par2File) (sliceSize : ℕ) (bytes : Bytes) : List UInt32 :=
  ((List.range (sliceCount file sliceSize)).filter
    (sliceFails hashes file sliceSize bytes)).map UInt32.ofNat

/-- The `rust_par2` crate's disk verifier. -/
structure Par2Crate where
  verify : Par2FileSet → Dir → VerifyResult

/-- What the verifier reports: each file of the set by itself, from the file of its name on disk. A
file of its PAR2 size has exactly the slices damaged whose checksums fail. The recovery blocks are
counted from the volumes in the directory. -/
structure Par2Crate.Reports (crate : Par2Crate) (hashes : Hashes)
    (report : ℕ → Par2File → Option Bytes → FileReport)
    (available : Id16 → ℕ → ℕ → Dir → ℕ) : Prop where
  exact : ∀ sliceSize file bytes, bytes.length = file.size →
    report sliceSize file (some bytes) =
      .ofBad file sliceSize (failing hashes file sliceSize bytes)
  intact : ∀ set dir, (crate.verify set dir).intact.Perm
    ((set.orderedFiles.map fun file => report set.sliceSize file (dir.read file.filename)).filterMap
      FileReport.intact?)
  damaged : ∀ set dir, (crate.verify set dir).damaged.Perm
    ((set.orderedFiles.map fun file => report set.sliceSize file (dir.read file.filename)).filterMap
      FileReport.damaged?)
  missing : ∀ set dir, (crate.verify set dir).missing.Perm
    ((set.orderedFiles.map fun file => report set.sliceSize file (dir.read file.filename)).filterMap
      FileReport.missing?)
  recoveryBlocksAvailable : ∀ set dir, (crate.verify set dir).recoveryBlocksAvailable =
    available set.recoverySetId set.sliceSize set.recoveryBlockCount dir
  repairPossible : ∀ set dir, (crate.verify set dir).repairPossible =
    decide ((crate.verify set dir).blocksNeeded ≤ (crate.verify set dir).recoveryBlocksAvailable)

end Rustnzb.Postproc
