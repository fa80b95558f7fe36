import Mathlib.Tactic

/-!
# In-flight PAR2 slice verification

The slice verifier of the decode crate. It holds the geometry of a PAR2 set as a flat list of
cells, one for each slice of each file, and counts the bytes written into each cell. A cell whose
count reaches its length is handed to the caller, who reads the slice back and asks for the
verdict.

The hash functions come from other crates and are a parameter. Sizes and offsets are naturals;
the additions and multiplications of the source that can leave 64 bits are reduced modulo
`2 ^ 64`.
-/

namespace Rustnzb.Decode

abbrev Bytes := List UInt8

abbrev Md5Hash := Vector UInt8 16

structure Hashes where
  md5 : Bytes → Md5Hash
  crc32 : Bytes → UInt32

/-- `Vec::resize(size, 0)`: cut or pad with zeros to exactly `size` bytes. -/
def resize (bytes : Bytes) (size : ℕ) : Bytes :=
  bytes.take size ++ List.replicate (size - bytes.length) 0

@[simp]
theorem length_resize (bytes : Bytes) (size : ℕ) : (resize bytes size).length = size := by
  simp [resize]
  omega

theorem resize_of_length_eq {bytes : Bytes} {size : ℕ} (exactly : bytes.length = size) :
    resize bytes size = bytes := by
  simp [resize, ← exactly]

inductive SliceState where
  | unknown
  | verified
  | damaged
  deriving DecidableEq, Repr

structure SliceDigest where
  md5 : Md5Hash
  crc32 : UInt32
  deriving DecidableEq

/-- One file's slice checksums, in slice order, with the file's total size. -/
structure FileSlices where
  size : ℕ
  slices : List SliceDigest

/-- PAR2 geometry, in the recovery set's file order. -/
structure SliceLayout where
  sliceSize : ℕ
  files : List FileSlices

structure SliceCell where
  fileIndex : ℕ
  start : ℕ
  len : ℕ
  filled : ℕ
  expected : SliceDigest
  state : SliceState
  deriving DecidableEq

def overlap (a0 a1 b0 b1 : ℕ) : ℕ :=
  min a1 b1 - max a0 b0

namespace SliceCell

def range (cell : SliceCell) : ℕ × ℕ × ℕ :=
  (cell.fileIndex, cell.start, cell.len)

def markWritten (w0 w1 : ℕ) (cell : SliceCell) : SliceCell :=
  if cell.state = .unknown then
    let ov := overlap cell.start (cell.start + cell.len) w0 w1
    if ov = 0 then cell
    else { cell with filled := min ((cell.filled + ov) % 2 ^ 64) cell.len }
  else cell

/-- Whether that turn of the loop reports the cell as ready to verify. -/
def completes (w0 w1 : ℕ) (cell : SliceCell) : Bool :=
  cell.state = .unknown && overlap cell.start (cell.start + cell.len) w0 w1 ≠ 0 &&
    (cell.markWritten w0 w1).filled = cell.len && 0 < cell.len

def setState (state : SliceState) (cell : SliceCell) : SliceCell :=
  { cell with state := state }

@[simp]
theorem range_markWritten (w0 w1 : ℕ) (cell : SliceCell) :
    (cell.markWritten w0 w1).range = cell.range := by
  simp only [markWritten]
  split
  · split <;> rfl
  · rfl

@[simp]
theorem range_setState (state : SliceState) (cell : SliceCell) :
    (cell.setState state).range = cell.range := rfl

@[simp]
theorem state_markWritten (w0 w1 : ℕ) (cell : SliceCell) :
    (cell.markWritten w0 w1).state = cell.state := by
  simp only [markWritten]
  split
  · split <;> rfl
  · rfl

end SliceCell

/-- The slices `start..` of `file`, in order. `start` is `i * slice_size` in 64 bits. -/
def cellsOfFile (sliceSize fileIndex : ℕ) (file : FileSlices) : List SliceCell :=
  file.slices.mapIdx fun i digest =>
    let start := i * sliceSize % 2 ^ 64
    { fileIndex := fileIndex
      start := start
      len := min (file.size - start) sliceSize
      filled := 0
      expected := digest
      state := .unknown }

def newCells (sliceSize : ℕ) : ℕ → List FileSlices → List SliceCell
  | _, [] => []
  | fileIndex, file :: files =>
      cellsOfFile sliceSize fileIndex file ++ newCells sliceSize (fileIndex + 1) files

/-- The index of the first cell of each file, with the number of cells as a sentinel. -/
def newBounds : ℕ → List FileSlices → List ℕ
  | total, [] => [total]
  | total, file :: files => total :: newBounds (total + file.slices.length) files

def InBounds (fileBounds : List ℕ) (g f : ℕ) : Prop :=
  ∃ lo hi, fileBounds[f]? = some lo ∧ fileBounds[f + 1]? = some hi ∧ lo ≤ g ∧ g < hi

@[simp]
theorem newBounds_zero (total : ℕ) (files : List FileSlices) :
    (newBounds total files)[0]? = some total := by
  cases files <;> rfl

theorem le_of_newBounds {total lo f : ℕ} {files : List FileSlices}
    (bound : (newBounds total files)[f]? = some lo) : total ≤ lo := by
  induction files generalizing total f with
  | nil =>
      rcases f with _ | f
      · simp [newBounds] at bound
        omega
      · simp [newBounds] at bound
  | cons file files ih =>
      rcases f with _ | f
      · simp [newBounds] at bound
        omega
      · simp only [newBounds, List.getElem?_cons_succ] at bound
        have := ih bound
        omega

theorem inBounds_cons_succ {total g f : ℕ} {file : FileSlices} {files : List FileSlices} :
    InBounds (newBounds total (file :: files)) g (f + 1) ↔
      InBounds (newBounds (total + file.slices.length) files) g f := by
  simp [InBounds, newBounds]

theorem inBounds_cons_zero {total g : ℕ} {file : FileSlices} {files : List FileSlices} :
    InBounds (newBounds total (file :: files)) g 0 ↔
      total ≤ g ∧ g < total + file.slices.length := by
  simp [InBounds, newBounds]

theorem inBounds_newBounds (sliceSize : ℕ) (files : List FileSlices) (total first g : ℕ)
    (cell : SliceCell) (found : (newCells sliceSize first files)[g]? = some cell) :
    first ≤ cell.fileIndex ∧
      ∀ f, InBounds (newBounds total files) (total + g) f ↔ cell.fileIndex = first + f := by
  induction files generalizing total first g with
  | nil => simp [newCells] at found
  | cons file files ih =>
      simp only [newCells] at found
      by_cases inFirst : g < file.slices.length
      · rw [List.getElem?_append_left (by simpa [cellsOfFile] using inFirst)] at found
        have owner : cell.fileIndex = first := by
          simp only [cellsOfFile, List.getElem?_mapIdx, Option.map_eq_some_iff] at found
          rcases found with ⟨digest, _, rfl⟩
          rfl
        refine ⟨owner.ge, fun f => ?_⟩
        rcases f with _ | f
        · rw [inBounds_cons_zero]
          omega
        · rw [inBounds_cons_succ]
          constructor
          · rintro ⟨lo, hi, loBound, _, lower, _⟩
            have := le_of_newBounds loBound
            omega
          · omega
      · rw [List.getElem?_append_right (by simpa [cellsOfFile] using inFirst)] at found
        simp only [cellsOfFile, List.length_mapIdx] at found
        rcases ih (total + file.slices.length) (first + 1) _ found with ⟨later, owners⟩
        refine ⟨by omega, fun f => ?_⟩
        have position : total + file.slices.length + (g - file.slices.length) = total + g := by
          omega
        rcases f with _ | f
        · rw [inBounds_cons_zero]
          omega
        · rw [inBounds_cons_succ, ← position, owners f]
          omega

/-- The verifier carries the fact that the cells between the bounds of a file are exactly the
cells of that file. -/
structure SliceVerifier where
  sliceSize : ℕ
  cells : List SliceCell
  fileBounds : List ℕ
  inBounds : ∀ g cell, cells[g]? = some cell →
    ∀ f, InBounds fileBounds g f ↔ cell.fileIndex = f

namespace SliceVerifier

/-- Build a verifier for a PAR2 set. Every slice starts `Unknown`. -/
def new (layout : SliceLayout) : SliceVerifier where
  sliceSize := layout.sliceSize
  cells := newCells layout.sliceSize 0 layout.files
  fileBounds := newBounds 0 layout.files
  inBounds := by
    intro g cell found f
    have := (inBounds_newBounds layout.sliceSize layout.files 0 0 g cell found).2 f
    simpa using this

def updateCells (verifier : SliceVerifier) (change : ℕ → SliceCell → SliceCell)
    (keeps : ∀ g cell, (change g cell).range = cell.range) : SliceVerifier where
  sliceSize := verifier.sliceSize
  cells := verifier.cells.mapIdx change
  fileBounds := verifier.fileBounds
  inBounds := by
    intro g cell found f
    simp only [List.getElem?_mapIdx, Option.map_eq_some_iff] at found
    rcases found with ⟨old, oldFound, rfl⟩
    have same : (change g old).fileIndex = old.fileIndex := congrArg Prod.fst (keeps g old)
    rw [same]
    exact verifier.inBounds g old oldFound f

@[simp]
theorem getElem?_updateCells (verifier : SliceVerifier) (change : ℕ → SliceCell → SliceCell)
    (keeps : ∀ g cell, (change g cell).range = cell.range) (g : ℕ) :
    (verifier.updateCells change keeps).cells[g]? = verifier.cells[g]?.map (change g) := by
  simp [updateCells]

/-- Record that `len` bytes were written to `fileIndex` at `offset`, and return the slices this
write completes. `none` is the panic of `file_bounds[file_index + 1]` on the sentinel. -/
def markWritten (verifier : SliceVerifier) (fileIndex offset len : ℕ) :
    Option (SliceVerifier × List ℕ) :=
  match verifier.fileBounds[fileIndex]? with
  | none => some (verifier, [])
  | some startG =>
      match verifier.fileBounds[fileIndex + 1]? with
      | none => none
      | some endG =>
          let w0 := offset
          let w1 := (offset + len) % 2 ^ 64
          let marked := verifier.updateCells
            (fun g cell => if startG ≤ g ∧ g < endG then cell.markWritten w0 w1 else cell)
            (by intro g cell; split <;> simp)
          let completed := (List.range verifier.cells.length).filter fun g =>
            startG ≤ g && g < endG && verifier.cells[g]?.any (SliceCell.completes w0 w1)
          some (marked, completed)

/-- Which file and byte range a global slice covers: `(file_index, offset, len)`. -/
def sliceRange (verifier : SliceVerifier) (globalIndex : ℕ) : Option (ℕ × ℕ × ℕ) :=
  verifier.cells[globalIndex]?.map SliceCell.range

def setState (verifier : SliceVerifier) (globalIndex : ℕ) (state : SliceState) : SliceVerifier :=
  verifier.updateCells (fun g cell => if g = globalIndex then cell.setState state else cell)
    (by intro g cell; split <;> simp)

/-- The verdict of `bytes`, zero-padded to the slice size, against the expected checksums. -/
def verdict (hashes : Hashes) (sliceSize : ℕ) (expected : SliceDigest) (bytes : Bytes) :
    SliceState :=
  let padded := resize bytes sliceSize
  if hashes.md5 padded = expected.md5 ∧ hashes.crc32 padded = expected.crc32 then .verified
  else .damaged

def verify (hashes : Hashes) (verifier : SliceVerifier) (globalIndex : ℕ) (bytes : Bytes) :
    SliceVerifier × SliceState :=
  match verifier.cells[globalIndex]? with
  | none => (verifier, .unknown)
  | some cell =>
      let state := verdict hashes verifier.sliceSize cell.expected bytes
      (verifier.setState globalIndex state, state)

def markDamaged (verifier : SliceVerifier) (globalIndex : ℕ) : SliceVerifier :=
  verifier.setState globalIndex .damaged

theorem verdict_ne_unknown (hashes : Hashes) (sliceSize : ℕ) (expected : SliceDigest)
    (bytes : Bytes) : verdict hashes sliceSize expected bytes ≠ .unknown := by
  simp only [verdict]
  split <;> simp

@[simp]
theorem getElem?_setState (verifier : SliceVerifier) (globalIndex g : ℕ) (state : SliceState) :
    (verifier.setState globalIndex state).cells[g]? =
      verifier.cells[g]?.map fun cell => if g = globalIndex then cell.setState state else cell := by
  simp [setState]

theorem cells_of_markWritten {verifier marked : SliceVerifier} {f offset len : ℕ}
    {completed : List ℕ} (fits : offset + len < 2 ^ 64)
    (call : verifier.markWritten f offset len = some (marked, completed)) (g : ℕ) :
    marked.cells[g]? = verifier.cells[g]?.map fun cell =>
      if cell.fileIndex = f then cell.markWritten offset (offset + len) else cell := by
  simp only [markWritten, Nat.mod_eq_of_lt fits] at call
  split at call
  next noStart =>
    simp only [Option.some.injEq, Prod.mk.injEq] at call
    rcases call with ⟨rfl, rfl⟩
    rcases found : verifier.cells[g]? with _ | cell
    · rfl
    · have owner := verifier.inBounds g cell found f
      have notOwned : cell.fileIndex ≠ f := by
        intro owned
        rcases owner.mpr owned with ⟨lo, _, loBound, _⟩
        simp [noStart] at loBound
      simp [notOwned]
  next startG start =>
    split at call
    · simp at call
    next endG stop =>
      simp only [Option.some.injEq, Prod.mk.injEq] at call
      rcases call with ⟨rfl, rfl⟩
      rw [getElem?_updateCells]
      rcases found : verifier.cells[g]? with _ | cell
      · rfl
      · have owner := verifier.inBounds g cell found f
        have inside : (startG ≤ g ∧ g < endG) ↔ cell.fileIndex = f := by
          rw [← owner]
          simp [InBounds, start, stop]
        simp only [Option.map_some, inside]

theorem mem_completed_of_markWritten {verifier marked : SliceVerifier} {f offset len : ℕ}
    {completed : List ℕ} (fits : offset + len < 2 ^ 64)
    (call : verifier.markWritten f offset len = some (marked, completed)) (g : ℕ) :
    g ∈ completed ↔ ∃ cell, verifier.cells[g]? = some cell ∧ cell.fileIndex = f ∧
      cell.completes offset (offset + len) := by
  simp only [markWritten, Nat.mod_eq_of_lt fits] at call
  split at call
  next noStart =>
    simp only [Option.some.injEq, Prod.mk.injEq] at call
    rcases call with ⟨rfl, rfl⟩
    simp only [List.not_mem_nil, false_iff, not_exists, not_and]
    intro cell found owned
    rcases (verifier.inBounds g cell found f).mpr owned with ⟨lo, _, loBound, _⟩
    simp [noStart] at loBound
  next startG start =>
    split at call
    · simp at call
    next endG stop =>
      simp only [Option.some.injEq, Prod.mk.injEq] at call
      rcases call with ⟨rfl, rfl⟩
      simp only [List.mem_filter, List.mem_range, Bool.and_eq_true, decide_eq_true_eq,
        Option.any_eq_true]
      constructor
      · rintro ⟨_, ⟨lower, upper⟩, cell, found, done⟩
        refine ⟨cell, found, ?_, done⟩
        exact (verifier.inBounds g cell found f).mp ⟨startG, endG, start, stop, lower, upper⟩
      · rintro ⟨cell, found, owned, done⟩
        rcases (verifier.inBounds g cell found f).mpr owned with ⟨lo, hi, loBound, hiBound, inside⟩
        simp only [start, Option.some.injEq] at loBound
        simp only [stop, Option.some.injEq] at hiBound
        subst loBound hiBound
        refine ⟨?_, inside, cell, found, done⟩
        exact (List.getElem?_eq_some_iff.mp found).1

end SliceVerifier

end Rustnzb.Decode
