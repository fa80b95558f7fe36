import Rustnzb.Decode.RepairFold
import Rustnzb.Lib.Overwrite
import Rustnzb.Lib.SortDedup
import Rustnzb.Postproc.Par2Names

/-!
# Writing repaired slices

`repair_from_fold` opens a damaged file under its name joined to the directory, creates it if it is
missing, and writes the slices that the fold has solved. What the fold reads and solves is a
parameter.
-/

namespace Rustnzb.Postproc.FoldWrites

open Decode (Bytes FoldError resize)
open Lib (Below FileTree overwrite)
open Par2Names (Content JobTree Position)

structure Placed where
  file : Par2File
  start : ℕ
  count : ℕ

def layoutFrom (sliceSize : ℕ) : ℕ → List Par2File → List Placed
  | _, [] => []
  | start, file :: files =>
      let count := sliceCount file sliceSize
      ⟨file, start, count⟩ :: layoutFrom sliceSize (start + count) files

def layout (set : Par2FileSet) : List Placed := layoutFrom set.sliceSize 0 set.orderedFiles

def damagedIndices (placed : List Placed) (verify : VerifyResult) : List ℕ :=
  let find := fun name => placed.find? fun p => p.file.filename = name
  let damaged := verify.damaged.flatMap fun d =>
    match find d.filename with
    | none => []
    | some p =>
        if d.damagedBlockIndices.isEmpty then List.range' p.start p.count
        else d.damagedBlockIndices.map fun i => p.start + i.toNat
  let missing := verify.missing.flatMap fun m =>
    match find m.filename with
    | none => []
    | some p => List.range' p.start p.count
  Lib.sortDedup (damaged ++ missing)

/-- A file, and the offset and length in it of a global slice. -/
structure Located where
  file : Par2File
  offset : ℕ
  len : ℕ

def locate (placed : List Placed) (index slice : ℕ) : Option Located :=
  (placed.find? fun p => p.start ≤ index && index < p.start + p.count).map fun p =>
    let offset := (index - p.start) * slice
    ⟨p.file, offset, min (p.file.size - offset) slice⟩

structure Solved where
  repaired : List (ℕ × Bytes)
  rows : ℕ
  slicesPrefed : ℕ
  slicesReadAtSolve : ℕ

/-- The fold of a set: it is fed the slices that it misses from the files of the directory, and
solves the damaged slices with the recovery data found there, if need be with rows it adds. -/
structure SharedFold where
  totalSlices : ℕ
  sliceSize : ℕ
  solve : JobTree → List ℕ → Except FoldError Solved

inductive FoldRepairError where
  | mismatch
  | fold (error : FoldError)
  | io

structure FoldRepair where
  blocksRepaired : ℕ
  filesRepaired : ℕ
  rows : ℕ
  slicesPrefed : ℕ
  slicesReadAtSolve : ℕ

/-- How the writing ends; it panics on a slice that is too short. -/
inductive WritesEnd where
  | finished
  | failed (error : FoldRepairError)
  | panicked

structure Writes where
  tree : JobTree
  written : List Position
  touched : List Name

section

variable (mayWrite : Position → Bool) (dir : Position)

/-- Neither a directory nor a special node. -/
def isOpenable (tree : JobTree) (position : Position) : Bool :=
  match tree.node position with
  | none | some (.file _) => true
  | some .directory | some .special => false

def openFile (tree : JobTree) (filename : Name) : Option Position :=
  (tree.place dir filename).filter fun position => mayWrite position && isOpenable tree position

/-- The content of a file that was opened, at least of the file's size. -/
def sizedContent (tree : JobTree) (position : Position) (size : ℕ) : Content :=
  let content := (tree.fileAt position).getD ⟨[], true⟩
  if content.bytes.length < size then { content with bytes := resize content.bytes size }
  else content

def writeTo (located : Located) (position : Position) (bytes : Bytes) (writes : Writes) : Writes :=
  let content := sizedContent writes.tree position located.file.size
  let block := if located.len ≤ bytes.length then bytes.take located.len else []
  { tree := writes.tree.put position
      { content with bytes := overwrite 0 content.bytes ⟨located.offset, block⟩ }
    written := writes.written ++ [position]
    touched := writes.touched.insert located.file.filename }

def writeAll (placed : List Placed) (slice : ℕ) :
    List (ℕ × Bytes) → Writes → Writes × WritesEnd
  | [], writes => (writes, .finished)
  | (index, bytes) :: repaired, writes =>
      match locate placed index slice with
      | none => (writes, .failed (.fold (.outOfRange index)))
      | some located =>
          match openFile mayWrite dir writes.tree located.file.filename with
          | none => (writes, .failed .io)
          | some position =>
              if located.len ≤ bytes.length then
                writeAll placed slice repaired (writeTo located position bytes writes)
              else (writeTo located position bytes writes, .panicked)

def repairFromFold (set : Par2FileSet) (verify : VerifyResult) (fold : SharedFold)
    (tree : JobTree) : Writes × Except WritesEnd FoldRepair :=
  let placed := layout set
  let total := (placed.map Placed.count).sum
  if fold.totalSlices ≠ total ∨ fold.sliceSize ≠ set.sliceSize then
    (⟨tree, [], []⟩, .error (.failed .mismatch))
  else
    match fold.solve tree (damagedIndices placed verify) with
    | .error error => (⟨tree, [], []⟩, .error (.failed (.fold error)))
    | .ok solved =>
        match writeAll mayWrite dir placed set.sliceSize solved.repaired ⟨tree, [], []⟩ with
        | (writes, .finished) =>
            (writes, .ok
              { blocksRepaired := solved.repaired.length
                filesRepaired := writes.touched.length
                rows := solved.rows
                slicesPrefed := solved.slicesPrefed
                slicesReadAtSolve := solved.slicesReadAtSolve })
        | (writes, stopped) => (writes, .error stopped)

end

/-- All that was written to lies below the directory, and nothing else has changed. -/
structure WritesInside (dir : Position) (tree : JobTree) (writes : Writes) : Prop where
  inside : ∀ position ∈ writes.written, Below dir position
  elsewhere : ∀ position, position ∉ writes.written →
    writes.tree.node position = tree.node position

section Landing

variable (mayWrite : Position → Bool) (dir : Position)

def landing (placed : List Placed) (slice : ℕ) (tree : JobTree) (index : ℕ) : Option Position :=
  (locate placed index slice).bind fun located =>
    openFile mayWrite dir tree located.file.filename

def LongEnough (placed : List Placed) (slice index : ℕ) (bytes : Bytes) : Prop :=
  ∀ located, locate placed index slice = some located → located.len ≤ bytes.length

/-- Up to the first slice that cannot be written, each lands below the directory. -/
def Lands (placed : List Placed) (slice : ℕ) (tree : JobTree) : List (ℕ × Bytes) → Prop
  | [] => True
  | (index, bytes) :: repaired =>
      ∀ position, landing mayWrite dir placed slice tree index = some position →
        Below dir position ∧
          (LongEnough placed slice index bytes → Lands placed slice tree repaired)

def RepairLands (set : Par2FileSet) (verify : VerifyResult) (fold : SharedFold)
    (tree : JobTree) : Prop :=
  fold.totalSlices = ((layout set).map Placed.count).sum → fold.sliceSize = set.sliceSize →
    ∀ solved, fold.solve tree (damagedIndices (layout set) verify) = .ok solved →
      Lands mayWrite dir (layout set) set.sliceSize tree solved.repaired

end Landing

section Writing

variable {mayWrite : Position → Bool} {dir position other : Position} {tree tree' : JobTree}
  {filename : Name} {placed : List Placed} {slice : ℕ} {writes : Writes} {located : Located}
  {bytes : Bytes} {repaired : List (ℕ × Bytes)}

theorem openFile_eq_some : openFile mayWrite dir tree filename = some position ↔
    tree.place dir filename = some position ∧ mayWrite position ∧ isOpenable tree position := by
  rw [openFile, Option.filter_eq_some_iff, Bool.and_eq_true]

theorem isOpenable_put (openable : isOpenable tree position) (content : Content) :
    isOpenable (tree.put position content) other = isOpenable tree other := by
  by_cases same : other = position
  · subst same
    by_cases holds : tree.CanHold other
    · rw [openable, isOpenable, FileTree.node_put holds, Function.update_self]
    · rw [FileTree.put, dif_neg holds]
  · rw [isOpenable, isOpenable, FileTree.node_put_of_ne same]

theorem openFile_writeTo (openable : isOpenable writes.tree position) (name : Name) :
    openFile mayWrite dir (writeTo located position bytes writes).tree name =
      openFile mayWrite dir writes.tree name := by
  have same : ∀ other, isOpenable (writeTo located position bytes writes).tree other =
      isOpenable writes.tree other := fun _ => isOpenable_put openable _
  have dirs : ∀ other, (writeTo located position bytes writes).tree.isDirectory other =
      writes.tree.isDirectory other := fun _ => FileTree.isDirectory_put
  rw [openFile, openFile, FileTree.place_congr dirs]
  simp only [same]

theorem landing_congr (same : ∀ name, openFile mayWrite dir tree' name =
    openFile mayWrite dir tree name) (index : ℕ) :
    landing mayWrite dir placed slice tree' index =
      landing mayWrite dir placed slice tree index := by
  rw [landing, landing]
  simp only [same]

theorem lands_congr (same : ∀ name, openFile mayWrite dir tree' name =
    openFile mayWrite dir tree name) :
    Lands mayWrite dir placed slice tree' repaired ↔
      Lands mayWrite dir placed slice tree repaired := by
  induction repaired with
  | nil => exact Iff.rfl
  | cons first repaired ih => rw [Lands, Lands, landing_congr same, ih]

theorem writeAll_inside_iff (repaired : List (ℕ × Bytes)) (writes : Writes) :
    (∀ position ∈ (writeAll mayWrite dir placed slice repaired writes).1.written,
        Below dir position) ↔
      (∀ position ∈ writes.written, Below dir position) ∧
        Lands mayWrite dir placed slice writes.tree repaired := by
  induction repaired generalizing writes with
  | nil => simp [writeAll, Lands]
  | cons first repaired ih =>
      rcases first with ⟨index, bytes⟩
      rw [writeAll, Lands, landing, LongEnough]
      cases isLocated : locate placed index slice with
      | none => simp
      | some located =>
          dsimp only
          rw [Option.bind_some]
          cases opened : openFile mayWrite dir writes.tree located.file.filename with
          | none => simp
          | some position =>
              have openable := (openFile_eq_some.mp opened).2.2
              have written : (writeTo located position bytes writes).written =
                  writes.written ++ [position] := rfl
              simp only [Option.some.injEq, forall_eq']
              split
              next long =>
                rw [ih, lands_congr (openFile_writeTo openable), written, List.forall_mem_append,
                  List.forall_mem_singleton, and_assoc]
                simp only [long, true_imp_iff]
              next short =>
                rw [written, List.forall_mem_append, List.forall_mem_singleton]
                simp only [short, false_imp_iff, and_true]

theorem writeAll_elsewhere (repaired : List (ℕ × Bytes)) (writes : Writes)
    (notWritten : position ∉ (writeAll mayWrite dir placed slice repaired writes).1.written) :
    position ∉ writes.written ∧
      (writeAll mayWrite dir placed slice repaired writes).1.tree.node position =
        writes.tree.node position := by
  have one (located : Located) (other : Position) (bytes : Bytes) {writes : Writes}
      (notWritten : position ∉ (writeTo located other bytes writes).written) :
      position ∉ writes.written ∧
        (writeTo located other bytes writes).tree.node position = writes.tree.node position := by
    have written : (writeTo located other bytes writes).written = writes.written ++ [other] := rfl
    rw [written, List.mem_append, not_or, List.mem_singleton] at notWritten
    exact ⟨notWritten.1, FileTree.node_put_of_ne notWritten.2⟩
  induction repaired generalizing writes with
  | nil => exact ⟨notWritten, rfl⟩
  | cons first repaired ih =>
      rcases first with ⟨index, bytes⟩
      rw [writeAll] at notWritten ⊢
      split at notWritten
      · exact ⟨notWritten, rfl⟩
      next located isLocated =>
        split at notWritten
        · exact ⟨notWritten, rfl⟩
        next other opened =>
          split at notWritten
          next long =>
            rw [if_pos long]
            rcases ih _ notWritten with ⟨notBefore, same⟩
            rcases one located other bytes notBefore with ⟨notWritten, same'⟩
            exact ⟨notWritten, same.trans same'⟩
          next short =>
            rw [if_neg short]
            exact one located other bytes notWritten

section Repairing

variable {set : Par2FileSet} {verify : VerifyResult} {fold : SharedFold}

theorem writes_repairFromFold :
    (repairFromFold mayWrite dir set verify fold tree).1 = ⟨tree, [], []⟩ ∧
        (¬(fold.totalSlices = ((layout set).map Placed.count).sum ∧
            fold.sliceSize = set.sliceSize) ∨
          ∃ error, fold.solve tree (damagedIndices (layout set) verify) = .error error) ∨
      (fold.totalSlices = ((layout set).map Placed.count).sum ∧
          fold.sliceSize = set.sliceSize) ∧
        ∃ solved, fold.solve tree (damagedIndices (layout set) verify) = .ok solved ∧
          (repairFromFold mayWrite dir set verify fold tree).1 =
            (writeAll mayWrite dir (layout set) set.sliceSize solved.repaired
              ⟨tree, [], []⟩).1 := by
  rw [repairFromFold]
  split
  next differs =>
    rw [← not_and_or] at differs
    exact .inl ⟨rfl, .inl differs⟩
  next same =>
    rw [not_or, not_not, not_not] at same
    cases outcome : fold.solve tree (damagedIndices (layout set) verify) with
    | error error => exact .inl ⟨rfl, .inr ⟨error, rfl⟩⟩
    | ok solved =>
        refine .inr ⟨same, solved, rfl, ?_⟩
        dsimp only
        split
        next ended => rw [ended]
        next ended => rw [ended]

theorem writesInside_iff :
    WritesInside dir tree (repairFromFold mayWrite dir set verify fold tree).1 ↔
      RepairLands mayWrite dir set verify fold tree := by
  rcases @writes_repairFromFold mayWrite dir tree set verify fold with
    ⟨nothing, reason⟩ | ⟨⟨total, size⟩, solved, isSolved, writes⟩
  · refine iff_of_true ?_ fun total size solved isSolved => ?_
    · rw [nothing]
      exact ⟨by simp, fun _ _ => rfl⟩
    · rcases reason with differs | ⟨error, failed⟩
      · exact absurd ⟨total, size⟩ differs
      · rw [failed] at isSolved
        cases isSolved
  · have inside := @writeAll_inside_iff mayWrite dir (layout set) set.sliceSize solved.repaired
      ⟨tree, [], []⟩
    rw [and_iff_right (by simp)] at inside
    rw [writes]
    constructor
    · intro writesInside _ _ other isOther
      rw [isSolved, Except.ok.injEq] at isOther
      subst isOther
      exact inside.mp writesInside.inside
    · intro lands
      exact ⟨inside.mpr (lands total size solved isSolved),
        fun position notWritten => (writeAll_elsewhere _ _ notWritten).2⟩

end Repairing

end Writing

end Rustnzb.Postproc.FoldWrites
