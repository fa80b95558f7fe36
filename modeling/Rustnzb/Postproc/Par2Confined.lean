import Rustnzb.Postproc.FoldWrites
import Rustnzb.Postproc.InflightVerdict
import Rustnzb.Postproc.Par2Runs

/-!
# What PAR2 names can do

The renaming to PAR2 names never loses a file, whatever the names are. It stays in the directory,
and so does a repair, as far as the names lead there; a name with two dots or a slash at its front
need not. A second run finds nothing to do unless a set has taken a file from another.
-/

namespace Rustnzb.Postproc.Par2Names

open Decode (Bytes Hashes)
open FoldWrites (RepairLands SharedFold WritesInside repairFromFold writesInside_iff)
open Lib (Below FileTree Node components walk)
open Lib.FileTree (SameFiles)

section

variable (hashes : Hashes) (system : System) (dir : Position) (sets : List Par2FileSet)
  (tree : JobTree)

/-- The run over the sets only moves files that lie directly in the directory and are not PAR2
files, to free positions below it, and a second run changes nothing. -/
structure RenamesSafely : Prop where
  moved : Moves dir tree (renameAll hashes system dir sets tree).moves
    (renameAll hashes system dir sets tree).tree
  named : ∀ move ∈ (renameAll hashes system dir sets tree).moves, ∃ set ∈ sets,
    ∃ file ∈ set.files, walk dir (components file.filename) = move.target
  inside : ∀ move ∈ (renameAll hashes system dir sets tree).moves, Below dir move.target
  files : SameFiles tree (renameAll hashes system dir sets tree).tree
  par2 : ∀ name content, hasPar2Extension name → tree.fileAt (name :: dir) = some content →
    (renameAll hashes system dir sets tree).tree.fileAt (name :: dir) = some content
  again : renameAll hashes system dir sets (renameAll hashes system dir sets tree).tree =
    ⟨(renameAll hashes system dir sets tree).tree, []⟩

variable (mayWrite : Position → Bool) (set : Par2FileSet) (verify : VerifyResult)
  (fold : SharedFold) (job : JobTree)

structure Par2Safe : Prop where
  renames : RenamesSafely hashes system dir sets tree
  repairs : WritesInside dir job (repairFromFold mayWrite dir set verify fold job).1

variable {hashes system dir sets tree}

theorem renamesSafely_iff :
    RenamesSafely hashes system dir sets tree ↔ Confining hashes system dir sets ⟨tree, []⟩ ∧
      ∀ set ∈ sets, AtRest hashes system dir set (renameAll hashes system dir sets tree).tree := by
  rcases @run_spec hashes system dir sets ⟨tree, []⟩ with ⟨moves, isMoves, made, named, confined⟩
  rw [List.nil_append] at isMoves
  subst isMoves
  constructor
  · intro safe
    have still := congrArg Progress.moves safe.again
    have rest := @run_moves_iff hashes system dir sets
      ⟨(renameAll hashes system dir sets tree).tree, []⟩
    exact ⟨confined.mp safe.inside, rest.mp still⟩
  · rintro ⟨confining, rest⟩
    refine ⟨made, named, confined.mpr confining, made.sameFiles, ?_, run_of_atRest rest⟩
    intro name content isPar2 isFile
    exact made.par2 isPar2 isFile

/-- PAR2 names are safe exactly if in each pass what matches goes below the directory, the sets are
at rest in the end, and the slices of the repair land below the directory. The sets are at rest if
none of them takes a file from under a name of an earlier one. -/
theorem par2_safe_iff (hashes : Hashes) (system : System) (dir : Position)
    (sets : List Par2FileSet) (tree : JobTree) (mayWrite : Position → Bool) (set : Par2FileSet)
    (verify : VerifyResult) (fold : SharedFold) (job : JobTree) :
    (Par2Safe hashes system dir sets tree mayWrite set verify fold job ↔
      Confining hashes system dir sets ⟨tree, []⟩ ∧
        (∀ other ∈ sets,
          AtRest hashes system dir other (renameAll hashes system dir sets tree).tree) ∧
        RepairLands mayWrite dir set verify fold job) ∧
    (Settling hashes system dir [] sets ⟨tree, []⟩ →
      ∀ other ∈ sets,
        AtRest hashes system dir other (renameAll hashes system dir sets tree).tree) := by
  refine ⟨?_, fun settling => atRest_of_settling (by simp) settling⟩
  rw [← and_assoc, ← renamesSafely_iff, ← writesInside_iff]
  constructor
  · intro safe
    exact ⟨safe.renames, safe.repairs⟩
  · rintro ⟨renames, repairs⟩
    exact ⟨renames, repairs⟩

end

/-! ## A name with two dots -/

def jobDir : Position := ["job".toList]

def oneFile : JobTree where
  nodes := ((AList.singleton [] Node.directory).insert jobDir .directory).insert
    ("a".toList :: jobDir) (.file ⟨[], true⟩)
  root := rfl
  closed := by
    intro name parent isNode
    have isKey : name :: parent ∈ ["a".toList :: jobDir, jobDir, []] :=
      AList.lookup_isSome.mp isNode
    simp only [List.mem_cons, List.not_mem_nil, or_false, reduceCtorEq] at isKey
    rcases isKey with isFile | isDir
    · cases isFile
      rfl
    · cases isDir
      rfl
  named := by
    intro name parent isNode
    have isKey : name :: parent ∈ ["a".toList :: jobDir, jobDir, []] :=
      AList.lookup_isSome.mp isNode
    simp only [List.mem_cons, List.not_mem_nil, or_false, reduceCtorEq] at isKey
    rcases isKey with isFile | isDir
    · cases isFile
      decide
    · cases isDir
      decide

def noDigest : Hashes where
  md5 _ := Vector.replicate 16 0
  crc32 _ := 0

def plainSystem : System where
  listable := true
  readDir tree position := tree.entries position
  readDir_perm _ _ := List.Perm.refl _
  permits _ := true
  values set := set.files
  values_perm := listed.values_perm

def dotDotFile : Par2File where
  fileId := 0
  filename := "../x".toList
  size := 0
  hash16k := Vector.replicate 16 0
  slices := []

def dotDotSet : Par2FileSet where
  recoverySetId := 0
  sliceSize := 4
  fileOrder := [0]
  files := [dotDotFile]
  recoveryBlockCount := 0

def nothingToRepair : VerifyResult where
  intact := []
  damaged := []
  missing := []
  recoveryBlocksAvailable := 0
  repairPossible := true

def emptyFold : SharedFold where
  totalSlices := 0
  sliceSize := 4
  solve _ _ := .ok ⟨[], 0, 0, 0⟩

/-- The set calls the only file of the directory by a name that leads out of it. -/
theorem not_par2_safe_dotDot :
    ¬Par2Safe noDigest plainSystem jobDir [dotDotSet] oneFile (fun _ => true) dotDotSet
      nothingToRepair emptyFold oneFile := by
  intro safe
  have moves : (renameAll noDigest plainSystem jobDir [dotDotSet] oneFile).moves =
      [⟨"a".toList, ["x".toList]⟩] := by decide
  have below := safe.renames.inside ⟨"a".toList, ["x".toList]⟩ (by simp [moves])
  have out : ¬Below jobDir ["x".toList] := by
    rintro ⟨suffix, -⟩
    exact absurd suffix (by decide)
  exact out below

end Rustnzb.Postproc.Par2Names
