import Rustnzb.Postproc.Par2Names

/-!
# Runs over the recovery sets

The sets are passed over one after the other, and each sees what the passes before it have left. A
set is at rest when a pass over it moves nothing. It comes to rest in its own pass, and stays so
unless a later set takes a file away that lies under one of its names.
-/

namespace Rustnzb.Postproc.Par2Names

open Decode (Bytes Md5Hash Hashes)
open Lib (Below FileTree components walk)
open Lib.FileTree (SameFiles)

section

variable (hashes : Hashes) (system : System) (dir : Position)

/-- Before each pass, what matches its set goes below the directory. -/
def Confining : List Par2FileSet → Progress → Prop
  | [], _ => True
  | set :: sets, progress =>
      (∀ name target, Matches hashes system dir set progress.tree name target → Below dir target) ∧
        Confining sets (renameToPar2Names hashes system dir progress set)

/-- Before each pass, what matches its set does not lie under a name of an earlier one. -/
def Settling (earlier : List Par2FileSet) : List Par2FileSet → Progress → Prop
  | [], _ => True
  | set :: sets, progress =>
      (∀ name target, Matches hashes system dir set progress.tree name target →
        ∀ other ∈ earlier, ∀ file ∈ other.files,
          progress.tree.find dir file.filename ≠ some (name :: dir)) ∧
        Settling (earlier ++ [set]) sets (renameToPar2Names hashes system dir progress set)

def AtRest (set : Par2FileSet) (tree : JobTree) : Prop :=
  ∀ name target, ¬Matches hashes system dir set tree name target

end

section Runs

variable {hashes : Hashes} {system : System} {dir : Position} {set other : Par2FileSet}
  {sets earlier : List Par2FileSet} {tree tree' : JobTree} {moves : List Move}
  {progress : Progress}

theorem Pass.confined_iff (pass : Pass hashes system dir set tree moves tree') :
    (∀ move ∈ moves, Below dir move.target) ↔
      ∀ name target, Matches hashes system dir set tree name target → Below dir target := by
  constructor
  · intro confined name target isMatch
    rcases pass.filled name target isMatch with ⟨move, mem, rfl⟩
    exact confined move mem
  · intro confining move mem
    exact confining move.source move.target (pass.matching move mem)

theorem run_spec (sets : List Par2FileSet) (progress : Progress) :
    ∃ moves,
      (sets.foldl (renameToPar2Names hashes system dir) progress).moves = progress.moves ++ moves ∧
      Moves dir progress.tree moves
        (sets.foldl (renameToPar2Names hashes system dir) progress).tree ∧
      (∀ move ∈ moves, ∃ set ∈ sets, ∃ file ∈ set.files,
        walk dir (components file.filename) = move.target) ∧
      ((∀ move ∈ moves, Below dir move.target) ↔ Confining hashes system dir sets progress) := by
  induction sets generalizing progress with
  | nil => exact ⟨[], (List.append_nil _).symm, .nil _, by simp, by simp [Confining]⟩
  | cons set sets ih =>
      rcases @renameToPar2Names_spec hashes system dir set progress with ⟨first, moved, pass⟩
      rcases ih (renameToPar2Names hashes system dir progress set) with
        ⟨later, moved', made, named, confined⟩
      rw [List.foldl_cons]
      refine ⟨first ++ later, ?_, pass.made.trans made, ?_, ?_⟩
      · rw [moved', moved, List.append_assoc]
      · rw [List.forall_mem_append]
        constructor
        · intro move mem
          rcases (pass.matching move mem).exists_file with ⟨file, isFile, found⟩
          exact ⟨set, by simp, file, (system.values_perm set).mem_iff.mp isFile,
            FileTree.walk_of_find found⟩
        · intro move mem
          rcases named move mem with ⟨other, isSet, file, isFile, leads⟩
          exact ⟨other, List.mem_cons_of_mem set isSet, file, isFile, leads⟩
      · rw [List.forall_mem_append, pass.confined_iff, confined, Confining]

/-! ## Coming to rest -/

theorem anyMatch_of_node {file : Par2File} (mem : file ∈ set.files) {position : Position}
    (found : tree.find dir file.filename = some position) (isNode : (tree.node position).isSome) :
    anyMatch system dir tree set :=
  anyMatch_iff.mpr ⟨file, mem, position, found, isNode⟩

theorem atRest_of_anyMatch (present : anyMatch system dir tree set) :
    AtRest hashes system dir set tree :=
  fun _ _ isMatch => isMatch.absent present

theorem Pass.atRest (pass : Pass hashes system dir set tree moves tree') :
    AtRest hashes system dir set tree' := by
  rcases moves with _ | ⟨move, moves⟩
  · intro name target isMatch
    rw [pass.made.eq_of_nil] at isMatch
    rcases pass.filled name target isMatch with ⟨move, mem, -⟩
    cases mem
  · have first := pass.matching move List.mem_cons_self
    rcases first.exists_file with ⟨file, mem, found⟩
    have notSource : ∀ other ∈ move :: moves, move.target ≠ other.source :: dir := by
      intro other isMove same
      have isFile := (pass.matching other isMove).isFile
      rw [← same, FileTree.fileAt, first.free] at isFile
      cases isFile
    have isFile := pass.made.node_of_target ⟨move, List.mem_cons_self, rfl⟩ notSource
    rcases Option.isSome_iff_exists.mp isFile with ⟨content, isFile⟩
    apply atRest_of_anyMatch
    apply anyMatch_of_node ((system.values_perm set).mem_iff.mp mem)
    · rw [FileTree.find_congr pass.made.isDirectory, found]
    · exact Option.isSome_of_mem (FileTree.fileAt_eq_some.mp isFile)

theorem find_of_entry {name : Name} (isNode : (tree.node (name :: dir)).isSome) :
    tree.find dir name = some (name :: dir) := by
  exact FileTree.find_of_isName (tree.named name dir isNode)
    (FileTree.isDirectory_iff.mpr (tree.closed name dir isNode))

theorem Pass.keeps_atRest (pass : Pass hashes system dir set tree moves tree')
    (apart : ∀ name target, Matches hashes system dir set tree name target →
      ∀ file ∈ other.files, tree.find dir file.filename ≠ some (name :: dir))
    (rest : AtRest hashes system dir other tree) : AtRest hashes system dir other tree' := by
  by_cases present : anyMatch system dir tree other
  · rcases anyMatch_iff.mp present with ⟨file, mem, position, found, isNode⟩
    have notSource : ∀ move ∈ moves, position ≠ move.source :: dir := by
      rintro move isMove rfl
      exact apart _ _ (pass.matching move isMove) file mem found
    have notTarget : ∀ move ∈ moves, position ≠ move.target := by
      rintro move isMove rfl
      rw [(pass.matching move isMove).free] at isNode
      cases isNode
    apply atRest_of_anyMatch
    apply anyMatch_of_node mem
    · rw [FileTree.find_congr pass.made.isDirectory, found]
    · rwa [pass.made.node_of_ne notSource notTarget]
  · intro name target isMatch
    rcases isMatch.named with ⟨par2Name, isNew, isTarget⟩
    rcases newName_eq_some.mp isNew with ⟨content, isFile, notPar2, hash, hashed, expected, -⟩
    have origin : ∃ entry, tree.fileAt (entry :: dir) = some content ∧ ¬hasPar2Extension entry := by
      rcases pass.made.origin isFile with stayed | moved
      · exact ⟨name, stayed, notPar2⟩
      · exact moved
    rcases origin with ⟨entry, wasFile, wasNotPar2⟩
    have differs : entry ≠ par2Name := by
      rintro rfl
      rcases exists_file_of_expectedName expected with ⟨file, mem, rfl⟩
      have isNode : (tree.node (file.filename :: dir)).isSome :=
        Option.isSome_of_mem (FileTree.fileAt_eq_some.mp wasFile)
      exact present (anyMatch_of_node ((system.values_perm other).mem_iff.mp mem)
        (find_of_entry isNode) isNode)
    refine rest entry target ⟨present, ?_, par2Name, ?_, ?_⟩
    · rw [← pass.made.isDirectory]
      exact isMatch.listable
    · exact newName_eq_some.mpr ⟨content, wasFile, wasNotPar2, hash, hashed, expected, differs⟩
    · rwa [renameTarget_congr pass.made.isDirectory] at isTarget

theorem atRest_of_settling (rest : ∀ set ∈ earlier, AtRest hashes system dir set progress.tree)
    (settling : Settling hashes system dir earlier sets progress) :
    ∀ set ∈ earlier ++ sets, AtRest hashes system dir set
      (sets.foldl (renameToPar2Names hashes system dir) progress).tree := by
  induction sets generalizing earlier progress with
  | nil => rwa [List.append_nil]
  | cons set sets ih =>
      rcases @renameToPar2Names_spec hashes system dir set progress with ⟨moves, -, pass⟩
      rcases settling with ⟨apart, settling⟩
      rw [List.foldl_cons, List.append_cons]
      refine ih ?_ settling
      rw [List.forall_mem_append, List.forall_mem_singleton]
      refine ⟨fun other mem => ?_, pass.atRest⟩
      exact pass.keeps_atRest (fun name target isMatch => apart name target isMatch other mem)
        (rest other mem)

theorem renameToPar2Names_of_moves
    (still : (renameToPar2Names hashes system dir progress set).moves = progress.moves) :
    renameToPar2Names hashes system dir progress set = progress ∧
      AtRest hashes system dir set progress.tree := by
  rcases moved : renameToPar2Names hashes system dir progress set with ⟨tree', moves'⟩
  rcases @renameToPar2Names_spec hashes system dir set progress with ⟨moves, isMoves, pass⟩
  rw [moved] at isMoves pass still
  dsimp only at isMoves pass still
  have none : moves = [] := by
    rw [isMoves] at still
    exact List.append_right_eq_self.mp still
  subst none
  have sameTree : tree' = progress.tree := pass.made.eq_of_nil
  constructor
  · rw [sameTree, still]
  · have rest := pass.atRest
    rwa [sameTree] at rest

theorem renameToPar2Names_of_atRest (rest : AtRest hashes system dir set progress.tree) :
    renameToPar2Names hashes system dir progress set = progress := by
  rcases @renameToPar2Names_spec hashes system dir set progress with ⟨moves, isMoves, pass⟩
  rcases moves with _ | ⟨move, moves⟩
  · rw [List.append_nil] at isMoves
    exact (renameToPar2Names_of_moves isMoves).1
  · exact absurd (pass.matching move List.mem_cons_self) (rest _ _)

theorem run_moves_iff :
    (sets.foldl (renameToPar2Names hashes system dir) progress).moves = progress.moves ↔
      ∀ set ∈ sets, AtRest hashes system dir set progress.tree := by
  induction sets with
  | nil => simp
  | cons set sets ih =>
      rw [List.foldl_cons, List.forall_mem_cons]
      constructor
      · intro still
        rcases @renameToPar2Names_spec hashes system dir set progress with ⟨first, isFirst, -⟩
        rcases run_spec sets (renameToPar2Names hashes system dir progress set) with
          ⟨later, isLater, -⟩
        have none : first ++ later = [] := by
          rw [isLater, isFirst, List.append_assoc] at still
          exact List.append_right_eq_self.mp still
        rw [(List.append_eq_nil_iff.mp none).1, List.append_nil] at isFirst
        rcases renameToPar2Names_of_moves isFirst with ⟨same, rest⟩
        rw [same] at still
        exact ⟨rest, ih.mp still⟩
      · rintro ⟨rest, others⟩
        rw [renameToPar2Names_of_atRest rest]
        exact ih.mpr others

theorem run_of_atRest (rest : ∀ set ∈ sets, AtRest hashes system dir set progress.tree) :
    sets.foldl (renameToPar2Names hashes system dir) progress = progress := by
  induction sets with
  | nil => rfl
  | cons set sets ih =>
      rw [List.forall_mem_cons] at rest
      rw [List.foldl_cons, renameToPar2Names_of_atRest rest.1, ih rest.2]

end Runs

end Rustnzb.Postproc.Par2Names
