import Rustnzb.Lib.FileTree
import Rustnzb.Postproc.Rename

/-!
# Renaming in the tree of files

`rename_to_par2_names` joins the names of a recovery set to the job directory, and nothing is known
of these names: they may have slashes and dots in them, or be absolute. Here it works on a tree of
files, and keeps a list of the moves that it makes.
-/

namespace Rustnzb.Postproc.Par2Names

open Decode (Bytes Md5Hash Hashes)
open Lib (Below FileTree IsName)
open Lib.FileTree (SameFiles)

abbrev Position := List (List Char)

structure Content where
  bytes : Bytes
  readable : Bool

abbrev JobTree := FileTree Content

/-- What the file system and the hash maps decide. -/
structure System where
  listable : Bool
  readDir : JobTree → Position → List Name
  readDir_perm : ∀ tree position, (readDir tree position).Perm (tree.entries position)
  permits : Position → Bool
  values : Par2FileSet → List Par2File
  values_perm : ∀ set, (values set).Perm set.files

structure Move where
  source : Name
  target : Position
  deriving DecidableEq

structure Progress where
  tree : JobTree
  moves : List Move

def Content.hash16k (hashes : Hashes) (content : Content) : Option Md5Hash :=
  if content.readable then some (Postproc.hash16k hashes content.bytes) else none

section

variable (hashes : Hashes) (system : System) (dir : Position)

def newName (files : List Par2File) (tree : JobTree) (name : Name) : Option Name :=
  match tree.fileAt (name :: dir) with
  | none => none
  | some content =>
      if hasPar2Extension name then none
      else
        match content.hash16k hashes with
        | none => none
        | some hash =>
            match expectedName files hash with
            | none => none
            | some par2Name => if name ≠ par2Name then some par2Name else none

def renameTarget (tree : JobTree) (par2Name : Name) : Option Position :=
  (tree.place dir par2Name).filter fun target => system.permits target

def renameEntry (files : List Par2File) (progress : Progress) (name : Name) : Progress :=
  match newName hashes dir files progress.tree name with
  | none => progress
  | some par2Name =>
      if progress.tree.pathExists dir par2Name then progress
      else
        match renameTarget system dir progress.tree par2Name with
        | none => progress
        | some target =>
            { tree := progress.tree.rename (name :: dir) target
              moves := progress.moves ++ [⟨name, target⟩] }

def anyMatch (tree : JobTree) (set : Par2FileSet) : Bool :=
  (system.values set).any fun file => tree.pathExists dir file.filename

def renameToPar2Names (progress : Progress) (set : Par2FileSet) : Progress :=
  if anyMatch system dir progress.tree set then progress
  else if system.listable && progress.tree.isDirectory dir then
    (system.readDir progress.tree dir).foldl (renameEntry hashes system dir (system.values set))
      progress
  else progress

def renameAll (sets : List Par2FileSet) (tree : JobTree) : Progress :=
  sets.foldl (renameToPar2Names hashes system dir) ⟨tree, []⟩

end

/-! ## Moves -/

/-- A file of the directory that is not a PAR2 file moves to where nothing is. -/
structure LosslessMove (dir : Position) (tree : JobTree) (move : Move) : Prop where
  isFile : (tree.fileAt (move.source :: dir)).isSome
  notPar2 : ¬hasPar2Extension move.source
  holds : tree.CanHold move.target
  free : tree.node move.target = none

inductive Moves (dir : Position) : JobTree → List Move → JobTree → Prop where
  | nil (tree : JobTree) : Moves dir tree [] tree
  | snoc {tree tree' : JobTree} {moves : List Move} {move : Move}
      (made : Moves dir tree moves tree') (lossless : LosslessMove dir tree' move) :
      Moves dir tree (moves ++ [move]) (tree'.rename (move.source :: dir) move.target)

section Moving

variable {dir : Position} {tree tree' tree'' : JobTree} {moves others : List Move} {move : Move}
  {position : Position} {content : Content}

theorem LosslessMove.differs (lossless : LosslessMove dir tree move) :
    move.source :: dir ≠ move.target := by
  intro same
  have isFile := lossless.isFile
  rw [same, FileTree.fileAt, lossless.free] at isFile
  cases isFile

theorem LosslessMove.node (lossless : LosslessMove dir tree move) :
    ∃ content, tree.fileAt (move.source :: dir) = some content ∧
      (tree.rename (move.source :: dir) move.target).node =
        Function.update (Function.update tree.node (move.source :: dir) none) move.target
          (some (.file content)) := by
  rcases Option.isSome_iff_exists.mp lossless.isFile with ⟨content, isFile⟩
  exact ⟨content, isFile, FileTree.node_rename isFile lossless.holds lossless.differs⟩

theorem LosslessMove.node_of_ne (lossless : LosslessMove dir tree move)
    (notSource : position ≠ move.source :: dir) (notTarget : position ≠ move.target) :
    (tree.rename (move.source :: dir) move.target).node position = tree.node position := by
  rcases lossless.node with ⟨content, -, moved⟩
  rw [moved, Function.update_of_ne notTarget, Function.update_of_ne notSource]

theorem Moves.trans (made : Moves dir tree moves tree') (after : Moves dir tree' others tree'') :
    Moves dir tree (moves ++ others) tree'' := by
  induction after with
  | nil => rwa [List.append_nil]
  | snoc made lossless ih =>
      rw [← List.append_assoc]
      exact ih.snoc lossless

theorem Moves.eq_of_nil (made : Moves dir tree [] tree') : tree' = tree := by
  generalize isNil : [] = moves at made
  cases made with
  | nil => rfl
  | snoc => simp at isNil

section

variable (made : Moves dir tree moves tree')

include made

theorem Moves.isDirectory (position : Position) :
    tree'.isDirectory position = tree.isDirectory position := by
  induction made with
  | nil => rfl
  | snoc made lossless ih => rw [FileTree.isDirectory_rename, ih]

theorem Moves.sameFiles : SameFiles tree tree' := by
  induction made with
  | nil => exact SameFiles.refl _
  | snoc made lossless ih =>
      rcases Option.isSome_iff_exists.mp lossless.isFile with ⟨content, isFile⟩
      exact ih.trans (FileTree.sameFiles_rename isFile lossless.holds lossless.free)

theorem Moves.node_of_ne (notSource : ∀ move ∈ moves, position ≠ move.source :: dir)
    (notTarget : ∀ move ∈ moves, position ≠ move.target) :
    tree'.node position = tree.node position := by
  induction made with
  | nil => rfl
  | snoc made lossless ih =>
      rw [List.forall_mem_append, List.forall_mem_singleton] at notSource notTarget
      rw [lossless.node_of_ne notSource.2 notTarget.2, ih notSource.1 notTarget.1]

theorem Moves.node_of_source (isSource : ∃ move ∈ moves, position = move.source :: dir)
    (notTarget : ∀ move ∈ moves, position ≠ move.target) : tree'.node position = none := by
  induction made with
  | nil =>
      rcases isSource with ⟨move, mem, -⟩
      cases mem
  | @snoc tree' moves last made lossless ih =>
      rw [List.forall_mem_append, List.forall_mem_singleton] at notTarget
      rcases lossless.node with ⟨content, -, moved⟩
      rw [moved, Function.update_of_ne notTarget.2]
      by_cases isLast : position = last.source :: dir
      · rw [isLast, Function.update_self]
      · rw [Function.update_of_ne isLast]
        apply ih _ notTarget.1
        rcases isSource with ⟨move, mem, rfl⟩
        rcases List.mem_append.mp mem with mem | mem
        · exact ⟨move, mem, rfl⟩
        · rw [List.mem_singleton.mp mem] at isLast
          exact absurd rfl isLast

theorem Moves.par2 {name : Name}
    (isPar2 : hasPar2Extension name) (isFile : tree.fileAt (name :: dir) = some content) :
    tree'.fileAt (name :: dir) = some content := by
  induction made with
  | nil => exact isFile
  | @snoc tree' moves move made lossless ih =>
      have notSource : name :: dir ≠ move.source :: dir := by
        intro same
        cases same
        exact lossless.notPar2 isPar2
      have notTarget : name :: dir ≠ move.target := by
        intro same
        rw [FileTree.fileAt, same, lossless.free] at ih
        cases ih
      rw [FileTree.fileAt_eq_some, lossless.node_of_ne notSource notTarget]
      exact FileTree.fileAt_eq_some.mp ih

theorem Moves.origin (isFile : tree'.fileAt position = some content) :
    tree.fileAt position = some content ∨
      ∃ name, tree.fileAt (name :: dir) = some content ∧ ¬hasPar2Extension name := by
  induction made generalizing position with
  | nil => exact .inl isFile
  | @snoc tree' moves move made lossless ih =>
      rcases lossless.node with ⟨moving, source, moved⟩
      rw [FileTree.fileAt_eq_some, moved] at isFile
      by_cases isTarget : position = move.target
      · rw [isTarget, Function.update_self] at isFile
        cases isFile
        rcases ih source with stayed | moved
        · exact .inr ⟨move.source, stayed, lossless.notPar2⟩
        · exact .inr moved
      · rw [Function.update_of_ne isTarget] at isFile
        by_cases isSource : position = move.source :: dir
        · rw [isSource, Function.update_self] at isFile
          cases isFile
        · rw [Function.update_of_ne isSource] at isFile
          exact ih (FileTree.fileAt_eq_some.mpr isFile)

theorem Moves.node_of_target (isTarget : ∃ move ∈ moves, position = move.target)
    (notSource : ∀ move ∈ moves, position ≠ move.source :: dir) :
    (tree'.fileAt position).isSome := by
  induction made with
  | nil =>
      rcases isTarget with ⟨move, mem, -⟩
      cases mem
  | @snoc tree' moves last made lossless ih =>
      rw [List.forall_mem_append, List.forall_mem_singleton] at notSource
      rcases lossless.node with ⟨content, -, moved⟩
      by_cases isLast : position = last.target
      · rw [Option.isSome_iff_exists]
        refine ⟨content, FileTree.fileAt_eq_some.mpr ?_⟩
        rw [moved, isLast, Function.update_self]
      · have earlier : ∃ move ∈ moves, position = move.target := by
          rcases isTarget with ⟨move, mem, rfl⟩
          rcases List.mem_append.mp mem with mem | mem
          · exact ⟨move, mem, rfl⟩
          · rw [List.mem_singleton.mp mem] at isLast
            exact absurd rfl isLast
        rcases Option.isSome_iff_exists.mp (ih earlier notSource.1) with ⟨other, isFile⟩
        rw [Option.isSome_iff_exists]
        refine ⟨other, FileTree.fileAt_eq_some.mpr ?_⟩
        rw [lossless.node_of_ne notSource.2 isLast]
        exact FileTree.fileAt_eq_some.mp isFile

end

end Moving

/-! ## The pass over one set -/

section

variable (hashes : Hashes) (system : System) (dir : Position) (set : Par2FileSet) (tree : JobTree)

/-- No file of the set is present, and an entry of the directory has a PAR2 name and could be moved
to it. -/
structure Matches (name : Name) (target : Position) : Prop where
  absent : ¬anyMatch system dir tree set
  listable : system.listable ∧ tree.isDirectory dir
  named : ∃ par2Name, newName hashes dir (system.values set) tree name = some par2Name ∧
    renameTarget system dir tree par2Name = some target

/-- What the pass over a set does: its moves are of entries that match, and every match gets its
target filled. -/
structure Pass (moves : List Move) (tree' : JobTree) : Prop where
  made : Moves dir tree moves tree'
  matching : ∀ move ∈ moves, Matches hashes system dir set tree move.source move.target
  filled : ∀ name target, Matches hashes system dir set tree name target →
    ∃ move ∈ moves, move.target = target

end

section Passing

variable {hashes : Hashes} {system : System} {dir : Position} {set : Par2FileSet}
  {tree tree' : JobTree} {name par2Name : Name} {target position : Position} {content : Content}
  {files : List Par2File} {moves : List Move}

theorem mem_readDir : name ∈ system.readDir tree dir ↔ (tree.node (name :: dir)).isSome := by
  rw [(system.readDir_perm tree dir).mem_iff, FileTree.mem_entries]

theorem newName_eq_some : newName hashes dir files tree name = some par2Name ↔
    ∃ content, tree.fileAt (name :: dir) = some content ∧ ¬hasPar2Extension name ∧
      ∃ hash, content.hash16k hashes = some hash ∧ expectedName files hash = some par2Name ∧
        name ≠ par2Name := by
  rw [newName]
  constructor
  · intro isNew
    split at isNew
    · cases isNew
    next content isFile =>
      split at isNew
      · cases isNew
      next notPar2 =>
        split at isNew
        · cases isNew
        next hash hashed =>
          split at isNew
          · cases isNew
          next other expected =>
            rw [Option.ite_none_right_eq_some, Option.some.injEq] at isNew
            rcases isNew with ⟨differs, rfl⟩
            exact ⟨content, isFile, notPar2, hash, hashed, expected, differs⟩
  · rintro ⟨content, isFile, notPar2, hash, hashed, expected, differs⟩
    simp only [isFile, if_neg notPar2, hashed, expected, if_pos differs]

theorem renameTarget_eq_some : renameTarget system dir tree par2Name = some target ↔
    tree.place dir par2Name = some target ∧ system.permits target := by
  rw [renameTarget, Option.filter_eq_some_iff]

theorem renameTarget_congr
    (same : ∀ position, tree'.isDirectory position = tree.isDirectory position) :
    renameTarget system dir tree' par2Name = renameTarget system dir tree par2Name := by
  rw [renameTarget, renameTarget, FileTree.place_congr same]

theorem exists_file_of_expectedName {hash : Md5Hash}
    (expected : expectedName files hash = some par2Name) :
    ∃ file ∈ files, file.filename = par2Name := by
  rcases Option.map_eq_some_iff.mp expected with ⟨file, found, rfl⟩
  exact ⟨file, List.mem_reverse.mp (List.mem_of_find?_eq_some found), rfl⟩

theorem Matches.exists_file (isMatch : Matches hashes system dir set tree name target) :
    ∃ file ∈ system.values set, tree.find dir file.filename = some target := by
  rcases isMatch.named with ⟨par2Name, isNew, isTarget⟩
  rcases newName_eq_some.mp isNew with ⟨content, -, -, hash, -, expected, -⟩
  rcases exists_file_of_expectedName expected with ⟨file, mem, rfl⟩
  exact ⟨file, mem, FileTree.find_of_place (renameTarget_eq_some.mp isTarget).1⟩

theorem anyMatch_iff : anyMatch system dir tree set ↔ ∃ file ∈ set.files, ∃ position,
    tree.find dir file.filename = some position ∧ (tree.node position).isSome := by
  simp only [anyMatch, List.any_eq_true, FileTree.pathExists_iff, (system.values_perm set).mem_iff]

section

variable (isMatch : Matches hashes system dir set tree name target)

include isMatch

theorem Matches.free :
    tree.node target = none := by
  rcases isMatch.exists_file with ⟨file, mem, found⟩
  by_contra taken
  apply isMatch.absent
  rw [anyMatch_iff]
  exact ⟨file, (system.values_perm set).mem_iff.mp mem, target, found,
    Option.isSome_iff_ne_none.mpr taken⟩

theorem Matches.unique {other : Position}
    (isMatch' : Matches hashes system dir set tree name other) : target = other := by
  rcases isMatch.named with ⟨par2Name, isNew, isTarget⟩
  rcases isMatch'.named with ⟨par2Name', isNew', isTarget'⟩
  rw [isNew, Option.some.injEq] at isNew'
  subst isNew'
  exact Option.some.inj (isTarget.symm.trans isTarget')

theorem Matches.isFile :
    (tree.fileAt (name :: dir)).isSome := by
  rcases isMatch.named with ⟨par2Name, isNew, -⟩
  rcases newName_eq_some.mp isNew with ⟨content, isFile, -⟩
  exact Option.isSome_of_mem isFile

end

theorem newName_congr (same : tree'.fileAt (name :: dir) = tree.fileAt (name :: dir)) :
    newName hashes dir files tree' name = newName hashes dir files tree name := by
  rw [newName, newName, same]

theorem exists_target (made : Moves dir tree moves tree')
    (matching : ∀ move ∈ moves, Matches hashes system dir set tree move.source move.target)
    (free : tree.node target = none) (filled : (tree'.node target).isSome) :
    ∃ move ∈ moves, move.target = target := by
  by_contra none
  have notTarget : ∀ move ∈ moves, target ≠ move.target :=
    fun move mem same => none ⟨move, mem, same.symm⟩
  have notSource : ∀ move ∈ moves, target ≠ move.source :: dir := by
    rintro move mem rfl
    have isFile := (matching move mem).isFile
    rw [FileTree.fileAt, free] at isFile
    cases isFile
  rw [made.node_of_ne notSource notTarget, free] at filled
  cases filled

theorem fileAt_of_made (made : Moves dir tree moves tree')
    (matching : ∀ move ∈ moves, Matches hashes system dir set tree move.source move.target)
    (isNode : (tree.node (name :: dir)).isSome) :
    (∃ move ∈ moves, move.source = name) ∧ tree'.fileAt (name :: dir) = none ∨
      (∀ move ∈ moves, move.source ≠ name) ∧
        tree'.fileAt (name :: dir) = tree.fileAt (name :: dir) := by
  have notTarget : ∀ move ∈ moves, name :: dir ≠ move.target := by
    intro move mem same
    rw [same, (matching move mem).free] at isNode
    cases isNode
  by_cases isSource : ∃ move ∈ moves, move.source = name
  · left
    refine ⟨isSource, ?_⟩
    rcases isSource with ⟨move, mem, rfl⟩
    rw [FileTree.fileAt, made.node_of_source ⟨move, mem, rfl⟩ notTarget]
  · right
    rw [not_exists] at isSource
    have notSource : ∀ move ∈ moves, move.source ≠ name :=
      fun move mem same => isSource move ⟨mem, same⟩
    refine ⟨notSource, ?_⟩
    rw [FileTree.fileAt, FileTree.fileAt, made.node_of_ne _ notTarget]
    intro move mem same
    cases same
    exact notSource move mem rfl

/-- One turn of the loop: a move of an entry that matches, or none because it does not match or
because its target is filled. -/
theorem renameEntry_spec (absent : ¬anyMatch system dir tree set)
    (listable : system.listable ∧ tree.isDirectory dir) {before : List Move} {progress : Progress}
    (sofar : progress.moves = before ++ moves) (made : Moves dir tree moves progress.tree)
    (matching : ∀ move ∈ moves, Matches hashes system dir set tree move.source move.target)
    (isNode : (tree.node (name :: dir)).isSome) :
    ∃ more,
      (renameEntry hashes system dir (system.values set) progress name).moves =
        before ++ (moves ++ more) ∧
      Moves dir tree (moves ++ more)
        (renameEntry hashes system dir (system.values set) progress name).tree ∧
      (∀ move ∈ moves ++ more, Matches hashes system dir set tree move.source move.target) ∧
      ∀ target, Matches hashes system dir set tree name target →
        ∃ move ∈ moves ++ more, move.target = target := by
  have still (unchanged : ∀ target, Matches hashes system dir set tree name target →
      ∃ move ∈ moves, move.target = target) :
      ∃ more, progress.moves = before ++ (moves ++ more) ∧
        Moves dir tree (moves ++ more) progress.tree ∧
        (∀ move ∈ moves ++ more, Matches hashes system dir set tree move.source move.target) ∧
        ∀ target, Matches hashes system dir set tree name target →
          ∃ move ∈ moves ++ more, move.target = target := by
    refine ⟨[], ?_⟩
    rw [List.append_nil]
    exact ⟨sofar, made, matching, unchanged⟩
  rw [renameEntry]
  split
  next isNew =>
    apply still
    intro target isMatch
    rcases fileAt_of_made made matching isNode with ⟨⟨move, mem, rfl⟩, -⟩ | ⟨-, same⟩
    · exact ⟨move, mem, (matching move mem).unique isMatch⟩
    · rcases isMatch.named with ⟨par2Name, isNew', -⟩
      rw [newName_congr same, isNew'] at isNew
      cases isNew
  next par2Name isNew =>
    have isNew' : newName hashes dir (system.values set) tree name = some par2Name := by
      rcases fileAt_of_made made matching isNode with ⟨-, gone⟩ | ⟨-, same⟩
      · rcases newName_eq_some.mp isNew with ⟨content, isFile, -⟩
        rw [gone] at isFile
        cases isFile
      · rwa [newName_congr same] at isNew
    have target_of_match : ∀ target, Matches hashes system dir set tree name target →
        renameTarget system dir progress.tree par2Name = some target := by
      intro target isMatch
      rcases isMatch.named with ⟨other, isOther, isTarget⟩
      rw [isNew', Option.some.injEq] at isOther
      rwa [renameTarget_congr made.isDirectory, isOther]
    split
    next isThere =>
      apply still
      intro target isMatch
      have placed := (renameTarget_eq_some.mp (target_of_match target isMatch)).1
      rcases FileTree.pathExists_iff.mp isThere with ⟨position, found, filled⟩
      rw [FileTree.find_of_place placed, Option.some.injEq] at found
      subst found
      exact exists_target made matching isMatch.free filled
    next isFree =>
      split
      next noTarget =>
        apply still
        intro target isMatch
        rw [target_of_match target isMatch] at noTarget
        cases noTarget
      next target isTarget =>
        have placed := (renameTarget_eq_some.mp isTarget).1
        have free : progress.tree.node target = none := by
          by_contra taken
          exact isFree (FileTree.pathExists_iff.mpr ⟨target, FileTree.find_of_place placed,
            Option.isSome_iff_ne_none.mpr taken⟩)
        have isMatch : Matches hashes system dir set tree name target := by
          refine ⟨absent, listable, par2Name, isNew', ?_⟩
          rwa [renameTarget_congr made.isDirectory] at isTarget
        have lossless : LosslessMove dir progress.tree ⟨name, target⟩ := by
          rcases newName_eq_some.mp isNew with ⟨content, isFile, notPar2, -⟩
          have holds := FileTree.canHold_of_place placed free
          exact ⟨Option.isSome_of_mem isFile, notPar2, holds, free⟩
        refine ⟨[⟨name, target⟩], ?_, made.snoc lossless, ?_, ?_⟩
        · rw [sofar, List.append_assoc]
        · exact List.forall_mem_append.mpr ⟨matching, List.forall_mem_singleton.mpr isMatch⟩
        · intro other isMatch'
          exact ⟨⟨name, target⟩, by simp, isMatch.unique isMatch'⟩

theorem entries_spec (absent : ¬anyMatch system dir tree set)
    (listable : system.listable ∧ tree.isDirectory dir) {before : List Move} {entries : List Name}
    (areNodes : ∀ name ∈ entries, (tree.node (name :: dir)).isSome) {progress : Progress}
    (sofar : progress.moves = before ++ moves) (made : Moves dir tree moves progress.tree)
    (matching : ∀ move ∈ moves, Matches hashes system dir set tree move.source move.target) :
    ∃ more,
      (entries.foldl (renameEntry hashes system dir (system.values set)) progress).moves =
        before ++ (moves ++ more) ∧
      Moves dir tree (moves ++ more)
        (entries.foldl (renameEntry hashes system dir (system.values set)) progress).tree ∧
      (∀ move ∈ moves ++ more, Matches hashes system dir set tree move.source move.target) ∧
      ∀ name ∈ entries, ∀ target, Matches hashes system dir set tree name target →
        ∃ move ∈ moves ++ more, move.target = target := by
  induction entries generalizing moves progress with
  | nil =>
      refine ⟨[], ?_⟩
      rw [List.append_nil]
      exact ⟨sofar, made, matching, by simp⟩
  | cons name entries ih =>
      rw [List.forall_mem_cons] at areNodes
      rcases renameEntry_spec absent listable sofar made matching areNodes.1 with
        ⟨first, sofar, made, matching, filled⟩
      rcases ih areNodes.2 sofar made matching with ⟨more, sofar, made, matching, filled'⟩
      rw [List.append_assoc] at sofar made matching filled'
      refine ⟨first ++ more, sofar, made, matching, ?_⟩
      rw [List.forall_mem_cons]
      refine ⟨fun target isMatch => ?_, filled'⟩
      rcases filled target isMatch with ⟨move, mem, same⟩
      refine ⟨move, ?_, same⟩
      rw [← List.append_assoc]
      exact List.mem_append_left more mem

theorem renameToPar2Names_spec (progress : Progress) :
    ∃ moves,
      (renameToPar2Names hashes system dir progress set).moves = progress.moves ++ moves ∧
      Pass hashes system dir set progress.tree moves
        (renameToPar2Names hashes system dir progress set).tree := by
  have still (noMatch : ∀ name target,
      ¬Matches hashes system dir set progress.tree name target) :
      ∃ moves, progress.moves = progress.moves ++ moves ∧
        Pass hashes system dir set progress.tree moves progress.tree := by
    refine ⟨[], (List.append_nil _).symm, .nil _, by simp, ?_⟩
    intro name target isMatch
    exact absurd isMatch (noMatch name target)
  rw [renameToPar2Names]
  split
  next present =>
    apply still
    intro name target isMatch
    exact isMatch.absent present
  next absent =>
    split
    next listable =>
      rw [Bool.and_eq_true] at listable
      rcases @entries_spec hashes system dir set progress.tree [] absent listable progress.moves
          (system.readDir progress.tree dir)
          (fun name mem => mem_readDir.mp mem) progress
          (List.append_nil _).symm (.nil _) (by simp) with
        ⟨moves, sofar, made, matching, filled⟩
      refine ⟨moves, sofar, made, matching, ?_⟩
      intro name target isMatch
      refine filled name (mem_readDir.mpr ?_) target isMatch
      rcases Option.isSome_iff_exists.mp isMatch.isFile with ⟨content, isFile⟩
      exact Option.isSome_of_mem (FileTree.fileAt_eq_some.mp isFile)
    next unlisted =>
      apply still
      intro name target isMatch
      exact unlisted (Bool.and_eq_true _ _ ▸ isMatch.listable)

end Passing

end Rustnzb.Postproc.Par2Names
