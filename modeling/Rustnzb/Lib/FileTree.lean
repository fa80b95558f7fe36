import Rustnzb.Lib.Path
import Rustnzb.Lib.Registry

/-!
# Trees of files

A tree has nodes at its positions: files, directories and special nodes, but no links. An operating
system walks a path through the directories of the tree, and ends, if it gets through, where the
path leads lexically. A file that moves to a free position leaves the tree with the same files.
-/

namespace Rustnzb.Lib

universe u

inductive Node (File : Type u) where
  | file (file : File)
  | directory
  | special

/-- A piece of a path that stands for itself. -/
def IsName (name : List Char) : Prop := ofPiece name = some (.name name) ∧ '/' ∉ name

instance (name : List Char) : Decidable (IsName name) :=
  inferInstanceAs (Decidable (_ ∧ _))

/-- Every node but the root lies in a directory, under a name. -/
structure FileTree (File : Type u) where
  nodes : Registry (List (List Char)) (Node File)
  root : nodes.lookup [] = some .directory
  closed : ∀ name parent, (nodes.lookup (name :: parent)).isSome →
    nodes.lookup parent = some .directory
  named : ∀ name parent, (nodes.lookup (name :: parent)).isSome → IsName name

namespace FileTree

variable {File : Type u}

def node (tree : FileTree File) (position : List (List Char)) : Option (Node File) :=
  tree.nodes.lookup position

def isDirectory (tree : FileTree File) (position : List (List Char)) : Bool :=
  match tree.node position with
  | some .directory => true
  | _ => false

def fileAt (tree : FileTree File) (position : List (List Char)) : Option File :=
  match tree.node position with
  | some (.file file) => some file
  | _ => none

/-- The names in a directory. -/
def entries (tree : FileTree File) (parent : List (List Char)) : List (List Char) :=
  tree.nodes.keys.filterMap fun position =>
    match position with
    | [] => none
    | name :: above => if above = parent then some name else none

/-- What is in the files, wherever they are. -/
def contents (tree : FileTree File) : List File :=
  tree.nodes.entries.filterMap fun entry =>
    match entry.2 with
    | .file file => some file
    | .directory | .special => none

/-- The same files, each as often, wherever they are. -/
def SameFiles (before after : FileTree File) : Prop := before.contents.Perm after.contents

/-! ## Walking -/

/-- From a position over one piece of a path. -/
def enter (tree : FileTree File) (position : List (List Char)) (piece : List Char) :
    Option (List (List Char)) :=
  if tree.isDirectory position then
    some (((ofPiece piece).map fun component => component.apply position).getD position)
  else none

/-- Where a path from a base leads, if there is a directory wherever it goes on. -/
def find (tree : FileTree File) (base : List (List Char)) (path : List Char) :
    Option (List (List Char)) :=
  (pieces path).foldlM tree.enter (if isAbsolute path then [] else base)

def pathExists (tree : FileTree File) (base : List (List Char)) (path : List Char) : Bool :=
  (tree.find base path).any fun position => (tree.node position).isSome

/-- Where a path leads that ends with a name. -/
def place (tree : FileTree File) (base : List (List Char)) (path : List Char) :
    Option (List (List Char)) :=
  if (pieces path).getLast?.any fun last => IsName last then tree.find base path else none

/-! ## Changing -/

/-- A file can be put there, in the place of one that is there already. -/
def CanHold (tree : FileTree File) : List (List Char) → Prop
  | [] => False
  | name :: parent =>
      IsName name ∧ tree.isDirectory parent ∧ ¬tree.isDirectory (name :: parent)

instance (tree : FileTree File) (position : List (List Char)) :
    Decidable (tree.CanHold position) :=
  match position with
  | [] => isFalse id
  | _ :: _ => inferInstanceAs (Decidable (_ ∧ _ ∧ _))

section Changing

variable {tree : FileTree File} {position other : List (List Char)}

theorem isDirectory_iff : tree.isDirectory position ↔ tree.node position = some .directory := by
  rw [isDirectory]
  split <;> simp_all

theorem fileAt_eq_some {file : File} :
    tree.fileAt position = some file ↔ tree.node position = some (.file file) := by
  rw [fileAt]
  split <;> simp_all

theorem not_isDirectory_of_file (isFile : (tree.fileAt position).isSome) :
    ¬tree.isDirectory position := by
  rcases Option.isSome_iff_exists.mp isFile with ⟨file, isFile⟩
  rw [isDirectory_iff, fileAt_eq_some.mp isFile]
  simp

/-- Put a file where it can be held. -/
def put (tree : FileTree File) (position : List (List Char)) (file : File) : FileTree File :=
  if holds : tree.CanHold position then
    { nodes := tree.nodes.insert position (.file file)
      root := by
        have notRoot : [] ≠ position := by
          rintro rfl
          exact holds
        rw [AList.lookup_insert_ne notRoot, tree.root]
      closed := by
        intro name parent isNode
        have isDirectory : tree.node parent = some .directory := by
          by_cases same : name :: parent = position
          · subst same
            exact isDirectory_iff.mp holds.2.1
          · rw [AList.lookup_insert_ne same] at isNode
            exact tree.closed name parent isNode
        have differs : parent ≠ position := by
          rintro rfl
          cases parent with
          | nil => exact holds
          | cons name parent => exact holds.2.2 (isDirectory_iff.mpr isDirectory)
        rw [AList.lookup_insert_ne differs]
        exact isDirectory
      named := by
        intro name parent isNode
        by_cases same : name :: parent = position
        · subst same
          exact holds.1
        · rw [AList.lookup_insert_ne same] at isNode
          exact tree.named name parent isNode }
  else tree

/-- Take a file away. -/
def remove (tree : FileTree File) (position : List (List Char)) : FileTree File :=
  if isFile : (tree.fileAt position).isSome then
    { nodes := tree.nodes.erase position
      root := by
        have notRoot : [] ≠ position := by
          rintro rfl
          exact not_isDirectory_of_file isFile (isDirectory_iff.mpr tree.root)
        rw [AList.lookup_erase_ne notRoot, tree.root]
      closed := by
        intro name parent isNode
        have isDirectory := tree.closed name parent
          (Option.isSome_of_mem (Registry.lookup_of_lookup_erase (Option.get_mem isNode)))
        have differs : parent ≠ position := by
          rintro rfl
          exact not_isDirectory_of_file isFile (isDirectory_iff.mpr isDirectory)
        rw [AList.lookup_erase_ne differs, isDirectory]
      named := by
        intro name parent isNode
        exact tree.named name parent
          (Option.isSome_of_mem (Registry.lookup_of_lookup_erase (Option.get_mem isNode))) }
  else tree

/-- Move a file, onto one that is there already if there is one. -/
def rename (tree : FileTree File) (source target : List (List Char)) : FileTree File :=
  match tree.fileAt source with
  | none => tree
  | some file =>
      if source ≠ target ∧ tree.CanHold target then (tree.remove source).put target file
      else tree

end Changing

section Walking

theorem pieces_of_isName {name : List Char} (isName : IsName name) : pieces name = [name] := by
  have plain := isName.2
  clear isName
  induction name with
  | nil => rfl
  | cons char name ih =>
      rw [List.mem_cons, not_or] at plain
      rw [pieces, List.foldr_cons, ← pieces, ih plain.2, before, if_neg (Ne.symm plain.1)]

theorem not_isAbsolute_of_isName {name : List Char} (isName : IsName name) : ¬isAbsolute name := by
  rintro absolute
  exact isName.2 (List.mem_of_mem_head? (of_decide_eq_true absolute))

variable {tree tree' : FileTree File} {base position : List (List Char)} {path : List Char}

theorem enter_eq_some {start : List (List Char)} {piece : List Char} :
    tree.enter start piece = some position ↔ tree.isDirectory start ∧
      walk start ((ofPiece piece).toList) = position := by
  rw [enter, Option.ite_none_right_eq_some, Option.some.injEq]
  cases ofPiece piece <;> rfl

theorem foldlM_enter {start : List (List Char)} {parts : List (List Char)}
    (found : parts.foldlM tree.enter start = some position) :
    walk start (parts.filterMap ofPiece) = position := by
  induction parts generalizing start with
  | nil =>
      rw [List.foldlM_nil] at found
      exact Option.some.inj found
  | cons part parts ih =>
      rw [List.foldlM_cons, Option.bind_eq_bind, Option.bind_eq_some_iff] at found
      rcases found with ⟨next, entered, rest⟩
      rcases enter_eq_some.mp entered with ⟨-, rfl⟩
      rw [← ih rest, List.filterMap_cons]
      cases ofPiece part <;> rfl

/-- The system ends where the path leads lexically. -/
theorem walk_of_find (found : tree.find base path = some position) :
    walk base (components path) = position := by
  rw [find] at found
  rw [← foldlM_enter found, components, walk_append]
  split <;> rfl

theorem find_of_place (placed : tree.place base path = some position) :
    tree.find base path = some position := by
  rw [place] at placed
  split at placed
  · exact placed
  · cases placed

section

variable (same : ∀ position, tree'.isDirectory position = tree.isDirectory position)

include same

theorem enter_congr :
    tree'.enter = tree.enter := by
  funext position piece
  rw [enter, enter, same]

theorem find_congr
    (base : List (List Char)) (path : List Char) : tree'.find base path = tree.find base path := by
  rw [find, find, enter_congr same]

theorem place_congr (base : List (List Char)) (path : List Char) :
    tree'.place base path = tree.place base path := by
  rw [place, place, find_congr same]

end

/-- The place of a path is a name in a directory. -/
theorem of_place (placed : tree.place base path = some position) :
    ∃ name parent, position = name :: parent ∧ IsName name ∧ tree.isDirectory parent := by
  rw [place] at placed
  split at placed
  next ends =>
    rcases (Option.any_eq_true _ _).mp ends with ⟨last, isLast, isName⟩
    rcases List.getLast?_eq_some_iff.mp isLast with ⟨front, split⟩
    rw [find, split, List.foldlM_append, Option.bind_eq_bind, Option.bind_eq_some_iff] at placed
    rcases placed with ⟨parent, -, entered⟩
    rw [List.foldlM_cons, Option.bind_eq_bind, Option.bind_eq_some_iff] at entered
    rcases entered with ⟨next, entered, same⟩
    rcases enter_eq_some.mp entered with ⟨isDirectory, rfl⟩
    have isName := of_decide_eq_true isName
    rw [isName.1] at same
    exact ⟨_, parent, (Option.some.inj same).symm, isName, isDirectory⟩
  · cases placed

/-- A file can be put at a place that is free. -/
theorem canHold_of_place (placed : tree.place base path = some position)
    (free : tree.node position = none) : tree.CanHold position := by
  rcases of_place placed with ⟨name, parent, rfl, isName, isDirectory⟩
  refine ⟨isName, isDirectory, ?_⟩
  rw [isDirectory_iff, free]
  simp

/-- A name that stands for itself leads into the directory. -/
theorem find_of_isName {name : List Char} (isName : IsName name)
    (isDirectory : tree.isDirectory base) : tree.find base name = some (name :: base) := by
  rw [find, pieces_of_isName isName, if_neg (not_isAbsolute_of_isName isName),
    List.foldlM_cons, enter_eq_some.mpr ⟨isDirectory, rfl⟩, isName.1]
  rfl

theorem pathExists_iff :
    tree.pathExists base path ↔ ∃ position, tree.find base path = some position ∧
      (tree.node position).isSome := by
  rw [pathExists, Option.any_eq_true]

end Walking

section Moving

variable {tree : FileTree File} {position source target : List (List Char)} {file : File}

theorem nodes_put (holds : tree.CanHold target) :
    (tree.put target file).nodes = tree.nodes.insert target (.file file) := by
  rw [put, dif_pos holds]

theorem nodes_remove (isFile : (tree.fileAt source).isSome) :
    (tree.remove source).nodes = tree.nodes.erase source := by
  rw [remove, dif_pos isFile]

theorem node_put (holds : tree.CanHold target) :
    (tree.put target file).node = Function.update tree.node target (some (.file file)) := by
  funext position
  rw [node, nodes_put holds]
  by_cases same : position = target
  · subst same
    rw [AList.lookup_insert, Function.update_self]
  · rw [AList.lookup_insert_ne same, Function.update_of_ne same, node]

theorem node_remove (isFile : (tree.fileAt source).isSome) :
    (tree.remove source).node = Function.update tree.node source none := by
  funext position
  rw [node, nodes_remove isFile]
  by_cases same : position = source
  · subst same
    rw [AList.lookup_erase, Function.update_self]
  · rw [AList.lookup_erase_ne same, Function.update_of_ne same, node]

theorem mem_entries {name : List Char} :
    name ∈ tree.entries position ↔ (tree.node (name :: position)).isSome := by
  rw [entries, List.mem_filterMap, node, AList.lookup_isSome, AList.mem_keys]
  constructor
  · rintro ⟨other, isKey, isName⟩
    cases other with
    | nil => cases isName
    | cons first above =>
        rw [Option.ite_none_right_eq_some, Option.some.injEq] at isName
        rcases isName with ⟨rfl, rfl⟩
        exact isKey
  · intro isKey
    exact ⟨name :: position, isKey, if_pos rfl⟩

theorem isDirectory_of_update {tree' : FileTree File} {entry : Option (Node File)}
    (updated : tree'.node = Function.update tree.node source entry)
    (notNew : entry ≠ some .directory) (notOld : ¬tree.isDirectory source) :
    tree'.isDirectory position = tree.isDirectory position := by
  rw [Bool.eq_iff_iff, isDirectory_iff, isDirectory_iff, updated]
  by_cases same : position = source
  · subst same
    rw [Function.update_self]
    exact iff_of_false notNew (isDirectory_iff.not.mp notOld)
  · rw [Function.update_of_ne same]

@[simp]
theorem isDirectory_remove :
    (tree.remove source).isDirectory position = tree.isDirectory position := by
  by_cases isFile : (tree.fileAt source).isSome
  · exact isDirectory_of_update (node_remove isFile) nofun (not_isDirectory_of_file isFile)
  · rw [remove, dif_neg isFile]

theorem canHold_remove : (tree.remove source).CanHold target ↔ tree.CanHold target := by
  cases target with
  | nil => exact Iff.rfl
  | cons name parent => rw [CanHold, CanHold, isDirectory_remove, isDirectory_remove]

theorem not_isDirectory_of_canHold (holds : tree.CanHold position) :
    ¬tree.isDirectory position := by
  cases position with
  | nil => exact absurd holds id
  | cons name parent => exact holds.2.2

@[simp]
theorem isDirectory_put :
    (tree.put target file).isDirectory position = tree.isDirectory position := by
  by_cases holds : tree.CanHold target
  · exact isDirectory_of_update (node_put holds) nofun (not_isDirectory_of_canHold holds)
  · rw [put, dif_neg holds]

/-- Moving files leaves the directories. -/
@[simp]
theorem isDirectory_rename :
    (tree.rename source target).isDirectory position = tree.isDirectory position := by
  rw [rename]
  split
  · rfl
  · split
    · rw [isDirectory_put, isDirectory_remove]
    · rfl

theorem node_rename (isFile : tree.fileAt source = some file) (holds : tree.CanHold target)
    (differs : source ≠ target) :
    (tree.rename source target).node =
      Function.update (Function.update tree.node source none) target (some (.file file)) := by
  have isSome : (tree.fileAt source).isSome := Option.isSome_of_mem isFile
  rw [rename, isFile]
  dsimp only
  rw [if_pos ⟨differs, holds⟩, node_put (canHold_remove.mpr holds), node_remove isSome]

/-- A file that moves to a free position leaves the same files. -/
theorem sameFiles_rename (isFile : tree.fileAt source = some file) (holds : tree.CanHold target)
    (free : tree.node target = none) : SameFiles tree (tree.rename source target) := by
  have differs : source ≠ target := by
    rintro rfl
    rw [fileAt, free] at isFile
    cases isFile
  have isSome : (tree.fileAt source).isSome := Option.isSome_of_mem isFile
  have moved : (tree.rename source target).nodes =
      (tree.nodes.erase source).insert target (.file file) := by
    rw [rename, isFile]
    dsimp only
    rw [if_pos ⟨differs, holds⟩, nodes_put (canHold_remove.mpr holds), nodes_remove isSome]
  have isNode := fileAt_eq_some.mp isFile
  have isKey : source ∈ tree.nodes.entries.keys := by
    rw [← AList.keys, ← AList.mem_keys, ← AList.lookup_isSome]
    exact Option.isSome_of_mem isNode
  rcases List.exists_of_kerase isKey with ⟨value, before, after, -, split, erased⟩
  have isFile' : value = .file file := by
    have mem : (⟨source, value⟩ : Sigma fun _ => Node File) ∈ tree.nodes.entries := by
      rw [split]
      simp
    exact Option.some.inj ((AList.mem_lookup_iff.mpr mem).symm.trans isNode)
  have absent : target ∉ (tree.nodes.erase source).keys := by
    rw [← AList.mem_keys, ← AList.lookup_isSome, AList.lookup_erase_ne (Ne.symm differs)]
    rw [node] at free
    simp [free]
  have entries : (tree.rename source target).nodes.entries =
      ⟨target, .file file⟩ :: (before ++ after) := by
    rw [moved, AList.entries_insert, ← erased]
    exact congrArg _ (List.kerase_of_notMem_keys absent)
  rw [SameFiles, contents, contents, entries, split, isFile']
  simp only [List.filterMap_append, List.filterMap_cons]
  exact List.perm_middle

theorem SameFiles.refl (tree : FileTree File) : SameFiles tree tree := List.Perm.refl _

theorem SameFiles.trans {first second third : FileTree File} (before : SameFiles first second)
    (after : SameFiles second third) : SameFiles first third :=
  List.Perm.trans before after

/-- What is put somewhere changes nothing elsewhere. -/
theorem node_put_of_ne (differs : position ≠ target) :
    (tree.put target file).node position = tree.node position := by
  by_cases holds : tree.CanHold target
  · rw [node_put holds, Function.update_of_ne differs]
  · rw [put, dif_neg holds]

end Moving

end FileTree

end Rustnzb.Lib
