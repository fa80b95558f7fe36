import Rustnzb.Lib.Registry
import Mathlib.Data.List.Infix

/-!
# Trees of directories

A tree keeps the files of each directory under its path, and who made the directory, if that is
known. A tree is closed when it has the parent of each of its directories. Whatever is made and
written, a directory keeps its maker and its files; only an empty one can be removed.
-/

namespace Rustnzb.Lib

universe u v w

structure Dir (Owner : Type u) (File : Type v) where
  maker : Option Owner
  files : List File
  deriving DecidableEq

abbrev DirTree (Name : Type w) (Owner : Type u) (File : Type v) :=
  Registry (List Name) (Dir Owner File)

namespace DirTree

variable {Name : Type w} {Owner : Type u} {File : Type v} [DecidableEq Name]
  {tree tree' tree'' : DirTree Name Owner File} {path other : List Name} {owner : Owner}

def addMissing (tree : DirTree Name Owner File) (path : List Name) : DirTree Name Owner File :=
  if path ∈ tree then tree else tree.insert path ⟨none, []⟩

/-- Add the ancestors of a path, down to the one of the given depth. -/
def createDirs (tree : DirTree Name Owner File) (path : List Name) : ℕ → DirTree Name Owner File
  | 0 => addMissing tree []
  | depth + 1 => addMissing (createDirs tree path depth) (path.take (depth + 1))

def createDirAll (tree : DirTree Name Owner File) (path : List Name) : DirTree Name Owner File :=
  createDirs tree path path.length

/-- The directory is new and empty. -/
def createDir (tree : DirTree Name Owner File) (path : List Name) (owner : Owner) :
    DirTree Name Owner File :=
  tree.insert path ⟨some owner, []⟩

def write [DecidableEq File] (tree : DirTree Name Owner File) (path : List Name) (file : File) :
    DirTree Name Owner File :=
  (tree.createDirAll path).modify path fun dir => { dir with files := dir.files.insert file }

/-- The files in a directory and in those below it. -/
def filesUnder (tree : DirTree Name Owner File) (path : List Name) : List File :=
  (tree.entries.filter fun entry => path.isPrefixOf entry.1).flatMap fun entry => entry.2.files

def isEmpty (tree : DirTree Name Owner File) (path : List Name) : Bool :=
  tree.entries.all fun entry =>
    !path.isPrefixOf entry.1 || (entry.1 = path && entry.2.files.isEmpty)

def Closed (tree : DirTree Name Owner File) : Prop :=
  ∀ path ∈ tree, path.dropLast ∈ tree

/-- Every directory is there as it was made, with more files. -/
def Grows (tree tree' : DirTree Name Owner File) : Prop :=
  ∀ path dir, tree.lookup path = some dir →
    ∃ dir', tree'.lookup path = some dir' ∧ dir'.maker = dir.maker ∧ dir.files ⊆ dir'.files

/-- Of the directories, only empty ones that the owner made may be gone, and no file is. -/
def Keeps (owner : Owner) (tree tree' : DirTree Name Owner File) : Prop :=
  ∀ path dir, tree.lookup path = some dir →
    (∃ dir', tree'.lookup path = some dir' ∧ dir'.maker = dir.maker ∧ dir.files ⊆ dir'.files) ∨
      dir.maker = some owner ∧ dir.files = []

theorem Grows.refl : Grows tree tree :=
  fun _ dir isDir => ⟨dir, isDir, rfl, List.Subset.refl _⟩

theorem Grows.trans (first : Grows tree tree') (second : Grows tree' tree'') :
    Grows tree tree'' := by
  intro path dir isDir
  rcases first path dir isDir with ⟨dir', isDir', maker, files⟩
  rcases second path dir' isDir' with ⟨dir'', isDir'', maker', files'⟩
  exact ⟨dir'', isDir'', maker'.trans maker, List.Subset.trans files files'⟩

theorem Grows.mem (grows : Grows tree tree') (isDir : path ∈ tree) : path ∈ tree' := by
  rcases Option.isSome_iff_exists.mp (AList.lookup_isSome.mpr isDir) with ⟨dir, isDir⟩
  rcases grows path dir isDir with ⟨dir', isDir', -⟩
  exact AList.lookup_isSome.mp (Option.isSome_of_mem isDir')

theorem grows_insert (absent : path ∉ tree) (dir : Dir Owner File) :
    Grows tree (tree.insert path dir) := by
  intro other dir' isDir
  have differs : other ≠ path := by
    rintro rfl
    exact absent (AList.lookup_isSome.mp (Option.isSome_of_mem isDir))
  exact ⟨dir', by rwa [AList.lookup_insert_ne differs], rfl, List.Subset.refl _⟩

theorem grows_addMissing : Grows tree (tree.addMissing path) := by
  rw [addMissing]
  split
  · exact Grows.refl
  next absent => exact grows_insert absent _

theorem grows_createDirs (depth : ℕ) : Grows tree (tree.createDirs path depth) := by
  induction depth with
  | zero => exact grows_addMissing
  | succ depth ih => exact ih.trans grows_addMissing

theorem grows_createDirAll : Grows tree (tree.createDirAll path) :=
  grows_createDirs path.length

theorem grows_write [DecidableEq File] (path : List Name) (file : File) :
    Grows tree (tree.write path file) := by
  apply grows_createDirAll.trans
  intro other dir isDir
  rw [write, Registry.lookup_modify, isDir]
  split
  · exact ⟨_, rfl, rfl, fun _ isFile => List.mem_insert_of_mem isFile⟩
  · exact ⟨dir, rfl, rfl, List.Subset.refl _⟩

theorem Grows.keeps (grows : Grows tree tree') (owner : Owner) : Keeps owner tree tree' :=
  fun path dir isDir => .inl (grows path dir isDir)

theorem Keeps.trans (first : Keeps owner tree tree') (second : Keeps owner tree' tree'') :
    Keeps owner tree tree'' := by
  intro path dir isDir
  rcases first path dir isDir with ⟨dir', isDir', maker, files⟩ | removed
  · rcases second path dir' isDir' with ⟨dir'', isDir'', maker', files'⟩ | ⟨maker', empty⟩
    · exact .inl ⟨dir'', isDir'', maker'.trans maker, List.Subset.trans files files'⟩
    · rw [empty] at files
      exact .inr ⟨maker.symm.trans maker', List.subset_nil.mp files⟩
  · exact .inr removed

theorem keeps_erase {dir : Dir Owner File} (isDir : tree.lookup path = some dir)
    (maker : dir.maker = some owner) (empty : dir.files = []) :
    Keeps owner tree (tree.erase path) := by
  intro other dir' isOther
  by_cases same : other = path
  · subst same
    cases isDir.symm.trans isOther
    exact .inr ⟨maker, empty⟩
  · exact .inl ⟨dir', by rwa [AList.lookup_erase_ne same], rfl, List.Subset.refl _⟩

/-- What somebody else made stays. -/
theorem Keeps.lookup_of_maker (keeps : Keeps owner tree tree') {maker : Owner}
    (differs : maker ≠ owner) {dir : Dir Owner File} (isDir : tree.lookup path = some dir)
    (isMaker : dir.maker = some maker) :
    ∃ dir', tree'.lookup path = some dir' ∧ dir'.maker = some maker := by
  rcases keeps path dir isDir with ⟨dir', isDir', same, -⟩ | ⟨same, -⟩
  · exact ⟨dir', isDir', same.trans isMaker⟩
  · exact absurd (Option.some_inj.mp (isMaker.symm.trans same)) differs

theorem Keeps.lookup_of_file (keeps : Keeps owner tree tree') {dir : Dir Owner File} {file : File}
    (isDir : tree.lookup path = some dir) (isFile : file ∈ dir.files) :
    ∃ dir', tree'.lookup path = some dir' ∧ file ∈ dir'.files := by
  rcases keeps path dir isDir with ⟨dir', isDir', -, files⟩ | ⟨-, empty⟩
  · exact ⟨dir', isDir', files isFile⟩
  · rw [empty] at isFile
    cases isFile

theorem mem_addMissing : other ∈ tree.addMissing path ↔ other = path ∨ other ∈ tree := by
  rw [addMissing]
  split
  next present =>
    constructor
    · exact .inr
    · rintro (rfl | isDir)
      · exact present
      · exact isDir
  · exact AList.mem_insert tree

theorem closed_addMissing (closed : tree.Closed) (parent : path.dropLast = path ∨
    path.dropLast ∈ tree) : (tree.addMissing path).Closed := by
  intro other isDir
  rcases mem_addMissing.mp isDir with rfl | isDir
  · rcases parent with same | isDir
    · exact mem_addMissing.mpr (.inl same)
    · exact mem_addMissing.mpr (.inr isDir)
  · exact mem_addMissing.mpr (.inr (closed other isDir))

theorem take_mem_createDirs (tree : DirTree Name Owner File) (path : List Name) (depth : ℕ) :
    path.take depth ∈ tree.createDirs path depth := by
  cases depth with
  | zero => exact mem_addMissing.mpr (.inl rfl)
  | succ depth => exact mem_addMissing.mpr (.inl rfl)

theorem self_mem_createDirAll : path ∈ tree.createDirAll path := by
  have isDir := take_mem_createDirs tree path path.length
  rwa [List.take_length] at isDir

theorem closed_createDirs (closed : tree.Closed) {depth : ℕ} (le : depth ≤ path.length) :
    (tree.createDirs path depth).Closed := by
  induction depth with
  | zero => exact closed_addMissing closed (.inl rfl)
  | succ depth ih =>
      apply closed_addMissing (ih (by omega))
      right
      have parent : (path.take (depth + 1)).dropLast = path.take depth := by
        rw [List.dropLast_eq_take, List.length_take, List.take_take]
        congr 1
        omega
      rw [parent]
      exact take_mem_createDirs tree path depth

theorem closed_createDirAll (closed : tree.Closed) (path : List Name) :
    (tree.createDirAll path).Closed :=
  closed_createDirs closed le_rfl

theorem closed_createDir (closed : tree.Closed) (parent : path.dropLast ∈ tree) (owner : Owner) :
    (tree.createDir path owner).Closed := by
  intro other isDir
  rcases (AList.mem_insert _).mp isDir with rfl | isDir
  · exact (AList.mem_insert _).mpr (.inr parent)
  · exact (AList.mem_insert _).mpr (.inr (closed other isDir))

/-- The file that was written is there. -/
theorem lookup_write [DecidableEq File] (file : File) :
    ∃ dir, (tree.write path file).lookup path = some dir ∧ file ∈ dir.files := by
  have isDir : path ∈ tree.createDirAll path := self_mem_createDirAll
  rcases Option.isSome_iff_exists.mp (AList.lookup_isSome.mpr isDir) with ⟨dir, isDir⟩
  rw [write, Registry.lookup_modify, if_pos rfl, isDir]
  exact ⟨_, rfl, List.mem_insert_self⟩

theorem closed_write [DecidableEq File] (closed : tree.Closed) (file : File) :
    (tree.write path file).Closed := by
  intro other isDir
  rw [write, Registry.mem_modify] at isDir ⊢
  exact closed_createDirAll closed path other isDir

omit [DecidableEq Name] in
theorem Closed.mem_of_prefix (closed : tree.Closed) (isDir : path ∈ tree) (above : other <+: path) :
    other ∈ tree := by
  rcases above with ⟨rest, rfl⟩
  induction rest using List.reverseRecOn with
  | nil => rwa [List.append_nil] at isDir
  | append_singleton rest last ih =>
      apply ih
      have parent := closed _ isDir
      rwa [← List.append_assoc, List.dropLast_concat] at parent

theorem isEmpty_iff : tree.isEmpty path = true ↔ ∀ other dir, tree.lookup other = some dir →
    path <+: other → other = path ∧ dir.files = [] := by
  rw [isEmpty, List.all_eq_true]
  constructor
  · intro empty other dir isDir above
    have entry := empty ⟨other, dir⟩ (AList.mem_lookup_iff.mp isDir)
    simpa [List.isPrefixOf_iff_prefix.mpr above] using entry
  · rintro empty ⟨other, dir⟩ isEntry
    have entry := empty other dir (AList.mem_lookup_iff.mpr isEntry)
    cases above : path.isPrefixOf other with
    | true => simpa [above] using entry (List.isPrefixOf_iff_prefix.mp above)
    | false => rfl

theorem closed_erase (closed : tree.Closed) (empty : tree.isEmpty path = true) :
    Closed (tree.erase path) := by
  intro other isLeft
  rcases AList.mem_erase.mp isLeft with ⟨differs, isDir⟩
  refine AList.mem_erase.mpr ⟨fun same => ?_, closed other isDir⟩
  rcases Option.isSome_iff_exists.mp (AList.lookup_isSome.mpr isDir) with ⟨dir, isDir⟩
  have above : path <+: other := same ▸ List.dropLast_prefix other
  exact differs (isEmpty_iff.mp empty other dir isDir above).1

theorem filesUnder_eq_nil : tree.filesUnder path = [] ↔ ∀ other dir,
    tree.lookup other = some dir → path <+: other → dir.files = [] := by
  rw [filesUnder, List.flatMap_eq_nil_iff]
  constructor
  · intro empty other dir isDir above
    exact empty ⟨other, dir⟩ (List.mem_filter.mpr
      ⟨AList.mem_lookup_iff.mp isDir, List.isPrefixOf_iff_prefix.mpr above⟩)
  · rintro empty ⟨other, dir⟩ isEntry
    rcases List.mem_filter.mp isEntry with ⟨isEntry, above⟩
    exact empty other dir (AList.mem_lookup_iff.mpr isEntry) (List.isPrefixOf_iff_prefix.mp above)

theorem filesUnder_of_isEmpty (empty : tree.isEmpty path = true) : tree.filesUnder path = [] :=
  filesUnder_eq_nil.mpr fun other dir isDir above =>
    (isEmpty_iff.mp empty other dir isDir above).2

/-- A directory is new only if there is none below it. -/
theorem filesUnder_createDir (closed : tree.Closed) (absent : path ∉ tree) (owner : Owner) :
    (tree.createDir path owner).filesUnder path = [] := by
  refine filesUnder_eq_nil.mpr fun other dir isDir above => ?_
  rw [createDir] at isDir
  by_cases same : other = path
  · subst same
    rw [AList.lookup_insert] at isDir
    cases isDir
    rfl
  · rw [AList.lookup_insert_ne same] at isDir
    have present := AList.lookup_isSome.mp (Option.isSome_of_mem isDir)
    exact absurd (closed.mem_of_prefix present above) absent

end DirTree

end Rustnzb.Lib
