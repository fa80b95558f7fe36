import Rustnzb.Postproc.Inflight

/-!
# PAR2-guided deobfuscation

`rename_to_par2_names` gives the files of the job directory the names that a recovery set knows
them by, going by the MD5 of their first 16 KiB. What it may leave under a name: what lay there
before, or a file whose first 16 KiB are those of a PAR2 file of that name.

The order of the directory's entries and of the set's files, and which reads and renames the file
system refuses, are parameters.
-/

namespace Rustnzb.Postproc

open Decode (Bytes Md5Hash Hashes)

def lowercase (name : Name) : Name :=
  name.map Char.toLower

def hasPar2Extension (name : Name) : Bool :=
  ".par2".toList.isSuffixOf (lowercase name)

/-- The MD5 of the first 16 KiB of a file, or of all of it when it is shorter. -/
def hash16k (hashes : Hashes) (bytes : Bytes) : Md5Hash :=
  hashes.md5 (bytes.take (16 * 1024))

/-- What the file system and the hash maps of one run decide. -/
structure Surroundings where
  readDir : Dir → Option (List Name)
  readable : Dir → Name → Bool
  renames : Dir → Name → Name → Bool
  values : Par2FileSet → List Par2File
  values_perm : ∀ set, (values set).Perm set.files

/-- The PAR2 name of the first 16 KiB that hash to `hash`: the last one inserted. -/
def expectedName (files : List Par2File) (hash : Md5Hash) : Option Name :=
  (files.reverse.find? fun file => file.hash16k = hash).map Par2File.filename

def renameEntry (hashes : Hashes) (around : Surroundings) (files : List Par2File) (dir : Dir)
    (name : Name) : Dir :=
  match dir.read name with
  | none => dir
  | some bytes =>
      if hasPar2Extension name || !around.readable dir name then dir
      else
        match expectedName files (hash16k hashes bytes) with
        | none => dir
        | some par2Name =>
            if name ≠ par2Name && (dir par2Name).isNone && around.renames dir name par2Name then
              dir.rename name par2Name
            else dir

def renameToPar2Names (hashes : Hashes) (around : Surroundings) (dir : Dir) (set : Par2FileSet) :
    Dir :=
  let files := around.values set
  if files.any fun file => (dir file.filename).isSome then dir
  else
    match around.readDir dir with
    | none => dir
    | some entries => entries.foldl (renameEntry hashes around files) dir

def renameAll (hashes : Hashes) (around : Surroundings) (fileSets : List Par2FileSet)
    (dir : Dir) : Dir :=
  fileSets.foldl (renameToPar2Names hashes around) dir

/-- A file of `fileSets` is called `name` and begins with the first 16 KiB of `bytes`. -/
def Claims (hashes : Hashes) (fileSets : List Par2FileSet) (name : Name) (bytes : Bytes) : Prop :=
  ∃ set ∈ fileSets, ∃ file ∈ set.files, file.filename = name ∧
    file.hash16k = hash16k hashes bytes

/-- Every file of `after` was in `before`, under its name or with a claim to it. -/
def Settled (hashes : Hashes) (fileSets : List Par2FileSet) (before after : Dir) : Prop :=
  ∀ name bytes, after.read name = some bytes →
    before.read name = some bytes ∨
      Claims hashes fileSets name bytes ∧ ∃ source, before.read source = some bytes

section

variable {hashes : Hashes} {around : Surroundings} {fileSets : List Par2FileSet}

theorem Settled.refl (dir : Dir) : Settled hashes fileSets dir dir :=
  fun _ _ found => .inl found

theorem Settled.trans {first second third : Dir} (before : Settled hashes fileSets first second)
    (after : Settled hashes fileSets second third) : Settled hashes fileSets first third := by
  intro name bytes found
  rcases after name bytes found with kept | ⟨claim, source, moved⟩
  · exact before name bytes kept
  · rcases before source bytes moved with kept | ⟨_, origin, kept⟩
    · exact .inr ⟨claim, source, kept⟩
    · exact .inr ⟨claim, origin, kept⟩

theorem claims_of_expectedName {set : Par2FileSet} (given : set ∈ fileSets) {bytes : Bytes}
    {name : Name} (expected : expectedName (around.values set) (hash16k hashes bytes) = some name) :
    Claims hashes fileSets name bytes := by
  rcases Option.map_eq_some_iff.mp expected with ⟨file, found, rfl⟩
  have listed := List.mem_reverse.mp (List.mem_of_find?_eq_some found)
  exact ⟨set, given, file, (around.values_perm set).mem_iff.mp listed, rfl,
    by simpa using List.find?_some found⟩

theorem settled_renameEntry {set : Par2FileSet} (given : set ∈ fileSets) (dir : Dir) (name : Name) :
    Settled hashes fileSets dir (renameEntry hashes around (around.values set) dir name) := by
  rcases found : dir.read name with _ | bytes
  · simp only [renameEntry, found]
    exact Settled.refl dir
  · simp only [renameEntry, found]
    split
    · exact Settled.refl dir
    · split
      · exact Settled.refl dir
      next par2Name expected =>
        split
        · intro other content read
          simp only [Dir.rename, Dir.read] at read
          by_cases isTarget : other = par2Name
          · subst isTarget
            rw [if_pos rfl] at read
            have same : content = bytes := by
              simp only [Dir.read] at found
              rw [found] at read
              simpa using read.symm
            subst same
            exact .inr ⟨claims_of_expectedName given expected, name, found⟩
          · rw [if_neg isTarget] at read
            by_cases isSource : other = name
            · simp [isSource] at read
            · rw [if_neg isSource] at read
              exact .inl read
        · exact Settled.refl dir

theorem settled_foldl {α : Type} {change : Dir → α → Dir} {items : List α}
    (each : ∀ item ∈ items, ∀ dir, Settled hashes fileSets dir (change dir item)) (dir : Dir) :
    Settled hashes fileSets dir (items.foldl change dir) := by
  induction items generalizing dir with
  | nil => exact Settled.refl dir
  | cons item items ih =>
      have first := each item List.mem_cons_self dir
      exact first.trans (ih (fun other mem => each other (List.mem_cons_of_mem item mem)) _)

theorem settled_renameAll (dir : Dir) :
    Settled hashes fileSets dir (renameAll hashes around fileSets dir) := by
  apply settled_foldl
  intro set given dir
  simp only [renameToPar2Names]
  split
  · exact Settled.refl dir
  · split
    · exact Settled.refl dir
    · exact settled_foldl (fun name _ dir => settled_renameEntry given dir name) dir

end

end Rustnzb.Postproc
