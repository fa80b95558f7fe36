import Mathlib.Data.Char
import Rustnzb.Postproc.Rename

/-!
# Which files are archives

A directory tree is the list of its regular files, in the order in which they are walked; links
are left out. `find_archives` lists what is handed to an extractor, the first volume of a set for
all of it, and `find_cleanup_files` lists what is deleted afterwards. The two read the names of
files by rules of their own. `archiveOf` is a third reading, which neither of them makes: the
archive that a file is a volume of.
-/

namespace Rustnzb.Postproc

open Decode (Bytes)

structure FileAt where
  directory : List Name
  name : Name
  posted : Name
  content : Bytes
  deriving DecidableEq

namespace FileAt

def path (file : FileAt) : List Name := file.directory ++ [file.name]

end FileAt

structure Tree where
  files : List FileAt
  nodup : (files.map FileAt.path).Nodup

namespace Tree

def lookup (tree : Tree) (path : List Name) : Option FileAt :=
  tree.files.find? fun file => file.path = path

def write (tree : Tree) (file : FileAt) : Tree where
  files := tree.files.filter (fun other => other.path ≠ file.path) ++ [file]
  nodup := by
    rw [List.map_append, List.nodup_append]
    refine ⟨tree.nodup.sublist (List.filter_sublist.map _), by simp, ?_⟩
    intro path mem last isLast same
    rcases List.mem_map.mp mem with ⟨other, otherMem, rfl⟩
    simp only [List.mem_filter, decide_eq_true_eq] at otherMem
    rw [List.map_singleton, List.mem_singleton] at isLast
    exact otherMem.2 (same.trans isLast)

theorem path_of_lookup {tree : Tree} {path : List Name} {file : FileAt}
    (found : tree.lookup path = some file) : file.path = path := by
  simpa using List.find?_some found

theorem mem_of_lookup {tree : Tree} {path : List Name} {file : FileAt}
    (found : tree.lookup path = some file) : file ∈ tree.files :=
  List.mem_of_find?_eq_some found

theorem lookup_of_mem {tree : Tree} {file : FileAt} (mem : file ∈ tree.files) :
    tree.lookup file.path = some file := by
  rcases found : tree.lookup file.path with _ | other
  · have none := List.find?_eq_none.mp found file mem
    simp at none
  · have same := path_of_lookup found
    rw [List.inj_on_of_nodup_map tree.nodup (mem_of_lookup found) mem same]

theorem lookup_write (tree : Tree) (file : FileAt) (path : List Name) :
    (tree.write file).lookup path = if path = file.path then some file else tree.lookup path := by
  simp only [write, lookup, List.find?_append]
  by_cases asked : path = file.path
  · have none : (tree.files.filter fun other => decide (other.path ≠ file.path)).find?
        (fun other => decide (other.path = path)) = none := by
      rw [List.find?_eq_none]
      intro other mem
      simp only [List.mem_filter, decide_eq_true_eq] at mem
      simp [asked, mem.2]
    rw [none]
    simp [asked]
  · have same : (tree.files.filter fun other => decide (other.path ≠ file.path)).find?
        (fun other => decide (other.path = path)) =
          tree.files.find? fun other => decide (other.path = path) := by
      rw [List.find?_filter]
      congr 1
      funext other
      by_cases here : other.path = path
      · simp [here, asked]
      · simp [here]
    have differs : file.path ≠ path := fun equal => asked equal.symm
    rw [same]
    simp [asked, differs]

theorem lookup_writes {files : List FileAt} {tree : Tree} {file : FileAt}
    (found : tree.lookup file.path = some file)
    (keeps : ∀ other ∈ files, other.path = file.path → other = file) :
    (files.foldl write tree).lookup file.path = some file := by
  induction files generalizing tree with
  | nil => exact found
  | cons first rest ih =>
      apply ih
      · rw [lookup_write]
        split
        next same => rw [keeps first List.mem_cons_self same.symm]
        · exact found
      · exact fun other mem => keeps other (List.mem_cons_of_mem first mem)

end Tree

/-! ## Lower case -/

/-- What a character may become in lower case. Outside ASCII only the Kelvin sign and the dotted
capital I become ASCII letters, and no character vanishes. -/
def Lowered (char : Char) (piece : Name) : Prop :=
  if char.toNat < 128 then piece = [char.toLower]
  else piece ≠ [] ∧ ∀ letter ∈ piece, letter.toNat < 128 → letter = 'k' ∨ letter = 'i'

theorem toLower_eq {char : Char} (large : ¬char.toNat < 128) : char.toLower = char := by
  have notUpper : ¬('A'.val ≤ char.val ∧ char.val ≤ 'Z'.val) := by
    rintro ⟨-, le⟩
    have : char.toNat ≤ 90 := le
    omega
  exact dif_neg notUpper

/-- `str::to_lowercase`: what each character of a name becomes. A sigma depends on the letters
around it, so the pieces are those of a name and not of a character. -/
structure Lowercase where
  pieces : Name → List Name
  lowered : ∀ name, List.Forall₂ Lowered name (pieces name)

def Lowercase.text (lower : Lowercase) (name : Name) : Name := (lower.pieces name).flatten

/-! ## Names -/

/-- What comes before the last occurrence of `needle`, and what comes after it. -/
def splitLast (needle : Name) : Name → Option (Name × Name)
  | [] => none
  | letter :: rest =>
      match splitLast needle rest with
      | some (before, after) => some (letter :: before, after)
      | none =>
          if needle.isPrefixOf (letter :: rest) then
            some ([], (letter :: rest).drop needle.length)
          else none

def stripSuffix (ending name : Name) : Option Name :=
  if ending.isSuffixOf name then some (name.take (name.length - ending.length)) else none

def parseU32 (digits : Name) : Option ℕ :=
  let value := digits.foldl (fun value digit => 10 * value + (digit.toNat - '0'.toNat)) 0
  if value < 2 ^ 32 then some value else none

def isNumeric (digits : Name) : Bool :=
  !digits.isEmpty && digits.all Char.isDigit

/-- `<set>.partNNN`, the name of a new-style volume without its extension. -/
def partNumber (stem : Name) : Option (Name × ℕ) :=
  match splitLast ".part".toList stem with
  | some (set, digits) =>
      if isNumeric digits then (parseU32 digits).map fun number => (set, number) else none
  | none => none

structure RarVolumeInfo where
  setName : Name
  volumeNumber : ℕ
  deriving DecidableEq

/-- `.r00` to `.z99`. -/
def oldStyleVolume (nameLower : Name) : Option ℕ :=
  match nameLower.drop (nameLower.length - 4) with
  | ['.', letter, tens, ones] =>
      if 4 < nameLower.length && 'r' ≤ letter && letter ≤ 'z' && tens.isDigit && ones.isDigit then
        some ((letter.toNat - 'r'.toNat) * 100 + (tens.toNat - '0'.toNat) * 10 +
          (ones.toNat - '0'.toNat) + 1)
      else none
  | _ => none

def parseRarVolume (filename : Name) : Option RarVolumeInfo :=
  let nameLower := lowercase filename
  match stripSuffix ".rar".toList nameLower with
  | some stem =>
      match partNumber stem with
      | some (set, number) =>
          some { setName := filename.take set.length, volumeNumber := number - 1 }
      | none => some { setName := filename.take (filename.length - 4), volumeNumber := 0 }
  | none =>
      (oldStyleVolume nameLower).map fun number =>
        { setName := filename.take (filename.length - 4), volumeNumber := number }

def splitNumericVolume (filename : Name) : Option (Name × ℕ) :=
  match splitLast ['.'] filename with
  | some (stem, extension) =>
      if isNumeric extension then
        if ".7z".toList.isSuffixOf (lowercase stem) then none
        else (parseU32 extension).map fun number => (stem, number)
      else none
  | none => none

def rar4Signature : Bytes := [0x52, 0x61, 0x72, 0x21, 0x1a, 0x07, 0x00]

def rar5Signature : Bytes := [0x52, 0x61, 0x72, 0x21, 0x1a, 0x07, 0x01, 0x00]

def hasRarSignature (file : FileAt) : Bool :=
  rar4Signature.isPrefixOf file.content || rar5Signature.isPrefixOf file.content

def isSplit7zFirstVolume (nameLower : Name) : Bool :=
  match stripSuffix ".001".toList nameLower with
  | some stem => ".7z".toList.isSuffixOf stem
  | none => false

/-- `<set>.7z.NNN`. -/
def split7zSet (nameLower : Name) : Option Name :=
  match splitLast ['.'] nameLower with
  | some (stem, extension) =>
      if isNumeric extension && ".7z".toList.isSuffixOf stem then some stem else none
  | none => none

def isSplit7zVolume (nameLower : Name) : Bool := (split7zSet nameLower).isSome

/-! ## What is extracted -/

inductive ArchiveType where
  | rar
  | sevenZip
  | tar
  | zip
  deriving DecidableEq

def isFirstRarVolume (nameLower : Name) : Bool :=
  match stripSuffix ".rar".toList nameLower with
  | some stem =>
      match partNumber stem with
      | some (_, number) => number = 1
      | none => true
  | none => false

def insertNumeric (sets : List (Name × ℕ × FileAt)) (set : Name) (number : ℕ) (file : FileAt) :
    List (Name × ℕ × FileAt) :=
  if sets.any fun entry => entry.1 = set then
    sets.map fun entry =>
      if entry.1 = set && number < entry.2.1 then (set, number, file) else entry
  else sets ++ [(set, number, file)]

def Lowercase.numericVolume (lower : Lowercase) (file : FileAt) : Option (Name × ℕ) :=
  let nameLower := lower.text file.name
  if (parseRarVolume nameLower).isSome || !hasRarSignature file then none
  else splitNumericVolume nameLower

def Lowercase.addNumeric (lower : Lowercase) (sets : List (Name × ℕ × FileAt)) (file : FileAt) :
    List (Name × ℕ × FileAt) :=
  match lower.numericVolume file with
  | some (set, number) => insertNumeric sets set number file
  | none => sets

def Lowercase.numericSets (lower : Lowercase) (files : List FileAt) : List (Name × ℕ × FileAt) :=
  files.foldl lower.addNumeric []

/-- `find_rar_files`. A file whose name is no UTF-8 is none of the tree's. -/
def Lowercase.findRarFiles (lower : Lowercase) (tree : Tree) : List FileAt :=
  let firstVolumes := tree.files.filter fun file => isFirstRarVolume (lower.text file.name)
  (firstVolumes ++ (lower.numericSets tree.files).map fun entry => entry.2.2).insertionSort
    fun left right => left.path ≤ right.path

def otherArchive (nameLower : Name) : Option ArchiveType :=
  if ".7z".toList.isSuffixOf nameLower || ".7z.enc".toList.isSuffixOf nameLower then some .sevenZip
  else if isSplit7zFirstVolume nameLower then some .sevenZip
  else if ".tar".toList.isSuffixOf nameLower then some .tar
  else if ".zip".toList.isSuffixOf nameLower then some .zip
  else none

def Lowercase.findArchives (lower : Lowercase) (tree : Tree) : List (ArchiveType × FileAt) :=
  let rars := (lower.findRarFiles tree).map fun file => (ArchiveType.rar, file)
  let others := tree.files.filterMap fun file =>
    (otherArchive (lower.text file.name)).map fun kind => (kind, file)
  (rars ++ others).insertionSort fun left right => left.2.path ≤ right.2.path

section FindArchives

variable {lower : Lowercase}

theorem mem_addNumeric {sets : List (Name × ℕ × FileAt)} {file : FileAt} {entry : Name × ℕ × FileAt}
    (mem : entry ∈ lower.addNumeric sets file) : entry ∈ sets ∨ entry.2.2 = file := by
  simp only [Lowercase.addNumeric] at mem
  split at mem
  next set number _ =>
    simp only [insertNumeric] at mem
    split at mem
    · rcases List.mem_map.mp mem with ⟨before, beforeMem, rfl⟩
      split
      · exact .inr rfl
      · exact .inl beforeMem
    · rcases List.mem_append.mp mem with before | now
      · exact .inl before
      · exact .inr (by rw [List.mem_singleton.mp now])
  · exact .inl mem

theorem file_of_mem_addNumerics {files : List FileAt} {sets : List (Name × ℕ × FileAt)}
    {entry : Name × ℕ × FileAt} (mem : entry ∈ files.foldl lower.addNumeric sets) :
    entry ∈ sets ∨ entry.2.2 ∈ files := by
  induction files generalizing sets with
  | nil => exact .inl mem
  | cons file rest ih =>
      rcases ih mem with added | later
      · rcases mem_addNumeric added with before | same
        · exact .inl before
        · exact .inr (same ▸ List.mem_cons_self)
      · exact .inr (List.mem_cons_of_mem file later)

theorem file_of_mem_findArchives {tree : Tree} {archive : ArchiveType × FileAt}
    (mem : archive ∈ lower.findArchives tree) : archive.2 ∈ tree.files := by
  have listed := (List.perm_insertionSort _ _).mem_iff.mp mem
  rcases List.mem_append.mp listed with rar | other
  · rcases List.mem_map.mp rar with ⟨file, found, rfl⟩
    rcases List.mem_append.mp ((List.perm_insertionSort _ _).mem_iff.mp found) with named | numbered
    · exact (List.mem_filter.mp named).1
    · rcases List.mem_map.mp numbered with ⟨entry, entryMem, rfl⟩
      rcases file_of_mem_addNumerics entryMem with none | inTree
      · simp at none
      · exact inTree
  · rcases List.mem_filterMap.mp other with ⟨file, fileMem, found⟩
    rcases Option.map_eq_some_iff.mp found with ⟨kind, -, rfl⟩
    exact fileMem

end FindArchives

/-! ## What is deleted -/

def isCleanupCandidate (name : Name) : Bool :=
  ".par2".toList.isSuffixOf name || ".zip".toList.isSuffixOf name ||
    ".7z".toList.isSuffixOf name || ".tar".toList.isSuffixOf name ||
    ".rar".toList.isSuffixOf name || isSplit7zVolume name || ".7z.enc".toList.isSuffixOf name

namespace Lowercase

variable (lower : Lowercase)

def hasRarFirstVolume (tree : Tree) (file : FileAt) (setLower : Name) : Bool :=
  tree.files.any fun other =>
    let name := lower.text other.name
    other.directory = file.directory && ".rar".toList.isSuffixOf name &&
      (parseRarVolume name).any fun info => info.setName = setLower

def isCleanupCandidateAt (tree : Tree) (file : FileAt) : Bool :=
  let nameLower := lower.text file.name
  isCleanupCandidate nameLower ||
    match if ".rar".toList.isSuffixOf nameLower then none else parseRarVolume nameLower with
    | some info => lower.hasRarFirstVolume tree file info.setName || hasRarSignature file
    | none => (splitNumericVolume nameLower).isSome && hasRarSignature file

def findCleanupFiles (tree : Tree) : List FileAt :=
  tree.files.filter (lower.isCleanupCandidateAt tree)

end Lowercase

/-! ## The archive of a file -/

inductive ArchiveKind where
  /-- `<set>.partNNN.rar`. -/
  | rarParts
  /-- `<set>.rar`, `<set>.r00`, ... -/
  | rarVolumes
  /-- `<set>.NNN` with a RAR signature. -/
  | rarNumbered
  /-- `<set>.7z.NNN`. -/
  | sevenZipVolumes
  | single
  deriving DecidableEq

/-- Sets whose names differ in case are two archives. -/
structure ArchiveId where
  kind : ArchiveKind
  directory : List Name
  set : Name
  deriving DecidableEq

def archiveSet (file : FileAt) : Option (ArchiveKind × Name) :=
  let nameLower := lowercase file.name
  match stripSuffix ".rar".toList nameLower with
  | some stem =>
      match partNumber stem with
      | some (set, _) => some (.rarParts, file.name.take set.length)
      | none => some (.rarVolumes, file.name.take stem.length)
  | none =>
      if (oldStyleVolume nameLower).isSome then
        some (.rarVolumes, file.name.take (nameLower.length - 4))
      else
        match split7zSet nameLower with
        | some set => some (.sevenZipVolumes, file.name.take set.length)
        | none =>
            if (otherArchive nameLower).isSome then some (.single, file.name)
            else
              match splitNumericVolume file.name with
              | some (set, _) => if hasRarSignature file then some (.rarNumbered, set) else none
              | none => none

def archiveOf (file : FileAt) : Option ArchiveId :=
  (archiveSet file).map fun (kind, set) => { kind := kind, directory := file.directory, set := set }

end Rustnzb.Postproc
