import Mathlib.Data.Bool.AllAny
import Rustnzb.Postproc.RarNames

/-!
# The RAR volumes that are extracted

`find_rar_files` gives the extractor the first volume of each set below a directory. It reads the
names in lower case, of all of Unicode, by rules of its own. An obfuscated volume has a number for
an extension and begins with a RAR signature.
-/

namespace Rustnzb.Postproc

/-! ## The lower case of a name's end -/

def Plain (letter : Char) : Prop := letter.toNat < 128 ∧ letter ≠ 'k' ∧ letter ≠ 'i'

theorem Lowered.reverse {char : Char} {piece : Name} (lowered : Lowered char piece) :
    Lowered char piece.reverse := by
  unfold Lowered at lowered ⊢
  split
  next ascii =>
    rw [if_pos ascii] at lowered
    rw [lowered, List.reverse_singleton]
  next large =>
    rw [if_neg large] at lowered
    refine ⟨List.reverse_ne_nil_iff.mpr lowered.1, fun letter mem => ?_⟩
    exact lowered.2 letter (List.mem_reverse.mp mem)

theorem not_plain_toLower {char : Char} (large : ¬char.toNat < 128) : ¬Plain char.toLower := by
  rw [toLower_eq large]
  exact fun plain => large plain.1

theorem prefix_flatten_iff {text needle : Name} {pieces : List Name}
    (lowered : List.Forall₂ Lowered text pieces) (plain : ∀ letter ∈ needle, Plain letter) :
    needle <+: pieces.flatten ↔ needle <+: lowercase text := by
  induction lowered generalizing needle with
  | nil => rfl
  | @cons char piece rest pieces head _ ih =>
      cases needle with
      | nil => exact iff_of_true List.nil_prefix List.nil_prefix
      | cons letter needle =>
          have letterPlain := plain letter List.mem_cons_self
          have restPlain : ∀ other ∈ needle, Plain other := fun other mem =>
            plain other (List.mem_cons_of_mem letter mem)
          rw [lowercase, List.map_cons, List.flatten_cons, List.cons_prefix_cons]
          rw [Lowered] at head
          split at head
          next ascii =>
            subst head
            rw [List.singleton_append, List.cons_prefix_cons, ih restPlain, lowercase]
          next large =>
            rcases head with ⟨nonempty, foreign⟩
            rcases List.exists_cons_of_ne_nil nonempty with ⟨first, others, rfl⟩
            rw [List.cons_append, List.cons_prefix_cons]
            constructor
            · rintro ⟨rfl, -⟩
              rcases foreign letter List.mem_cons_self letterPlain.1 with isK | isI
              · exact absurd isK letterPlain.2.1
              · exact absurd isI letterPlain.2.2
            · rintro ⟨rfl, -⟩
              exact absurd letterPlain (not_plain_toLower large)

theorem Lowercase.suffix_text_iff (lower : Lowercase) {name needle : Name}
    (plain : ∀ letter ∈ needle, Plain letter) :
    needle <:+ lower.text name ↔ needle <:+ lowercase name := by
  have lowered : List.Forall₂ Lowered name.reverse
      ((lower.pieces name).map List.reverse).reverse := by
    rw [List.forall₂_reverse_iff, List.forall₂_map_right_iff]
    exact (lower.lowered name).imp fun _ _ lowered => lowered.reverse
  have found : needle.reverse <+: ((lower.pieces name).map List.reverse).reverse.flatten ↔
      needle.reverse <+: lowercase name.reverse :=
    prefix_flatten_iff lowered fun letter mem => plain letter (List.mem_reverse.mp mem)
  rw [← List.reverse_prefix, ← List.reverse_prefix, text, List.reverse_flatten, found,
    lowercase, lowercase, List.map_reverse]

/-! ## First volumes by their names -/

theorem part_suffix_iff {stem digits : Name} (numeric : isNumeric digits) :
    ".part".toList ++ digits <:+ stem ↔
      ∃ set, splitLast ".part".toList stem = some (set, digits) := by
  constructor
  · rintro ⟨set, rfl⟩
    exact ⟨set, by rw [← List.append_assoc, splitLast_part numeric]⟩
  · rintro ⟨set, found⟩
    exact ⟨set, by rw [splitLast_eq found, List.append_assoc]⟩

theorem isFirstRarVolume_iff (nameLower : Name) :
    isFirstRarVolume nameLower = true ↔
      ".rar".toList <:+ nameLower ∧
        ∀ digits, isNumeric digits → ".part".toList ++ digits ++ ".rar".toList <:+ nameLower →
          digitsValue digits < 2 ^ 32 → digitsValue digits = 1 := by
  rcases stripped : stripSuffix ".rar".toList nameLower with _ | stem
  · have other := stripSuffix_eq_none.mp stripped
    simp only [isFirstRarVolume, stripped]
    exact iff_of_false (by rintro ⟨⟩) fun first => other first.1
  · have named := stripSuffix_eq_some.mp stripped
    simp only [isFirstRarVolume, stripped, partNumber, parseU32_eq]
    rw [named, and_iff_right (List.suffix_append stem _)]
    simp only [List.suffix_append_self_iff]
    rcases part : splitLast ".part".toList stem with _ | ⟨set, digits⟩
    · refine iff_of_true rfl fun digits numeric suffix => ?_
      rcases (part_suffix_iff numeric).mp suffix with ⟨set, found⟩
      cases part.symm.trans found
    · by_cases numeric : isNumeric digits
      · have here : ".part".toList ++ digits <:+ stem :=
          (part_suffix_iff numeric).mpr ⟨set, part⟩
        have only : ∀ digits', isNumeric digits' → ".part".toList ++ digits' <:+ stem →
            digits' = digits := by
          intro digits' numeric' suffix
          rcases (part_suffix_iff numeric').mp suffix with ⟨set', found⟩
          have same := part.symm.trans found
          simp only [Option.some.injEq, Prod.mk.injEq] at same
          exact same.2.symm
        have told : (∀ digits', isNumeric digits' → ".part".toList ++ digits' <:+ stem →
            digitsValue digits' < 2 ^ 32 → digitsValue digits' = 1) ↔
              (digitsValue digits < 2 ^ 32 → digitsValue digits = 1) := by
          constructor
          · exact fun all => all digits numeric here
          · intro one digits' numeric' suffix
            rwa [only digits' numeric' suffix]
        rw [told]
        by_cases fits : digitsValue digits < 2 ^ 32
        · simp only [numeric, if_true, if_pos fits, Option.map_some, decide_eq_true_eq]
          exact ⟨fun one _ => one, fun one => one fits⟩
        · simp only [numeric, if_true, if_neg fits, Option.map_none]
          exact iff_of_true trivial fun small => absurd small fits
      · simp only [numeric, Bool.false_eq_true, if_false]
        refine iff_of_true trivial fun digits' numeric' suffix => ?_
        rcases (part_suffix_iff numeric').mp suffix with ⟨set', found⟩
        have same := part.symm.trans found
        simp only [Option.some.injEq, Prod.mk.injEq] at same
        rw [same.2] at numeric
        exact absurd numeric' numeric

theorem plain_rar : ∀ letter ∈ ".rar".toList, Plain letter := by
  unfold Plain
  exact List.all_iff_forall_prop.mp (by decide)

theorem plain_part {digits : Name} (numeric : isNumeric digits) :
    ∀ letter ∈ ".part".toList ++ digits ++ ".rar".toList, Plain letter := by
  have part : ∀ letter ∈ ".part".toList, Plain letter := by
    unfold Plain
    exact List.all_iff_forall_prop.mp (by decide)
  intro letter mem
  rw [List.mem_append, List.mem_append] at mem
  rcases mem with (isPart | isDigit) | isRar
  · exact part letter isPart
  · have digit := List.all_eq_true.mp (Bool.and_eq_true_iff.mp numeric).2 letter isDigit
    have bounds := toNat_of_isDigit digit
    refine ⟨by omega, ?_, ?_⟩
    · rintro rfl
      exact absurd digit (by decide)
    · rintro rfl
      exact absurd digit (by decide)
  · exact plain_rar letter isRar

theorem Lowercase.isFirstRarVolume_text (lower : Lowercase) (name : Name) :
    isFirstRarVolume (lower.text name) = isFirstRarVolume (lowercase name) := by
  rw [Bool.eq_iff_iff, isFirstRarVolume_iff, isFirstRarVolume_iff,
    lower.suffix_text_iff plain_rar]
  apply and_congr_right
  intro _
  apply forall₂_congr
  intro digits numeric
  rw [lower.suffix_text_iff (plain_part numeric)]

theorem isFirstRarVolume_lowercase (name : Name) :
    isFirstRarVolume (lowercase name) = true ↔
      ∃ set volume, declared name = some (set, volume) ∧
        (volume = .rar ∨ ∃ number, volume = .part number ∧ (number < 2 ^ 32 → number = 1)) := by
  rcases stripped : stripSuffix ".rar".toList (lowercase name) with _ | stem
  · simp only [isFirstRarVolume, declared, stripped]
    refine iff_of_false (by rintro ⟨⟩) ?_
    rintro ⟨set, volume, told, isFirst⟩
    split at told
    · split at told
      · simp only [Option.some.injEq, Prod.mk.injEq] at told
        rcases told with ⟨-, rfl⟩
        rcases isFirst with isRar | ⟨number, isPart, -⟩
        · cases isRar
        · cases isPart
      · cases told
    · cases told
  · simp only [isFirstRarVolume, declared, stripped, partNumber, parseU32_eq]
    rcases part : splitLast ".part".toList stem with _ | ⟨set, digits⟩
    · exact iff_of_true rfl ⟨_, .rar, rfl, .inl rfl⟩
    · by_cases numeric : isNumeric digits
      · simp only [numeric, if_true]
        by_cases fits : digitsValue digits < 2 ^ 32
        · simp only [if_pos fits, Option.map_some, decide_eq_true_eq]
          constructor
          · exact fun one => ⟨_, _, rfl, .inr ⟨_, rfl, fun _ => one⟩⟩
          · rintro ⟨_, _, ⟨⟩, isRar | ⟨number, isPart, one⟩⟩
            · cases isRar
            · cases isPart
              exact one fits
        · simp only [if_neg fits, Option.map_none]
          exact iff_of_true trivial
            ⟨_, _, rfl, .inr ⟨_, rfl, fun small => absurd small fits⟩⟩
      · simp only [numeric, Bool.false_eq_true, if_false]
        exact iff_of_true trivial ⟨_, .rar, rfl, .inl rfl⟩

def NumberedZero (name : Name) : Prop :=
  (parseRarVolume name).map RarVolumeInfo.volumeNumber = some 0

theorem numberedZero_iff (name : Name) :
    NumberedZero name ↔
      isFirstRarVolume (lowercase name) = true ∨ ∃ set, declared name = some (set, .part 0) := by
  rw [NumberedZero, parseRarVolume_eq, isFirstRarVolume_lowercase]
  rcases told : declared name with _ | ⟨set, volume⟩
  · exact iff_of_false (by rintro ⟨⟩) (by rintro (⟨_, _, ⟨⟩, _⟩ | ⟨_, ⟨⟩⟩))
  · rw [Option.bind_some]
    cases volume with
    | part number =>
        rcases numberOf_part_isSome name set number with ⟨info, given⟩
        rw [given, Option.map_some, numberOf_part given, Option.some.injEq, partNumbered]
        constructor
        · intro zero
          by_cases isZero : number = 0
          · exact .inr ⟨set, by rw [isZero]⟩
          · refine .inl ⟨set, _, rfl, .inr ⟨number, rfl, fun fits => ?_⟩⟩
            rw [if_pos fits] at zero
            omega
        · rintro (⟨_, _, ⟨⟩, isRar | ⟨number, isPart, one⟩⟩ | ⟨_, isZero⟩)
          · cases isRar
          · cases isPart
            split
            next fits => rw [one fits]
            · rfl
          · cases isZero
            rfl
    | rar => exact iff_of_true rfl (.inl ⟨set, _, rfl, .inl rfl⟩)
    | continued letter tens ones =>
        refine iff_of_false ?_ ?_
        · intro zero
          rcases Option.map_eq_some_iff.mp zero with ⟨info, given, isZero⟩
          rw [numberOf_continued given] at isZero
          cases isZero
        · rintro (⟨_, _, ⟨⟩, isRar | ⟨number, isPart, one⟩⟩ | ⟨_, isZero⟩)
          · cases isRar
          · cases isPart
          · cases isZero

/-! ## The lowest volumes -/

structure Kept (lower : Lowercase) (files : List FileAt) (sets : List (Name × ℕ × FileAt)) :
    Prop where
  keys : (sets.map Prod.fst).Nodup
  sound : ∀ entry ∈ sets,
    entry.2.2 ∈ files ∧ lower.numericVolume entry.2.2 = some (entry.1, entry.2.1)
  least : ∀ entry ∈ sets, ∀ file ∈ files, ∀ number,
    lower.numericVolume file = some (entry.1, number) → entry.2.1 ≤ number
  complete : ∀ file ∈ files, ∀ set number, lower.numericVolume file = some (set, number) →
    ∃ entry ∈ sets, entry.1 = set

variable {lower : Lowercase} {files : List FileAt} {sets : List (Name × ℕ × FileAt)}

theorem Kept.nil (lower : Lowercase) : Kept lower [] [] := ⟨List.nodup_nil, nofun, nofun, nofun⟩

def lowered (set : Name) (number : ℕ) (file : FileAt) (entry : Name × ℕ × FileAt) :
    Name × ℕ × FileAt :=
  if entry.1 = set && number < entry.2.1 then (set, number, file) else entry

theorem lowered_fst (set : Name) (number : ℕ) (file : FileAt) (entry : Name × ℕ × FileAt) :
    (lowered set number file entry).1 = entry.1 := by
  unfold lowered
  split
  next held =>
    rw [Bool.and_eq_true, decide_eq_true_eq] at held
    exact held.1.symm
  · rfl

theorem lowered_le (set : Name) (number : ℕ) (file : FileAt) (entry : Name × ℕ × FileAt) :
    (lowered set number file entry).2.1 ≤ entry.2.1 := by
  unfold lowered
  split
  next held =>
    rw [Bool.and_eq_true, decide_eq_true_eq, decide_eq_true_eq] at held
    exact held.2.le
  · exact le_rfl

theorem lowered_le_number {set : Name} (number : ℕ) (file : FileAt) {entry : Name × ℕ × FileAt}
    (same : entry.1 = set) : (lowered set number file entry).2.1 ≤ number := by
  unfold lowered
  split
  · exact le_rfl
  next held =>
    rw [Bool.and_eq_true, decide_eq_true_eq, decide_eq_true_eq] at held
    exact Nat.not_lt.mp fun lower => held ⟨same, lower⟩

theorem Kept.skip {file : FileAt} (kept : Kept lower files sets)
    (plain : lower.numericVolume file = none) : Kept lower (files ++ [file]) sets where
  keys := kept.keys
  sound entry mem :=
    have sound := kept.sound entry mem
    ⟨List.mem_append_left _ sound.1, sound.2⟩
  least entry mem other otherMem number numeric := by
    rcases List.mem_append.mp otherMem with before | now
    · exact kept.least entry mem other before number numeric
    · rw [List.mem_singleton.mp now, plain] at numeric
      nomatch numeric
  complete other mem set number numeric := by
    rcases List.mem_append.mp mem with before | now
    · exact kept.complete other before set number numeric
    · rw [List.mem_singleton.mp now, plain] at numeric
      nomatch numeric

theorem Kept.insert {file : FileAt} {set : Name} {number : ℕ} (kept : Kept lower files sets)
    (numeric : lower.numericVolume file = some (set, number)) :
    Kept lower (files ++ [file]) (insertNumeric sets set number file) := by
  unfold insertNumeric
  split
  next present =>
    change Kept lower (files ++ [file]) (sets.map (lowered set number file))
    refine ⟨?keys, ?sound, ?least, ?complete⟩
    case keys =>
      have same : (sets.map (lowered set number file)).map Prod.fst = sets.map Prod.fst := by
        rw [List.map_map]
        exact List.map_congr_left fun entry _ => lowered_fst set number file entry
      rw [same]
      exact kept.keys
    case sound =>
      intro entry mem
      rcases List.mem_map.mp mem with ⟨before, beforeMem, rfl⟩
      unfold lowered
      split
      · exact ⟨by simp, numeric⟩
      · have sound := kept.sound before beforeMem
        exact ⟨List.mem_append_left _ sound.1, sound.2⟩
    case least =>
      intro entry mem other otherMem number' numeric'
      rcases List.mem_map.mp mem with ⟨entry, entryMem, rfl⟩
      rw [lowered_fst] at numeric'
      rcases List.mem_append.mp otherMem with before | now
      · have least := kept.least entry entryMem other before number' numeric'
        exact (lowered_le set number file entry).trans least
      · rw [List.mem_singleton.mp now, numeric] at numeric'
        simp only [Option.some.injEq, Prod.mk.injEq] at numeric'
        rcases numeric' with ⟨same, rfl⟩
        exact lowered_le_number number file same.symm
    case complete =>
      intro other mem set' number' numeric'
      rcases List.mem_append.mp mem with before | now
      · rcases kept.complete other before set' number' numeric' with ⟨entry, entryMem, rfl⟩
        exact ⟨_, List.mem_map_of_mem entryMem, lowered_fst set number file entry⟩
      · rw [List.mem_singleton] at now
        subst now
        rw [numeric] at numeric'
        cases numeric'
        rcases List.any_eq_true.mp present with ⟨entry, entryMem, same⟩
        rw [decide_eq_true_eq] at same
        exact ⟨_, List.mem_map_of_mem entryMem, (lowered_fst _ _ _ _).trans same⟩
  next absent =>
    have fresh : ∀ entry ∈ sets, entry.1 ≠ set := by
      intro entry mem same
      exact absent (List.any_eq_true.mpr ⟨entry, mem, decide_eq_true same⟩)
    refine ⟨?keys, ?sound, ?least, ?complete⟩
    case keys =>
      rw [List.map_append, List.map_singleton, List.nodup_append]
      refine ⟨kept.keys, List.nodup_singleton set, ?_⟩
      intro key mem key' isSet same
      rcases List.mem_map.mp mem with ⟨entry, entryMem, rfl⟩
      exact fresh entry entryMem (same.trans (List.mem_singleton.mp isSet))
    case sound =>
      intro entry mem
      rcases List.mem_append.mp mem with before | now
      · have sound := kept.sound entry before
        exact ⟨List.mem_append_left _ sound.1, sound.2⟩
      · rw [List.mem_singleton.mp now]
        exact ⟨List.mem_append_right _ List.mem_cons_self, numeric⟩
    case least =>
      intro entry mem other otherMem number' numeric'
      rcases List.mem_append.mp mem with before | now
      · rcases List.mem_append.mp otherMem with otherBefore | otherNow
        · exact kept.least entry before other otherBefore number' numeric'
        · rw [List.mem_singleton.mp otherNow, numeric] at numeric'
          simp only [Option.some.injEq, Prod.mk.injEq] at numeric'
          exact absurd numeric'.1.symm (fresh entry before)
      · rw [List.mem_singleton.mp now] at numeric' ⊢
        rcases List.mem_append.mp otherMem with otherBefore | otherNow
        · rcases kept.complete other otherBefore set number' numeric' with ⟨entry', mem', same⟩
          exact absurd same (fresh entry' mem')
        · rw [List.mem_singleton.mp otherNow, numeric] at numeric'
          simp only [Option.some.injEq, Prod.mk.injEq, true_and] at numeric'
          exact numeric'.le
    case complete =>
      intro other mem set' number' numeric'
      rcases List.mem_append.mp mem with before | now
      · rcases kept.complete other before set' number' numeric' with ⟨entry, entryMem, same⟩
        exact ⟨entry, List.mem_append_left _ entryMem, same⟩
      · rw [List.mem_singleton.mp now, numeric] at numeric'
        simp only [Option.some.injEq, Prod.mk.injEq] at numeric'
        exact ⟨_, List.mem_append_right _ List.mem_cons_self, numeric'.1⟩

theorem kept_numericSets (lower : Lowercase) (files : List FileAt) :
    Kept lower files (lower.numericSets files) := by
  induction files using List.reverseRecOn with
  | nil => exact Kept.nil lower
  | append_singleton files file ih =>
      rw [Lowercase.numericSets, List.foldl_append, List.foldl_cons, List.foldl_nil]
      rw [Lowercase.addNumeric]
      split
      next set number numeric => exact ih.insert numeric
      next plain => exact ih.skip plain

/-! ## What the extractor gets -/

def IsLowest (lower : Lowercase) (tree : Tree) (file : FileAt) (set : Name) : Prop :=
  file ∈ tree.files ∧ ∃ number, lower.numericVolume file = some (set, number) ∧
    ∀ other ∈ tree.files, other.directory = file.directory → ∀ number',
      lower.numericVolume other = some (set, number') → number ≤ number'

/-- The extractor gets, once each, the files that are numbered zero and one lowest volume of each
obfuscated set in each directory. -/
structure HandsOver (lower : Lowercase) (tree : Tree) : Prop where
  nodup : (lower.findRarFiles tree).Nodup
  zero : ∀ file ∈ tree.files, NumberedZero file.name → file ∈ lower.findRarFiles tree
  lowest : ∀ file ∈ tree.files, ∀ set number, lower.numericVolume file = some (set, number) →
    ∃ first ∈ lower.findRarFiles tree,
      IsLowest lower tree first set ∧ first.directory = file.directory
  alone : ∀ file ∈ lower.findRarFiles tree, ∀ other ∈ lower.findRarFiles tree, ∀ set,
    IsLowest lower tree file set → IsLowest lower tree other set →
      file.directory = other.directory → file = other
  others : ∀ file ∈ lower.findRarFiles tree,
    file ∈ tree.files ∧ NumberedZero file.name ∨ ∃ set, IsLowest lower tree file set

theorem mem_findRarFiles {tree : Tree} {file : FileAt} :
    file ∈ lower.findRarFiles tree ↔
      file ∈ tree.files ∧ isFirstRarVolume (lowercase file.name) = true ∨
        ∃ entry ∈ lower.numericSets tree.files, entry.2.2 = file := by
  rw [Lowercase.findRarFiles, (List.perm_insertionSort _ _).mem_iff, List.mem_append,
    List.mem_filter, List.mem_map, lower.isFirstRarVolume_text]

theorem numericVolume_of_rar {file : FileAt} (rar : ".rar".toList <:+ lowercase file.name) :
    lower.numericVolume file = none := by
  have suffix := (lower.suffix_text_iff plain_rar).mpr rar
  have parsed : (parseRarVolume (lower.text file.name)).isSome = true := by
    rcases suffix with ⟨stem, named⟩
    have stripped : stripSuffix ".rar".toList (lowercase (lower.text file.name)) =
        some (lowercase stem) := by
      rw [stripSuffix_eq_some, ← named, lowercase, List.map_append]
      rfl
    simp only [parseRarVolume, stripped]
    split
    · rfl
    · rfl
  simp only [Lowercase.numericVolume, parsed, Bool.true_or, if_true]

theorem nodup_findRarFiles (lower : Lowercase) (tree : Tree) : (lower.findRarFiles tree).Nodup := by
  have kept := kept_numericSets lower tree.files
  rw [Lowercase.findRarFiles, (List.perm_insertionSort _ _).nodup_iff, List.nodup_append]
  refine ⟨(List.Nodup.of_map _ tree.nodup).filter _, ?_, ?_⟩
  · have distinct : (lower.numericSets tree.files).Nodup := List.Nodup.of_map _ kept.keys
    refine distinct.map_on fun entry mem entry' mem' same => ?_
    have told := (kept.sound entry mem).2
    rw [same, (kept.sound entry' mem').2] at told
    simp only [Option.some.injEq, Prod.mk.injEq] at told
    exact Prod.ext told.1.symm (Prod.ext told.2.symm same)
  · rintro file first _ entryMem rfl
    rcases List.mem_map.mp entryMem with ⟨entry, mem, rfl⟩
    have isFirst := (List.mem_filter.mp first).2
    rw [lower.isFirstRarVolume_text] at isFirst
    have none := @numericVolume_of_rar lower _ ((isFirstRarVolume_iff _).mp isFirst).1
    rw [(kept.sound entry mem).2] at none
    nomatch none

theorem isLowest_of_mem {tree : Tree} {entry : Name × ℕ × FileAt}
    (mem : entry ∈ lower.numericSets tree.files) : IsLowest lower tree entry.2.2 entry.1 := by
  have kept := kept_numericSets lower tree.files
  have sound := kept.sound entry mem
  refine ⟨sound.1, entry.2.1, sound.2, ?_⟩
  intro other otherMem _ number' numeric
  exact kept.least entry mem other otherMem number' numeric

theorem eq_of_numericVolume {tree : Tree} {file other : FileAt} {set : Name} {number number' : ℕ}
    (mem : file ∈ lower.findRarFiles tree) (otherMem : other ∈ lower.findRarFiles tree)
    (numeric : lower.numericVolume file = some (set, number))
    (numeric' : lower.numericVolume other = some (set, number')) : file = other := by
  have kept := kept_numericSets lower tree.files
  have entry_of : ∀ {file number}, file ∈ lower.findRarFiles tree →
      lower.numericVolume file = some (set, number) →
        ∃ entry ∈ lower.numericSets tree.files, entry.2.2 = file ∧ entry.1 = set := by
    intro file number mem numeric
    rcases mem_findRarFiles.mp mem with ⟨-, first⟩ | ⟨entry, entryMem, rfl⟩
    · rw [numericVolume_of_rar ((isFirstRarVolume_iff _).mp first).1] at numeric
      nomatch numeric
    · rw [(kept.sound entry entryMem).2] at numeric
      simp only [Option.some.injEq, Prod.mk.injEq] at numeric
      exact ⟨entry, entryMem, rfl, numeric.1⟩
  rcases entry_of mem numeric with ⟨entry, entryMem, rfl, key⟩
  rcases entry_of otherMem numeric' with ⟨entry', entryMem', rfl, key'⟩
  rw [List.inj_on_of_nodup_map kept.keys entryMem entryMem' (key.trans key'.symm)]

theorem rar_of_declared {name set : Name} {number : ℕ}
    (told : declared name = some (set, .part number)) : ".rar".toList <:+ lowercase name := by
  rcases stripped : stripSuffix ".rar".toList (lowercase name) with _ | stem
  · simp only [declared, stripped] at told
    split at told
    · split at told
      · simp at told
      · cases told
    · cases told
  · exact ⟨stem, (stripSuffix_eq_some.mp stripped).symm⟩

/-- The extractor gets what it should exactly if the tree has no part numbered zero, and the files
of each obfuscated set are in one directory. -/
theorem handsOver_iff (lower : Lowercase) (tree : Tree) :
    HandsOver lower tree ↔
      (∀ file ∈ tree.files, ∀ set, declared file.name ≠ some (set, .part 0)) ∧
        ∀ file ∈ tree.files, ∀ other ∈ tree.files, ∀ set number number',
          lower.numericVolume file = some (set, number) →
            lower.numericVolume other = some (set, number') →
              file.directory = other.directory := by
  have kept := kept_numericSets lower tree.files
  constructor
  · intro handsOver
    constructor
    · intro file mem set told
      have zero := (numberedZero_iff file.name).mpr (.inr ⟨set, told⟩)
      rcases mem_findRarFiles.mp (handsOver.zero file mem zero) with
        ⟨-, first⟩ | ⟨entry, entryMem, rfl⟩
      · rcases (isFirstRarVolume_lowercase file.name).mp first with
          ⟨set', volume, told', isRar | ⟨number, isPart, one⟩⟩
        · rw [told, isRar] at told'
          nomatch told'
        · rw [told, isPart] at told'
          cases told'
          exact absurd (one (by omega)) (by omega)
      · have none := @numericVolume_of_rar lower _ (rar_of_declared told)
        rw [(kept.sound entry entryMem).2] at none
        nomatch none
    · intro file mem other otherMem set number number' numeric numeric'
      rcases handsOver.lowest file mem set number numeric with ⟨first, firstMem, lowest, here⟩
      rcases handsOver.lowest other otherMem set number' numeric' with
        ⟨first', firstMem', lowest', here'⟩
      rcases lowest with ⟨-, _, isNumeric, -⟩
      rcases lowest' with ⟨-, _, isNumeric', -⟩
      have same := eq_of_numericVolume firstMem firstMem' isNumeric isNumeric'
      rw [← here, ← here', same]
  · rintro ⟨noPartZero, oneDirectory⟩
    refine ⟨nodup_findRarFiles lower tree, ?zero, ?lowest, ?alone, ?others⟩
    case zero =>
      intro file mem zero
      rcases (numberedZero_iff file.name).mp zero with first | ⟨set, told⟩
      · exact mem_findRarFiles.mpr (.inl ⟨mem, first⟩)
      · exact absurd told (noPartZero file mem set)
    case lowest =>
      intro file mem set number numeric
      rcases kept.complete file mem set number numeric with ⟨entry, entryMem, rfl⟩
      have sound := kept.sound entry entryMem
      refine ⟨entry.2.2, mem_findRarFiles.mpr (.inr ⟨entry, entryMem, rfl⟩),
        isLowest_of_mem entryMem, ?_⟩
      exact oneDirectory entry.2.2 sound.1 file mem entry.1 entry.2.1 number sound.2 numeric
    case alone =>
      rintro file mem other otherMem set ⟨-, _, numeric, -⟩ ⟨-, _, numeric', -⟩ _
      exact eq_of_numericVolume mem otherMem numeric numeric'
    case others =>
      intro file mem
      rcases mem_findRarFiles.mp mem with ⟨inTree, first⟩ | ⟨entry, entryMem, rfl⟩
      · exact .inl ⟨inTree, (numberedZero_iff file.name).mpr (.inl first)⟩
      · exact .inr ⟨entry.1, isLowest_of_mem entryMem⟩

end Rustnzb.Postproc
