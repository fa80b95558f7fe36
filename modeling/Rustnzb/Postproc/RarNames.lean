import Rustnzb.Postproc.Detect
import Rustnzb.Web.HopelessTracker

/-!
# The names of RAR volumes

The download engine and the post-processing each tell the set of a RAR volume by its name, and
whether it is the first one. `declared` is what such a name says: the set, and which volume of it.
-/

namespace Rustnzb.Postproc

open Web (isArchiveVolumeExt)

def isVolumeLetter (letter : Char) : Bool := 'r' ≤ letter && letter ≤ 'z'

/-- `lower.rsplit('.').next()`. -/
def lastExtension (lower : Name) : Name :=
  match splitLast ['.'] lower with
  | some (_, extension) => extension
  | none => lower

/-- `rar_volume` of the download engine. A byte that is ASCII is a character, and lowering ASCII
letters moves none. -/
def rarVolume (name : Name) : Option (Name × Bool) :=
  let lower := lowercase name
  match stripSuffix ".rar".toList lower with
  | some stem =>
      match splitLast ".part".toList stem with
      | some (set, number) =>
          if isNumeric number then some (name.take set.length, (parseU32 number).any (· ≤ 1))
          else some (name.take stem.length, true)
      | none => some (name.take stem.length, true)
  | none =>
      let ext := lastExtension lower
      if 4 ≤ lower.length ∧ lower[lower.length - 4]? = some '.' ∧ ext.length = 3 ∧
          ext.head?.any isVolumeLetter ∧ isArchiveVolumeExt ext then
        some (name.take (lower.length - 4), false)
      else none

/-! ## What a name declares -/

inductive Volume where
  /-- `.partN.rar` -/
  | part (number : ℕ)
  | rar
  /-- `.rNN` to `.zNN` -/
  | continued (letter tens ones : Char)
  deriving DecidableEq

namespace Volume

/-- `.partN.rar`, or `.rar` and what continues it. -/
def SameStyle : Volume → Volume → Prop
  | part _, part _ => True
  | part _, _ => False
  | _, part _ => False
  | _, _ => True

def Before : Volume → Volume → Prop
  | part number, part number' => number < number'
  | rar, continued _ _ _ => True
  | continued letter tens ones, continued letter' tens' ones' =>
      letter < letter' ∨ letter = letter' ∧ (tens < tens' ∨ tens = tens' ∧ ones < ones')
  | _, _ => False

def IsFirst : Volume → Prop
  | part number => number ≤ 1
  | rar => True
  | continued _ _ _ => False

instance : DecidablePred IsFirst
  | part number => inferInstanceAs (Decidable (number ≤ 1))
  | rar => .isTrue trivial
  | continued _ _ _ => .isFalse not_false

end Volume

def digitsValue (digits : Name) : ℕ :=
  digits.foldl (fun value digit => 10 * value + (digit.toNat - '0'.toNat)) 0

def declared (name : Name) : Option (Name × Volume) :=
  match stripSuffix ".rar".toList (lowercase name) with
  | some stem =>
      match splitLast ".part".toList stem with
      | some (set, digits) =>
          if isNumeric digits then some (name.take set.length, .part (digitsValue digits))
          else some (name.take stem.length, .rar)
      | none => some (name.take stem.length, .rar)
  | none =>
      match (lowercase name).drop (name.length - 4) with
      | ['.', letter, tens, ones] =>
          if isVolumeLetter letter ∧ tens.isDigit ∧ ones.isDigit then
            some (name.take (name.length - 4), .continued letter tens ones)
          else none
      | _ => none

/-! ## The last occurrence -/

theorem splitLast_eq {needle text before after : Name}
    (found : splitLast needle text = some (before, after)) : text = before ++ needle ++ after := by
  induction text generalizing before after with
  | nil => nomatch found
  | cons letter rest ih =>
      rw [splitLast] at found
      split at found
      next earlier later foundLater =>
        simp only [Option.some.injEq, Prod.mk.injEq] at found
        rcases found with ⟨rfl, rfl⟩
        rw [ih foundLater, List.cons_append, List.cons_append]
      · split at found
        next here =>
          simp only [Option.some.injEq, Prod.mk.injEq] at found
          rcases found with ⟨rfl, rfl⟩
          rw [List.nil_append]
          exact (List.prefix_iff_eq_append.mp (List.isPrefixOf_iff_prefix.mp here)).symm
        · simp at found

theorem splitLast_of_not_mem {head : Char} (tail : Name) {text : Name} (none : head ∉ text) :
    splitLast (head :: tail) text = Option.none := by
  induction text with
  | nil => rfl
  | cons letter rest ih =>
      have apart := List.ne_of_not_mem_cons none
      have later := ih (List.not_mem_of_not_mem_cons none)
      have notHere : (head :: tail).isPrefixOf (letter :: rest) = false := by
        rw [List.isPrefixOf, beq_false_of_ne apart, Bool.false_and]
      simp only [splitLast, later, notHere, Bool.false_eq_true, if_false]

theorem splitLast_append {head : Char} {tail after : Name} (none : head ∉ tail ++ after)
    (before : Name) :
    splitLast (head :: tail) (before ++ head :: tail ++ after) = some (before, after) := by
  induction before with
  | nil =>
      have later := splitLast_of_not_mem tail none
      have here : (head :: tail).isPrefixOf (head :: (tail ++ after)) = true := by
        rw [List.isPrefixOf_iff_prefix]
        exact ⟨after, rfl⟩
      rw [List.nil_append, List.cons_append]
      simp only [splitLast, later, here, if_true, List.length_cons, List.drop_succ_cons,
        List.drop_left]
  | cons letter rest ih => rw [List.cons_append, List.cons_append, splitLast, ih]

variable {name : Name}

theorem stripSuffix_eq_some {ending stem : Name} :
    stripSuffix ending name = some stem ↔ name = stem ++ ending := by
  unfold stripSuffix
  constructor
  · intro found
    split at found
    next isSuffix =>
      rcases List.isSuffixOf_iff_suffix.mp isSuffix with ⟨front, rfl⟩
      rw [List.length_append, Nat.add_sub_cancel, List.take_left, Option.some.injEq] at found
      rw [found]
    · simp at found
  · rintro rfl
    have isSuffix : ending.isSuffixOf (stem ++ ending) = true :=
      List.isSuffixOf_iff_suffix.mpr (List.suffix_append stem ending)
    rw [if_pos isSuffix, List.length_append, Nat.add_sub_cancel, List.take_left]

theorem stripSuffix_eq_none {ending : Name} :
    stripSuffix ending name = none ↔ ¬ending <:+ name := by
  unfold stripSuffix
  simp [List.isSuffixOf_iff_suffix]

/-! ## What the two functions tell -/

theorem length_lowercase (name : Name) : (lowercase name).length = name.length := by
  rw [lowercase, List.length_map]

theorem parseU32_eq (digits : Name) :
    parseU32 digits = if digitsValue digits < 2 ^ 32 then some (digitsValue digits) else none :=
  rfl

theorem not_dot_of_isNumeric {digits : Name} (numeric : isNumeric digits) : '.' ∉ digits := by
  intro mem
  have all := (Bool.and_eq_true_iff.mp numeric).2
  exact absurd (List.all_eq_true.mp all '.' mem) (by decide)

theorem splitLast_part {set digits : Name} (numeric : isNumeric digits) :
    splitLast ".part".toList (set ++ ".part".toList ++ digits) = some (set, digits) := by
  apply splitLast_append
  rw [List.mem_append, not_or]
  exact ⟨by decide, not_dot_of_isNumeric numeric⟩

def continuedNumber (letter tens ones : Char) : ℕ :=
  (letter.toNat - 'r'.toNat) * 100 + (tens.toNat - '0'.toNat) * 10 + (ones.toNat - '0'.toNat) + 1

def numberOf (name : Name) : Name × Volume → Option RarVolumeInfo
  | (set, .part number) =>
      if number < 2 ^ 32 then some { setName := set, volumeNumber := number - 1 }
      else some { setName := name.take (name.length - 4), volumeNumber := 0 }
  | (set, .rar) => some { setName := set, volumeNumber := 0 }
  | (set, .continued letter tens ones) =>
      if set = [] then none
      else some { setName := set, volumeNumber := continuedNumber letter tens ones }

theorem take_eq_nil_iff : name.take (name.length - 4) = [] ↔ ¬4 < name.length := by
  rw [List.take_eq_nil_iff, List.eq_nil_iff_length_eq_zero]
  omega

theorem oldStyleVolume_eq_none {lower : Name}
    (other : ∀ letter tens ones, lower.drop (lower.length - 4) ≠ ['.', letter, tens, ones]) :
    oldStyleVolume lower = none := by
  rw [oldStyleVolume]
  split
  next ending => exact absurd ending (other _ _ _)
  · rfl

theorem declared_eq_none (stripped : stripSuffix ".rar".toList (lowercase name) = none)
    (other : ∀ letter tens ones,
      (lowercase name).drop (name.length - 4) ≠ ['.', letter, tens, ones]) :
    declared name = none := by
  simp only [declared, stripped]

theorem parseRarVolume_eq (name : Name) :
    parseRarVolume name = (declared name).bind (numberOf name) := by
  rcases stripped : stripSuffix ".rar".toList (lowercase name) with _ | stem
  · by_cases ends : ∃ letter tens ones,
        (lowercase name).drop (name.length - 4) = ['.', letter, tens, ones]
    · rcases ends with ⟨letter, tens, ones, ending⟩
      simp only [parseRarVolume, declared, stripped, oldStyleVolume, length_lowercase, ending,
        Bool.and_eq_true, decide_eq_true_eq, and_assoc, isVolumeLetter]
      by_cases valid : 'r' ≤ letter ∧ letter ≤ 'z' ∧ tens.isDigit ∧ ones.isDigit
      · rw [if_pos valid]
        by_cases named : 4 < name.length
        · have given : name.take (name.length - 4) ≠ [] := fun none =>
            take_eq_nil_iff.mp none named
          rw [if_pos ⟨named, valid⟩, Option.bind_some, numberOf, if_neg given, Option.map_some]
          rfl
        · have bare := take_eq_nil_iff.mpr named
          rw [if_neg fun held => named held.1, Option.bind_some, numberOf, if_pos bare,
            Option.map_none]
      · rw [if_neg valid, if_neg fun held => valid held.2, Option.map_none, Option.bind_none]
    · have other : ∀ letter tens ones,
          (lowercase name).drop (name.length - 4) ≠ ['.', letter, tens, ones] :=
        fun letter tens ones ending => ends ⟨letter, tens, ones, ending⟩
      have old : oldStyleVolume (lowercase name) = none := by
        apply oldStyleVolume_eq_none
        rwa [length_lowercase]
      simp only [parseRarVolume, stripped, old, declared_eq_none stripped other, Option.map_none,
        Option.bind_none]
  · have long : stem.length = name.length - 4 := by
      have length := congrArg List.length (stripSuffix_eq_some.mp stripped)
      rw [length_lowercase, List.length_append] at length
      simp at length
      omega
    simp only [parseRarVolume, declared, stripped, partNumber]
    rcases splitLast ".part".toList stem with _ | ⟨set, digits⟩
    · simp only [long, Option.bind_some, numberOf]
    · by_cases numeric : isNumeric digits
      · by_cases fits : digitsValue digits < 2 ^ 32
        · simp only [numeric, if_true, Option.bind_some, numberOf, parseU32_eq, if_pos fits,
            Option.map_some]
        · simp only [numeric, if_true, Option.bind_some, numberOf, parseU32_eq, if_neg fits,
            Option.map_none]
      · simp only [numeric, Bool.false_eq_true, if_false, long, Option.bind_some, numberOf]

variable {letter : Char}

theorem lastExtension_eq_iff {lower : Name} {tens ones : Char}
    (valid : isVolumeLetter letter ∧ tens.isDigit ∧ ones.isDigit) :
    lower.drop (lower.length - 4) = ['.', letter, tens, ones] ↔
      4 ≤ lower.length ∧ lower[lower.length - 4]? = some '.' ∧
        lastExtension lower = [letter, tens, ones] := by
  have apart : '.' ∉ [letter, tens, ones] := by
    rcases valid with ⟨isLetter, isTens, isOnes⟩
    simp only [List.mem_cons, List.not_mem_nil, or_false, not_or]
    refine ⟨?_, ?_, ?_⟩
    · rintro rfl
      exact absurd isLetter (by decide)
    · rintro rfl
      exact absurd isTens (by decide)
    · rintro rfl
      exact absurd isOnes (by decide)
  constructor
  · intro ending
    have split := List.take_append_drop (lower.length - 4) lower
    have length := congrArg List.length ending
    rw [List.length_drop] at length
    have long : 4 ≤ lower.length := by
      simp only [List.length_cons, List.length_nil] at length
      omega
    have place : lower[lower.length - 4]? = some '.' := by
      rw [← List.head?_drop, ending]
      rfl
    have last := @splitLast_append '.' [] _ apart
      (lower.take (lower.length - 4))
    rw [ending] at split
    rw [List.append_assoc, List.singleton_append, split] at last
    exact ⟨long, place, by rw [lastExtension, last]⟩
  · rintro ⟨long, place, last⟩
    rw [lastExtension] at last
    rcases found : splitLast ['.'] lower with _ | ⟨before, extension⟩
    · rw [found] at last
      simp only at last
      rw [last] at long
      simp at long
    · rw [found] at last
      simp only at last
      have split := splitLast_eq found
      rw [last] at split
      have front : lower.length - 4 = before.length := by
        rw [split]
        simp
      rw [front, split, List.append_assoc, List.drop_left]
      rfl

theorem isArchiveVolumeExt_eq (letter tens ones : Char) :
    ((letter :: [tens, ones]).head?.any isVolumeLetter = true ∧
        isArchiveVolumeExt [letter, tens, ones] = true) ↔
      isVolumeLetter letter = true ∧ tens.isDigit = true ∧ ones.isDigit = true := by
  simp only [List.head?_cons, Option.any_some, isArchiveVolumeExt, isVolumeLetter,
    Bool.and_eq_true, Bool.or_eq_true, decide_eq_true_eq]
  tauto

theorem rarVolume_of_continued {tens ones : Char}
    (stripped : stripSuffix ".rar".toList (lowercase name) = none)
    (ending : (lowercase name).drop (name.length - 4) = ['.', letter, tens, ones])
    (valid : isVolumeLetter letter ∧ tens.isDigit ∧ ones.isDigit) :
    rarVolume name = some (name.take (name.length - 4), false) := by
  rw [← length_lowercase] at ending
  rcases (lastExtension_eq_iff valid).mp ending with ⟨long, place, last⟩
  have ext := (isArchiveVolumeExt_eq letter tens ones).mpr valid
  simp only [rarVolume, stripped, last]
  rw [if_pos ⟨long, place, rfl, ext⟩, length_lowercase]

theorem continued_of_rarVolume {found : Name × Bool}
    (stripped : stripSuffix ".rar".toList (lowercase name) = none)
    (told : rarVolume name = some found) :
    ∃ letter tens ones, (lowercase name).drop (name.length - 4) = ['.', letter, tens, ones] ∧
      isVolumeLetter letter ∧ tens.isDigit ∧ ones.isDigit := by
  simp only [rarVolume, stripped] at told
  split at told
  next tests =>
    rcases tests with ⟨long, place, three, first, ext⟩
    rcases List.length_eq_three.mp three with ⟨letter, tens, ones, last⟩
    rw [last] at first ext
    have valid := (isArchiveVolumeExt_eq letter tens ones).mp ⟨first, ext⟩
    have ending := (lastExtension_eq_iff valid).mpr ⟨long, place, last⟩
    rw [length_lowercase] at ending
    exact ⟨letter, tens, ones, ending, valid⟩
  · simp at told

theorem rarVolume_eq (name : Name) :
    rarVolume name =
      (declared name).map fun (set, volume) => (set, decide volume.IsFirst) := by
  rcases stripped : stripSuffix ".rar".toList (lowercase name) with _ | stem
  · simp only [declared, stripped]
    split
    next letter tens ones ending =>
      by_cases valid : isVolumeLetter letter ∧ tens.isDigit ∧ ones.isDigit
      · rw [if_pos valid, rarVolume_of_continued stripped ending valid]
        rfl
      · rw [if_neg valid, Option.map_none, Option.eq_none_iff_forall_ne_some]
        intro found told
        rcases continued_of_rarVolume stripped told with
          ⟨letter', tens', ones', ending', valid'⟩
        rw [ending] at ending'
        simp only [List.cons.injEq, true_and, and_true] at ending'
        rcases ending' with ⟨rfl, rfl, rfl⟩
        exact valid valid'
    next other =>
      rw [Option.map_none, Option.eq_none_iff_forall_ne_some]
      intro found told
      rcases continued_of_rarVolume stripped told with ⟨letter, tens, ones, ending, -⟩
      exact other letter tens ones ending
  · rcases part : splitLast ".part".toList stem with _ | ⟨set, digits⟩
    · simp only [rarVolume, declared, stripped, part, Option.map_some]
      rfl
    · by_cases numeric : isNumeric digits
      · simp only [rarVolume, declared, stripped, part, numeric, if_true, Option.map_some,
          parseU32_eq]
        by_cases fits : digitsValue digits < 2 ^ 32
        · rw [if_pos fits, Option.any_some]
          rfl
        · have late : ¬(Volume.part (digitsValue digits)).IsFirst := by
            rw [Volume.IsFirst]
            omega
          rw [if_neg fits, Option.any_none, decide_eq_false late]
      · simp only [rarVolume, declared, stripped, part, numeric, Bool.false_eq_true, if_false,
          Option.map_some]
        rfl

/-! ## One grammar -/

/-- The two functions agree on a name: the set, and that the volume is the first one when its
number is zero. -/
def SameReading (name : Name) : Prop :=
  rarVolume name =
    (parseRarVolume name).map fun info => (info.setName, decide (info.volumeNumber = 0))

/-- The volumes of one set and style that two names declare are numbered in their order. -/
def NumberedInOrder (name name' : Name) : Prop :=
  ∀ set volume volume', declared name = some (set, volume) →
    declared name' = some (set, volume') → volume.SameStyle volume' →
      ∀ info info', parseRarVolume name = some info → parseRarVolume name' = some info' →
        (info.volumeNumber = info'.volumeNumber ↔ volume = volume') ∧
          (info.volumeNumber < info'.volumeNumber ↔ volume.Before volume')

/-- The two functions agree on a name unless it declares a part whose number is no `u32`, or it is
no more than an extension. -/
theorem sameReading_iff (name : Name) :
    SameReading name ↔
      (∀ set number, declared name = some (set, .part number) → number < 2 ^ 32) ∧
        ∀ letter tens ones, declared name ≠ some ([], .continued letter tens ones) := by
  rw [SameReading, rarVolume_eq, parseRarVolume_eq]
  rcases told : declared name with _ | ⟨set, volume⟩
  · exact iff_of_true rfl ⟨nofun, nofun⟩
  · rw [Option.bind_some, Option.map_some]
    dsimp only
    cases volume with
    | part number =>
        by_cases fits : number < 2 ^ 32
        · have first : (Volume.part number).IsFirst ↔ number - 1 = 0 := by
            rw [Volume.IsFirst]
            omega
          rw [numberOf, if_pos fits, Option.map_some, decide_eq_decide.mpr first]
          refine iff_of_true rfl ⟨?_, nofun⟩
          rintro _ _ ⟨⟩
          exact fits
        · have late : ¬(Volume.part number).IsFirst := by
            rw [Volume.IsFirst]
            omega
          rw [numberOf, if_neg fits, Option.map_some, decide_eq_false late]
          refine iff_of_false ?_ fun ⟨small, _⟩ => fits (small set number rfl)
          simp
    | rar => exact iff_of_true rfl ⟨nofun, nofun⟩
    | continued letter tens ones =>
        by_cases bare : set = []
        · rw [numberOf, if_pos bare]
          exact iff_of_false nofun fun ⟨_, named⟩ => named letter tens ones (by rw [bare])
        · rw [numberOf, if_neg bare]
          refine iff_of_true rfl ⟨nofun, ?_⟩
          rintro _ _ _ ⟨⟩
          exact bare rfl

theorem letters_of_declared {set : Name} {tens ones : Char}
    (told : declared name = some (set, .continued letter tens ones)) :
    isVolumeLetter letter ∧ tens.isDigit ∧ ones.isDigit := by
  rw [declared] at told
  split at told
  · split at told
    · split at told
      · simp at told
      · simp at told
    · simp at told
  · split at told
    · split at told
      next valid =>
        simp only [Option.some.injEq, Prod.mk.injEq, Volume.continued.injEq] at told
        rcases told with ⟨-, rfl, rfl, rfl⟩
        exact valid
      · simp at told
    · simp at told

theorem toNat_of_isVolumeLetter (isLetter : isVolumeLetter letter) :
    114 ≤ letter.toNat ∧ letter.toNat ≤ 122 := by
  rw [isVolumeLetter, Bool.and_eq_true, decide_eq_true_eq, decide_eq_true_eq] at isLetter
  exact isLetter

theorem toNat_of_isDigit {digit : Char} (isDigit : digit.isDigit) :
    48 ≤ digit.toNat ∧ digit.toNat ≤ 57 := by
  rw [Char.isDigit, Bool.and_eq_true, decide_eq_true_eq, decide_eq_true_eq] at isDigit
  exact isDigit

def TellsApart (number number' : ℕ) : Prop :=
  number = number' ∨
    number < 2 ^ 32 ∧ number' < 2 ^ 32 ∧ ¬(number = 0 ∧ number' = 1) ∧
      ¬(number = 1 ∧ number' = 0)

def partNumbered (number : ℕ) : ℕ := if number < 2 ^ 32 then number - 1 else 0

theorem numberOf_part {set : Name} {number : ℕ} {info : RarVolumeInfo}
    (given : numberOf name (set, .part number) = some info) :
    info.volumeNumber = partNumbered number := by
  rw [numberOf] at given
  rw [partNumbered]
  split at given
  next fits =>
    cases given
    rw [if_pos fits]
  next large =>
    cases given
    rw [if_neg large]

theorem numberOf_part_isSome (name set : Name) (number : ℕ) :
    ∃ info, numberOf name (set, .part number) = some info := by
  rw [numberOf]
  split
  · exact ⟨_, rfl⟩
  · exact ⟨_, rfl⟩

theorem numberOf_continued {set : Name} {tens ones : Char} {info : RarVolumeInfo}
    (given : numberOf name (set, .continued letter tens ones) = some info) :
    info.volumeNumber = continuedNumber letter tens ones := by
  rw [numberOf] at given
  split at given
  · nomatch given
  · cases given
    rfl

theorem Char.lt_iff_toNat {first second : Char} : first < second ↔ first.toNat < second.toNat :=
  Iff.rfl

theorem continued_ordered {tens ones letter' tens' ones' : Char}
    (valid : isVolumeLetter letter ∧ tens.isDigit ∧ ones.isDigit)
    (valid' : isVolumeLetter letter' ∧ tens'.isDigit ∧ ones'.isDigit) :
    (continuedNumber letter tens ones = continuedNumber letter' tens' ones' ↔
        Volume.continued letter tens ones = .continued letter' tens' ones') ∧
      (continuedNumber letter tens ones < continuedNumber letter' tens' ones' ↔
        (Volume.continued letter tens ones).Before (.continued letter' tens' ones')) := by
  have letterBounds := toNat_of_isVolumeLetter valid.1
  have tensBounds := toNat_of_isDigit valid.2.1
  have onesBounds := toNat_of_isDigit valid.2.2
  have letterBounds' := toNat_of_isVolumeLetter valid'.1
  have tensBounds' := toNat_of_isDigit valid'.2.1
  have onesBounds' := toNat_of_isDigit valid'.2.2
  have r : 'r'.toNat = 114 := rfl
  have zero : '0'.toNat = 48 := rfl
  rw [Volume.continued.injEq, Volume.Before, continuedNumber, continuedNumber, r, zero]
  simp only [Char.lt_iff_toNat, ← Char.toNat_inj]
  omega

theorem tellsApart_iff {number number' : ℕ} :
    TellsApart number number' ↔
      (partNumbered number = partNumbered number' ↔
        Volume.part number = Volume.part number') ∧
        (partNumbered number < partNumbered number' ↔
          (Volume.part number).Before (Volume.part number')) := by
  rw [Volume.part.injEq, Volume.Before, TellsApart, partNumbered, partNumbered]
  split
  · split
    · omega
    · omega
  · split
    · omega
    · omega

/-- Two names are numbered in order unless they declare different parts of a set, of which one is
no `u32` or the two are the parts zero and one. -/
theorem numberedInOrder_iff (name name' : Name) :
    NumberedInOrder name name' ↔
      ∀ set number number', declared name = some (set, .part number) →
        declared name' = some (set, .part number') → TellsApart number number' := by
  simp only [NumberedInOrder, parseRarVolume_eq]
  constructor
  · intro inOrder set number number' told told'
    have numbered := inOrder set _ _ told told' trivial
    rw [told, told', Option.bind_some, Option.bind_some] at numbered
    rcases numberOf_part_isSome name set number with ⟨info, given⟩
    rcases numberOf_part_isSome name' set number' with ⟨info', given'⟩
    have ordered := numbered info info' given given'
    rwa [numberOf_part given, numberOf_part given', ← tellsApart_iff] at ordered
  · intro apart set volume volume' told told' style info info' given given'
    rw [told, Option.bind_some] at given
    rw [told', Option.bind_some] at given'
    cases volume with
    | part number =>
        cases volume' with
        | part number' =>
            rw [numberOf_part given, numberOf_part given', ← tellsApart_iff]
            exact apart set number number' told told'
        | rar => exact style.elim
        | continued _ _ _ => exact style.elim
    | rar =>
        cases given
        cases volume' with
        | part _ => exact style.elim
        | rar =>
            cases given'
            exact ⟨iff_of_true rfl rfl, iff_of_false (Nat.lt_irrefl 0) not_false⟩
        | continued letter tens ones =>
            rw [numberOf_continued given']
            exact ⟨iff_of_false nofun nofun, iff_of_true (Nat.succ_pos _) trivial⟩
    | continued letter tens ones =>
        rw [numberOf_continued given]
        cases volume' with
        | part _ => exact style.elim
        | rar =>
            cases given'
            exact ⟨iff_of_false nofun nofun, iff_of_false (Nat.not_lt_zero _) not_false⟩
        | continued letter' tens' ones' =>
            rw [numberOf_continued given']
            exact continued_ordered (letters_of_declared told) (letters_of_declared told')

end Rustnzb.Postproc
