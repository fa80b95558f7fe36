import Mathlib.Data.Bool.AllAny
import Rustnzb.Core.NzbParser

/-!
# PAR2 names and the bytes of their lower case

`parse_par2_filename` looks for `.vol` in a lower-cased copy of a name and cuts the name itself at
the byte offset it found. A lower-case letter may have fewer or more bytes than its upper case, and
the offset is then one of the copy only. `Core.parsePar2Filename` counts characters and knows no
such letters: it is what the name says, and the parser here agrees with it where the offset is
right.
-/

namespace Rustnzb.Core.Par2Names

/-! ## Byte offsets -/

def utf8Len (text : List Char) : ℕ := (text.map Char.utf8Size).sum

@[simp] theorem utf8Len_nil : utf8Len [] = 0 := rfl

@[simp] theorem utf8Len_cons (char : Char) (text : List Char) :
    utf8Len (char :: text) = char.utf8Size + utf8Len text := by
  simp [utf8Len]

@[simp] theorem utf8Len_append (first second : List Char) :
    utf8Len (first ++ second) = utf8Len first + utf8Len second := by
  simp [utf8Len]

/-- The text before a byte offset and the text from it on. Inside a character and behind the end
there is none: the slice panics. -/
def sliceAt : ℕ → List Char → Option (List Char × List Char)
  | 0, text => some ([], text)
  | _ + 1, [] => none
  | offset + 1, char :: rest =>
      if char.utf8Size ≤ offset + 1 then
        (sliceAt (offset + 1 - char.utf8Size) rest).map fun (before, after) =>
          (char :: before, after)
      else none

theorem sliceAt_append (before after : List Char) :
    sliceAt (utf8Len before) (before ++ after) = some (before, after) := by
  induction before with
  | nil => cases after <;> rfl
  | cons char rest ih =>
      have pos := char.utf8Size_pos
      obtain ⟨offset, eq⟩ : ∃ offset, char.utf8Size + utf8Len rest = offset + 1 :=
        ⟨char.utf8Size + utf8Len rest - 1, by omega⟩
      have left : offset + 1 - char.utf8Size = utf8Len rest := by omega
      have fits : char.utf8Size ≤ offset + 1 := by omega
      rw [utf8Len_cons, eq, List.cons_append, sliceAt, if_pos fits, left, ih]
      rfl

theorem of_sliceAt {offset : ℕ} {text before after : List Char}
    (sliced : sliceAt offset text = some (before, after)) :
    text = before ++ after ∧ utf8Len before = offset := by
  induction text generalizing offset before with
  | nil =>
      cases offset with
      | zero => cases sliced; exact ⟨rfl, rfl⟩
      | succ offset => simp [sliceAt] at sliced
  | cons char rest ih =>
      cases offset with
      | zero => cases sliced; exact ⟨rfl, rfl⟩
      | succ offset =>
          rw [sliceAt] at sliced
          split at sliced
          next fits =>
            simp only [Option.map_eq_some_iff, Prod.exists, Prod.mk.injEq] at sliced
            rcases sliced with ⟨shorter, _, found, rfl, rfl⟩
            rcases ih found with ⟨rfl, len⟩
            refine ⟨rfl, ?_⟩
            rw [utf8Len_cons, len]
            omega
          · simp at sliced

/-! ## Lower case -/

def markers : List Char := ".par2vol".toList

/-- What a character may become in lower case. No character outside ASCII becomes one of the
markers, and none vanishes. -/
def Lowered (char : Char) (piece : List Char) : Prop :=
  if char.toNat < 128 then piece = [char.toLower]
  else piece ≠ [] ∧ ∀ letter ∈ piece, letter ∉ markers

/-- `str::to_lowercase`: what each character of a text becomes. A sigma depends on the letters
around it, so the pieces are those of a text and not of a character. -/
structure Lowercase where
  pieces : List Char → List (List Char)
  lowered : ∀ text, List.Forall₂ Lowered text (pieces text)

def Lowercase.text (lower : Lowercase) (text : List Char) : List Char :=
  (lower.pieces text).flatten

/-! ## The parser -/

abbrev Par2Name := Option (List Char) × Option ℕ × Option ℕ

/-- `vol_part.find(['+', '-'])` goes over these. -/
def beforeSeparator (char : Char) : Bool := char ≠ '+' && char ≠ '-'

def volumeAndBlocks (volPart : List Char) : Option (ℕ × ℕ) :=
  match volPart.dropWhile beforeSeparator with
  | [] => none
  | _ :: blocksText =>
      let volText := volPart.takeWhile beforeSeparator
      if volText ≠ [] ∧ blocksText ≠ [] ∧ volText.all Char.isDigit ∧
        blocksText.all Char.isDigit then
        match parseUnsigned (2 ^ 32) (String.ofList volText),
            parseUnsigned (2 ^ 32) (String.ofList blocksText) with
        | some vol, some blocks => some (vol, blocks)
        | _, _ => none
      else none

/-- `str::rfind`: the byte offset of the last occurrence. -/
def rfindByte (needle text : List Char) : Option ℕ :=
  (rfind needle text).map fun start => utf8Len (text.take start)

/-- What a PAR2 file name tells of; none where a slice panics. -/
def parsePar2Filename (lower : Lowercase) (filename : List Char) : Option Par2Name :=
  if !".par2".toList.isSuffixOf (lower.text filename) then some (none, none, none)
  else if utf8Len filename < 5 then none
  else do
    let (withoutExt, _) ← sliceAt (utf8Len filename - 5) filename
    match rfindByte ".vol".toList (lower.text withoutExt) with
    | none => some (some withoutExt, none, none)
    | some volPos =>
        let (setname, _) ← sliceAt volPos withoutExt
        let (_, volPart) ← sliceAt (volPos + 4) withoutExt
        match volumeAndBlocks volPart with
        | some (vol, blocks) => some (some setname, some vol, some blocks)
        | none => some (some withoutExt, none, none)

/-! ## The last occurrence -/

theorem find?_of_descending {holds : ℕ → Bool} {starts : List ℕ}
    (descending : starts.Pairwise (· > ·)) {start : ℕ} :
    starts.find? holds = some start ↔
      start ∈ starts ∧ holds start ∧ ∀ later ∈ starts, start < later → ¬holds later := by
  induction starts with
  | nil => simp
  | cons first rest ih =>
      rcases List.pairwise_cons.mp descending with ⟨above, descending⟩
      rw [List.find?_cons]
      cases found : holds first with
      | true =>
          simp only [Option.some.injEq]
          constructor
          · rintro rfl
            refine ⟨List.mem_cons_self, found, ?_⟩
            intro later mem lt
            rcases List.mem_cons.mp mem with rfl | mem
            · omega
            · have := above later mem
              omega
          · rintro ⟨mem, -, last⟩
            rcases List.mem_cons.mp mem with rfl | mem
            · rfl
            · exact absurd found (last first List.mem_cons_self (above start mem))
      | false =>
          simp only
          rw [ih descending]
          constructor
          · rintro ⟨mem, isSome, last⟩
            refine ⟨List.mem_cons_of_mem first mem, isSome, ?_⟩
            intro later later_mem lt
            rcases List.mem_cons.mp later_mem with rfl | later_mem
            · simp [found]
            · exact last later later_mem lt
          · rintro ⟨mem, isSome, last⟩
            rcases List.mem_cons.mp mem with rfl | mem
            · simp [found] at isSome
            · exact ⟨mem, isSome, fun later later_mem =>
                last later (List.mem_cons_of_mem first later_mem)⟩

theorem lt_length_of_occurs {needle text : List Char} (nonempty : needle ≠ []) {start : ℕ}
    (occurs : needle <+: text.drop start) : start < text.length := by
  have le := occurs.length_le
  have pos := List.length_pos_iff.mpr nonempty
  rw [List.length_drop] at le
  omega

theorem rfind_eq_some {needle text : List Char} (nonempty : needle ≠ []) {start : ℕ} :
    rfind needle text = some start ↔
      needle <+: text.drop start ∧ ∀ later, start < later → ¬needle <+: text.drop later := by
  have descending : (List.range (text.length + 1)).reverse.Pairwise (· > ·) := by
    rw [List.pairwise_reverse]
    exact List.pairwise_lt_range
  rw [rfind, find?_of_descending descending]
  simp only [List.mem_reverse, List.mem_range, List.isPrefixOf_iff_prefix]
  constructor
  · rintro ⟨-, occurs, last⟩
    refine ⟨occurs, ?_⟩
    intro later lt found
    have inside := lt_length_of_occurs nonempty found
    exact last later (by omega) lt found
  · rintro ⟨occurs, last⟩
    have inside := lt_length_of_occurs nonempty occurs
    exact ⟨by omega, occurs, fun later _ => last later⟩

theorem rfind_eq_none {needle text : List Char} (nonempty : needle ≠ []) :
    rfind needle text = none ↔ ∀ start, ¬needle <+: text.drop start := by
  simp only [rfind, List.find?_eq_none, List.mem_reverse, List.mem_range,
    List.isPrefixOf_iff_prefix]
  constructor
  · intro none start occurs
    have inside := lt_length_of_occurs nonempty occurs
    exact none start (by omega) occurs
  · intro none start _
    exact none start

/-! ## Occurrences in the lower case -/

theorem ascii_of_toLower_mem {char : Char} (mem : char.toLower ∈ markers) : char.toNat < 128 := by
  by_contra large
  have notUpper : ¬('A'.val ≤ char.val ∧ char.val ≤ 'Z'.val) := by
    rintro ⟨-, le⟩
    have : char.toNat ≤ 90 := le
    omega
  have same : char.toLower = char := dif_neg notUpper
  rw [same] at mem
  have small : ∀ letter ∈ markers, letter.toNat < 128 :=
    List.all_iff_forall_prop.mp (by decide)
  exact large (small char mem)

theorem marked_par2 : ∀ letter ∈ ".par2".toList, letter ∈ markers :=
  List.all_iff_forall_prop.mp (by decide)

theorem marked_vol : ∀ letter ∈ ".vol".toList, letter ∈ markers :=
  List.all_iff_forall_prop.mp (by decide)

section Pieces

variable {text needle : List Char} {pieces : List (List Char)}

theorem prefix_flatten_iff (lowered : List.Forall₂ Lowered text pieces)
    (marked : ∀ letter ∈ needle, letter ∈ markers) :
    needle <+: pieces.flatten ↔ needle <+: text.map Char.toLower := by
  induction lowered generalizing needle with
  | nil => rfl
  | @cons char piece rest pieces head _ ih =>
      cases needle with
      | nil => simp
      | cons letter needle =>
          have letter_marked := marked letter List.mem_cons_self
          have rest_marked : ∀ letter ∈ needle, letter ∈ markers := fun other mem =>
            marked other (List.mem_cons_of_mem letter mem)
          rw [Lowered] at head
          split at head
          next ascii =>
            subst head
            rw [List.flatten_cons, List.singleton_append, List.map_cons, List.cons_prefix_cons,
              List.cons_prefix_cons, ih rest_marked]
          next large =>
            rcases head with ⟨nonempty, unmarked⟩
            rcases List.exists_cons_of_ne_nil nonempty with ⟨first, others, rfl⟩
            rw [List.flatten_cons, List.cons_append, List.map_cons, List.cons_prefix_cons,
              List.cons_prefix_cons]
            constructor
            · rintro ⟨rfl, -⟩
              exact absurd letter_marked (unmarked letter List.mem_cons_self)
            · rintro ⟨rfl, -⟩
              exact absurd (ascii_of_toLower_mem letter_marked) large

theorem flatten_eq_iff (lowered : List.Forall₂ Lowered text pieces)
    (marked : ∀ letter ∈ needle, letter ∈ markers) :
    pieces.flatten = needle ↔ text.map Char.toLower = needle := by
  induction lowered generalizing needle with
  | nil => rfl
  | @cons char piece rest pieces head _ ih =>
      rw [Lowered] at head
      split at head
      next ascii =>
        subst head
        rw [List.flatten_cons, List.singleton_append, List.map_cons]
        cases needle with
        | nil => simp
        | cons letter needle =>
            have rest_marked : ∀ letter ∈ needle, letter ∈ markers := fun other mem =>
              marked other (List.mem_cons_of_mem letter mem)
            rw [List.cons.injEq, List.cons.injEq, ih rest_marked]
      next large =>
        rcases head with ⟨nonempty, unmarked⟩
        rcases List.exists_mem_of_ne_nil piece nonempty with ⟨letter, mem⟩
        constructor
        · rintro rfl
          exact absurd (marked letter (by simp [mem])) (unmarked letter mem)
        · rintro rfl
          exact absurd (ascii_of_toLower_mem (marked char.toLower (by simp))) large

theorem exists_piece_of_occurs (lowered : List.Forall₂ Lowered text pieces)
    (marked : ∀ letter ∈ needle, letter ∈ markers) (nonempty : needle ≠ []) {start : ℕ}
    (occurs : needle <+: pieces.flatten.drop start) :
    ∃ index, start = (pieces.take index).flatten.length := by
  induction lowered generalizing start with
  | nil => simp [nonempty] at occurs
  | @cons char piece rest pieces head _ ih =>
      rcases Nat.eq_zero_or_pos start with rfl | pos
      · exact ⟨0, rfl⟩
      · rw [List.flatten_cons] at occurs
        rcases Nat.lt_or_ge start piece.length with inside | behind
        · rw [List.drop_append_of_le_length inside.le] at occurs
          rw [Lowered] at head
          split at head
          next ascii =>
            subst head
            rw [List.length_singleton] at inside
            omega
          next large =>
            rcases List.exists_cons_of_ne_nil nonempty with ⟨letter, others, rfl⟩
            rw [List.drop_eq_getElem_cons inside, List.cons_append,
              List.cons_prefix_cons] at occurs
            have mem : letter ∈ piece := by
              rw [occurs.1]
              exact List.getElem_mem inside
            exact absurd (marked letter List.mem_cons_self) (head.2 letter mem)
        · rw [List.drop_append, List.drop_eq_nil_of_le behind, List.nil_append] at occurs
          rcases ih occurs with ⟨index, eq⟩
          refine ⟨index + 1, ?_⟩
          rw [List.take_succ_cons, List.flatten_cons, List.length_append, ← eq]
          omega

end Pieces

theorem drop_flatten_take (pieces : List (List Char)) (index : ℕ) :
    pieces.flatten.drop (pieces.take index).flatten.length = (pieces.drop index).flatten := by
  conv_lhs => rw [← List.take_append_drop index pieces, List.flatten_append]
  rw [List.take_append_drop, List.drop_left]

theorem length_flatten_take_le (pieces : List (List Char)) {first second : ℕ}
    (le : first ≤ second) :
    (pieces.take first).flatten.length ≤ (pieces.take second).flatten.length := by
  have split := List.take_append_drop first (pieces.take second)
  rw [List.take_take, min_eq_left le] at split
  rw [← split, List.flatten_append, List.length_append]
  exact Nat.le_add_right _ _

def Lowercase.bytesBefore (lower : Lowercase) (text : List Char) (index : ℕ) : ℕ :=
  utf8Len ((lower.pieces text).take index).flatten

section Markers

variable {needle : List Char} (lower : Lowercase) (marked : ∀ letter ∈ needle, letter ∈ markers)

include marked

theorem occurs_iff (text : List Char) (index : ℕ) :
    needle <+: (lower.text text).drop ((lower.pieces text).take index).flatten.length ↔
      needle <+: (text.map Char.toLower).drop index := by
  rw [Lowercase.text, drop_flatten_take, ← List.map_drop]
  exact prefix_flatten_iff (List.forall₂_drop index (lower.lowered text)) marked

theorem rfindByte_text (nonempty : needle ≠ []) (text : List Char) :
    rfindByte needle (lower.text text) =
      (rfind needle (text.map Char.toLower)).map (lower.bytesBefore text) := by
  cases found : rfind needle (text.map Char.toLower) with
  | none =>
      rw [rfind_eq_none nonempty] at found
      rw [rfindByte, (rfind_eq_none nonempty).mpr]
      · rfl
      · intro start occurs
        rcases exists_piece_of_occurs (lower.lowered text) marked nonempty occurs
          with ⟨index, rfl⟩
        exact found index ((occurs_iff lower marked text index).mp occurs)
  | some index =>
      rw [rfind_eq_some nonempty] at found
      rcases found with ⟨occurs, last⟩
      have start : rfind needle (lower.text text) =
          some ((lower.pieces text).take index).flatten.length := by
        rw [rfind_eq_some nonempty]
        refine ⟨(occurs_iff lower marked text index).mpr occurs, ?_⟩
        intro later lt found
        rcases exists_piece_of_occurs (lower.lowered text) marked nonempty found
          with ⟨other, rfl⟩
        have above : index < other := by
          by_contra le
          have := length_flatten_take_le (lower.pieces text) (Nat.le_of_not_lt le)
          omega
        exact last other above ((occurs_iff lower marked text other).mp found)
      rw [rfindByte, start]
      simp only [Option.map_some, Option.some.injEq, Lowercase.bytesBefore]
      conv_lhs => rw [Lowercase.text, ← List.take_append_drop index (lower.pieces text),
        List.flatten_append, List.take_append_drop, List.take_left]

theorem suffix_text_iff (nonempty : needle ≠ []) (text : List Char) :
    needle <:+ lower.text text ↔
      ∃ before after, text = before ++ after ∧ after.map Char.toLower = needle := by
  constructor
  · rintro ⟨front, eq⟩
    have occurs : needle <+: (lower.text text).drop front.length := by
      rw [← eq, List.drop_left]
    rcases exists_piece_of_occurs (lower.lowered text) marked nonempty occurs with ⟨index, len⟩
    refine ⟨text.take index, text.drop index, (List.take_append_drop index text).symm, ?_⟩
    rw [← flatten_eq_iff (List.forall₂_drop index (lower.lowered text)) marked,
      ← drop_flatten_take, ← len]
    change (lower.text text).drop front.length = needle
    rw [← eq, List.drop_left]
  · rintro ⟨before, after, rfl, eq⟩
    have lowered := List.forall₂_drop before.length (lower.lowered (before ++ after))
    rw [List.drop_left] at lowered
    refine ⟨((lower.pieces (before ++ after)).take before.length).flatten, ?_⟩
    rw [← (flatten_eq_iff lowered marked).mpr eq, ← List.flatten_append, List.take_append_drop]
    rfl

end Markers

/-! ## What a name says -/

/-- A digit string and its value, which fits `u32`. -/
def Digits (text : List Char) (value : ℕ) : Prop :=
  text.all Char.isDigit ∧ parseUnsigned (2 ^ 32) (String.ofList text) = some value

/-- The first volume and the number of blocks, as in `003+04`. -/
def NamesVolume (volPart : List Char) (vol blocks : ℕ) : Prop :=
  ∃ volText separator blocksText, volPart = volText ++ separator :: blocksText ∧
    (separator = '+' ∨ separator = '-') ∧ Digits volText vol ∧ Digits blocksText blocks

/-- A name without its extension that is a set name, `.vol` in any case and a volume. -/
def IsVolumeName (withoutExt setname : List Char) (vol blocks : ℕ) : Prop :=
  ∃ mark volPart, withoutExt = setname ++ mark ++ volPart ∧
    mark.map Char.toLower = ".vol".toList ∧ NamesVolume volPart vol blocks

def IsExtension (ext : List Char) : Prop := ext.map Char.toLower = ".par2".toList

/-- What is to be read from a name: nothing panics, volume names are taken apart, any other name
with the extension is that of an index file, and nothing is read from the rest. -/
structure ReadRight (filename : List Char) (result : Option Par2Name) : Prop where
  safe : result.isSome
  volume : ∀ withoutExt ext setname vol blocks, filename = withoutExt ++ ext → IsExtension ext →
    IsVolumeName withoutExt setname vol blocks →
      result = some (some setname, some vol, some blocks)
  index : ∀ withoutExt ext, filename = withoutExt ++ ext → IsExtension ext →
    (∀ setname vol blocks, ¬IsVolumeName withoutExt setname vol blocks) →
      result = some (some withoutExt, none, none)
  other : (∀ withoutExt ext, filename = withoutExt ++ ext → ¬IsExtension ext) →
    result = some (none, none, none)

theorem Digits.nonempty {text : List Char} {value : ℕ} (digits : Digits text value) :
    text ≠ [] := by
  rintro rfl
  have parsed := digits.2
  simp [parseUnsigned] at parsed

theorem Digits.beforeSeparator {text : List Char} {value : ℕ} (digits : Digits text value) :
    ∀ char ∈ text, beforeSeparator char = true := by
  intro char mem
  have digit := List.all_eq_true.mp digits.1 char mem
  have plus : char ≠ '+' := by rintro rfl; simp at digit
  have minus : char ≠ '-' := by rintro rfl; simp at digit
  simp [Par2Names.beforeSeparator, plus, minus]

theorem volumeAndBlocks_eq_some {volPart : List Char} {vol blocks : ℕ} :
    volumeAndBlocks volPart = some (vol, blocks) ↔ NamesVolume volPart vol blocks := by
  constructor
  · intro read
    rw [volumeAndBlocks] at read
    split at read
    · simp at read
    next separator blocksText split =>
      simp only at read
      split at read
      next checked =>
        rcases checked with ⟨-, -, volDigits, blocksDigits⟩
        split at read
        next volRead blocksRead =>
          cases read
          have parts := List.takeWhile_append_dropWhile (p := beforeSeparator) (l := volPart)
          rw [split] at parts
          have stops := List.dropWhile_get_zero_not beforeSeparator volPart (by simp [split])
          refine ⟨_, separator, blocksText, parts.symm, ?_, ⟨volDigits, volRead⟩, blocksDigits,
            blocksRead⟩
          simp only [split, List.get_eq_getElem, List.getElem_cons_zero, beforeSeparator] at stops
          by_contra neither
          push Not at neither
          simp [neither] at stops
        · simp at read
      · simp at read
  · rintro ⟨volText, separator, blocksText, rfl, isSeparator, volDigits, blocksDigits⟩
    have stops : beforeSeparator separator = false := by
      rcases isSeparator with rfl | rfl <;> rfl
    have before := volDigits.beforeSeparator
    have dropped : (volText ++ separator :: blocksText).dropWhile beforeSeparator =
        separator :: blocksText := by
      rw [List.dropWhile_append_of_pos before, List.dropWhile_cons_of_neg (by simp [stops])]
    have taken : (volText ++ separator :: blocksText).takeWhile beforeSeparator = volText := by
      rw [List.takeWhile_append_of_pos before, List.takeWhile_cons_of_neg (by simp [stops]),
        List.append_nil]
    simp only [volumeAndBlocks, dropped, taken, volDigits.nonempty, blocksDigits.nonempty,
      volDigits.1, blocksDigits.1, volDigits.2, blocksDigits.2, ne_eq, not_false_eq_true, and_self,
      if_true]

/-! ## Names read by characters -/

variable {ext withoutExt : List Char}

theorem IsExtension.length (isExt : IsExtension ext) : ext.length = 5 := by
  have := congrArg List.length isExt
  simpa using this

theorem IsVolumeName.eq_drop {setname : List Char} {vol blocks : ℕ}
    (named : IsVolumeName withoutExt setname vol blocks) :
    withoutExt.take setname.length = setname ∧
      NamesVolume (withoutExt.drop (setname.length + 4)) vol blocks := by
  rcases named with ⟨mark, volPart, rfl, isMark, isVolume⟩
  have len : mark.length = 4 := by simpa using congrArg List.length isMark
  rw [List.append_assoc, List.take_left, ← len, ← List.length_append, ← List.append_assoc,
    List.drop_left]
  exact ⟨rfl, isVolume⟩

/-- Behind `.vol` a volume has no further dot, so this `.vol` is the last one. -/
theorem IsVolumeName.rfind {setname : List Char} {vol blocks : ℕ}
    (named : IsVolumeName withoutExt setname vol blocks) :
    Core.rfind ".vol".toList (withoutExt.map Char.toLower) = some setname.length := by
  rcases named with ⟨mark, volPart, rfl, isMark, volText, separator, blocksText, rfl, isSeparator,
    volDigits, blocksDigits⟩
  have digit_ne (char : Char) (digit : char.isDigit) : char.toLower ≠ '.' := by
    have ge : 48 ≤ char.toNat := by
      simp only [Char.isDigit, ge_iff_le, Bool.and_eq_true, decide_eq_true_eq] at digit
      exact digit.1
    have le : char.toNat ≤ 57 := by
      simp only [Char.isDigit, ge_iff_le, Bool.and_eq_true, decide_eq_true_eq] at digit
      exact digit.2
    have notUpper : ¬('A'.val ≤ char.val ∧ char.val ≤ 'Z'.val) := by
      rintro ⟨upper, -⟩
      have : 65 ≤ char.toNat := upper
      omega
    have same : char.toLower = char := dif_neg notUpper
    intro eq
    rw [same] at eq
    subst eq
    simp at ge
  have noDot : ∀ char ∈ (volText ++ separator :: blocksText).map Char.toLower, char ≠ '.' := by
    intro char mem
    rcases List.mem_map.mp mem with ⟨original, inside, rfl⟩
    rcases List.mem_append.mp inside with mem | mem
    · exact digit_ne original (List.all_eq_true.mp volDigits.1 original mem)
    · rcases List.mem_cons.mp mem with rfl | mem
      · rcases isSeparator with rfl | rfl <;> decide
      · exact digit_ne original (List.all_eq_true.mp blocksDigits.1 original mem)
  generalize volText ++ separator :: blocksText = volPart at noDot
  rw [rfind_eq_some (by decide), List.map_append, List.map_append, isMark, List.append_assoc]
  constructor
  · rw [← List.length_map (f := Char.toLower), List.drop_left]
    exact List.prefix_append _ _
  · intro later lt occurs
    obtain ⟨extra, rfl⟩ : ∃ extra, later = setname.length + (extra + 1) :=
      ⟨later - setname.length - 1, by omega⟩
    rw [← List.length_map (f := Char.toLower), List.drop_length_add_append] at occurs
    have mem : '.' ∈ (".vol".toList ++ volPart.map Char.toLower).drop (extra + 1) :=
      occurs.subset (by decide)
    have mem : '.' ∈ "vol".toList ++ volPart.map Char.toLower := List.mem_of_mem_drop mem
    rcases List.mem_append.mp mem with mem | mem
    · revert mem
      decide
    · exact noDot '.' mem rfl

theorem isVolumeName_of_rfind {start vol blocks : ℕ}
    (found : Core.rfind ".vol".toList (withoutExt.map Char.toLower) = some start)
    (volume : NamesVolume (withoutExt.drop (start + 4)) vol blocks) :
    IsVolumeName withoutExt (withoutExt.take start) vol blocks := by
  rcases (rfind_eq_some (by decide)).mp found with ⟨occurs, -⟩
  refine ⟨(withoutExt.drop start).take 4, withoutExt.drop (start + 4), ?_, ?_, volume⟩
  · rw [← List.drop_drop, List.append_assoc, List.take_append_drop, List.take_append_drop]
  · rw [List.map_take, List.map_drop]
    exact (List.prefix_iff_eq_take.mp occurs).symm

theorem core_of_extension (isExt : IsExtension ext) :
    Core.parsePar2Filename (withoutExt ++ ext) =
      match (Core.rfind ".vol".toList (withoutExt.map Char.toLower)).bind fun start =>
          (volumeAndBlocks (withoutExt.drop (start + 4))).map fun (vol, blocks) =>
            (withoutExt.take start, vol, blocks) with
      | some (setname, vol, blocks) => (some setname, some vol, some blocks)
      | none => (some withoutExt, none, none) := by
  have suffix : ".par2".toList.isSuffixOf ((withoutExt ++ ext).map Char.toLower) := by
    rw [List.isSuffixOf_iff_suffix, List.map_append, isExt]
    exact List.suffix_append _ _
  have cut : (withoutExt ++ ext).take ((withoutExt ++ ext).length - 5) = withoutExt := by
    rw [List.length_append, isExt.length, Nat.add_sub_cancel, List.take_left]
  rw [Core.parsePar2Filename, if_pos suffix]
  have scan : (fun char : Char => decide (char ≠ '+') && decide (char ≠ '-')) =
      beforeSeparator := rfl
  simp only [cut, scan]
  rcases Core.rfind ".vol".toList (withoutExt.map Char.toLower) with _ | start
  · rfl
  · simp only [Option.bind_some, volumeAndBlocks]
    rcases (withoutExt.drop (start + 4)).dropWhile beforeSeparator with _ | ⟨_, blocksText⟩
    · rfl
    · simp only
      split_ifs
      · rcases parseUnsigned (2 ^ 32) (String.ofList
          ((withoutExt.drop (start + 4)).takeWhile beforeSeparator)) with _ | vol
        · rfl
        · rcases parseUnsigned (2 ^ 32) (String.ofList blocksText) with _ | blocks <;> rfl
      · rfl

theorem core_of_volume {setname : List Char} {vol blocks : ℕ} (isExt : IsExtension ext)
    (named : IsVolumeName withoutExt setname vol blocks) :
    Core.parsePar2Filename (withoutExt ++ ext) = (some setname, some vol, some blocks) := by
  rcases named.eq_drop with ⟨front, volume⟩
  rw [core_of_extension isExt, named.rfind, Option.bind_some, volumeAndBlocks_eq_some.mpr volume,
    Option.map_some, front]

theorem core_of_index (isExt : IsExtension ext)
    (unnamed : ∀ setname vol blocks, ¬IsVolumeName withoutExt setname vol blocks) :
    Core.parsePar2Filename (withoutExt ++ ext) = (some withoutExt, none, none) := by
  rw [core_of_extension isExt]
  cases found : Core.rfind ".vol".toList (withoutExt.map Char.toLower) with
  | none => rfl
  | some start =>
      cases read : volumeAndBlocks (withoutExt.drop (start + 4)) with
      | none =>
          rw [Option.bind_some, read]
          rfl
      | some volume =>
          have named := isVolumeName_of_rfind found (volumeAndBlocks_eq_some.mp read)
          exact absurd named (unnamed _ _ _)

theorem core_of_other {filename : List Char}
    (other : ∀ withoutExt ext, filename = withoutExt ++ ext → ¬IsExtension ext) :
    Core.parsePar2Filename filename = (none, none, none) := by
  rw [Core.parsePar2Filename, if_neg]
  rw [List.isSuffixOf_iff_suffix]
  rintro ⟨front, eq⟩
  rcases List.map_eq_append_iff.mp eq.symm with ⟨before, after, rfl, -, isExt⟩
  exact other before after rfl isExt

theorem readRight_iff {filename : List Char} {result : Option Par2Name} :
    ReadRight filename result ↔ result = some (Core.parsePar2Filename filename) := by
  constructor
  · intro right
    by_cases extended : ∃ withoutExt ext, filename = withoutExt ++ ext ∧ IsExtension ext
    · rcases extended with ⟨withoutExt, ext, rfl, isExt⟩
      by_cases volume : ∃ setname vol blocks, IsVolumeName withoutExt setname vol blocks
      · rcases volume with ⟨setname, vol, blocks, named⟩
        rw [right.volume withoutExt ext setname vol blocks rfl isExt named,
          core_of_volume isExt named]
      · push Not at volume
        rw [right.index withoutExt ext rfl isExt volume, core_of_index isExt volume]
    · push Not at extended
      rw [right.other extended, core_of_other extended]
  · rintro rfl
    refine ⟨rfl, ?_, ?_, ?_⟩
    · rintro withoutExt ext setname vol blocks rfl isExt named
      rw [core_of_volume isExt named]
    · rintro withoutExt ext rfl isExt unnamed
      rw [core_of_index isExt unnamed]
    · intro other
      rw [core_of_other other]

/-! ## Names read by bytes -/

/-- Where `.vol` is found last, the characters before it have as many bytes as their lower case; or
the name is none of a volume and the offset of the lower case misses nothing: it and the offset
behind `.vol` are between characters, and no volume is read there. -/
def Aligned (lower : Lowercase) (filename : List Char) : Prop :=
  ∀ withoutExt ext, filename = withoutExt ++ ext → IsExtension ext →
    ∀ start, Core.rfind ".vol".toList (withoutExt.map Char.toLower) = some start →
      let volPos := lower.bytesBefore withoutExt start
      volPos = utf8Len (withoutExt.take start) ∨
        volumeAndBlocks (withoutExt.drop (start + 4)) = none ∧
          (sliceAt volPos withoutExt).isSome ∧
            ∃ read volPart, sliceAt (volPos + 4) withoutExt = some (read, volPart) ∧
              volumeAndBlocks volPart = none

theorem parse_of_other (lower : Lowercase) {filename : List Char}
    (other : ∀ withoutExt ext, filename = withoutExt ++ ext → ¬IsExtension ext) :
    parsePar2Filename lower filename = some (none, none, none) := by
  have none : ¬".par2".toList <:+ lower.text filename := by
    rw [suffix_text_iff lower marked_par2 (by decide)]
    rintro ⟨withoutExt, ext, eq, isExt⟩
    exact other withoutExt ext eq isExt
  rw [← List.isSuffixOf_iff_suffix, Bool.not_eq_true] at none
  rw [parsePar2Filename, none, if_pos (by decide)]

theorem utf8Len_of_marked {text : List Char}
    (marked : ∀ letter ∈ text.map Char.toLower, letter ∈ markers) : utf8Len text = text.length := by
  induction text with
  | nil => rfl
  | cons char rest ih =>
      have ascii := ascii_of_toLower_mem (marked char.toLower (by simp))
      have one : char.utf8Size = 1 := by
        rw [Char.utf8Size_eq_one_iff]
        exact Nat.le_of_lt_succ ascii
      rw [utf8Len_cons, one, ih fun letter mem => marked letter (List.mem_cons_of_mem _ mem),
        List.length_cons]
      omega

/-- The slices at an offset that was found in the lower case. -/
def readAt (withoutExt : List Char) (volPos : ℕ) : Option Par2Name := do
  let (setname, _) ← sliceAt volPos withoutExt
  let (_, volPart) ← sliceAt (volPos + 4) withoutExt
  match volumeAndBlocks volPart with
  | some (vol, blocks) => some (some setname, some vol, some blocks)
  | none => some (some withoutExt, none, none)

theorem parse_of_extension (lower : Lowercase) (isExt : IsExtension ext) :
    parsePar2Filename lower (withoutExt ++ ext) =
      match Core.rfind ".vol".toList (withoutExt.map Char.toLower) with
      | none => some (some withoutExt, none, none)
      | some start => readAt withoutExt (lower.bytesBefore withoutExt start) := by
  have suffix : ".par2".toList <:+ lower.text (withoutExt ++ ext) := by
    rw [suffix_text_iff lower marked_par2 (by decide)]
    exact ⟨withoutExt, ext, rfl, isExt⟩
  have len : utf8Len ext = 5 := by
    rw [utf8Len_of_marked, isExt.length]
    rw [isExt]
    exact marked_par2
  have cut : sliceAt (utf8Len (withoutExt ++ ext) - 5) (withoutExt ++ ext) =
      some (withoutExt, ext) := by
    rw [utf8Len_append, len, Nat.add_sub_cancel, sliceAt_append]
  have enough : ¬utf8Len (withoutExt ++ ext) < 5 := by
    rw [utf8Len_append, len]
    omega
  rw [← List.isSuffixOf_iff_suffix] at suffix
  rw [parsePar2Filename, suffix, if_neg (by decide), if_neg enough, cut]
  simp only [Option.bind_eq_bind, Option.bind_some]
  rw [rfindByte_text lower marked_vol (by decide)]
  rcases Core.rfind ".vol".toList (withoutExt.map Char.toLower) with _ | start <;> rfl

theorem sliceAt_mark {start : ℕ}
    (found : Core.rfind ".vol".toList (withoutExt.map Char.toLower) = some start) :
    sliceAt (utf8Len (withoutExt.take start)) withoutExt =
        some (withoutExt.take start, withoutExt.drop start) ∧
      sliceAt (utf8Len (withoutExt.take start) + 4) withoutExt =
        some (withoutExt.take (start + 4), withoutExt.drop (start + 4)) := by
  have mark : ((withoutExt.drop start).take 4).map Char.toLower = ".vol".toList := by
    rw [List.map_take, List.map_drop]
    exact (List.prefix_iff_eq_take.mp ((rfind_eq_some (by decide)).mp found).1).symm
  have len : utf8Len ((withoutExt.drop start).take 4) = 4 := by
    rw [utf8Len_of_marked]
    · simpa using congrArg List.length mark
    · rw [mark]
      exact marked_vol
  constructor
  · have sliced := sliceAt_append (withoutExt.take start) (withoutExt.drop start)
    rwa [List.take_append_drop] at sliced
  · have sliced := sliceAt_append (withoutExt.take (start + 4)) (withoutExt.drop (start + 4))
    rwa [List.take_append_drop, List.take_add, utf8Len_append, len, ← List.take_add] at sliced

theorem readAt_eq_some_iff {start : ℕ}
    (found : Core.rfind ".vol".toList (withoutExt.map Char.toLower) = some start) (volPos : ℕ) :
    readAt withoutExt volPos =
        some (match volumeAndBlocks (withoutExt.drop (start + 4)) with
          | some (vol, blocks) => (some (withoutExt.take start), some vol, some blocks)
          | none => (some withoutExt, none, none)) ↔
      volPos = utf8Len (withoutExt.take start) ∨
        volumeAndBlocks (withoutExt.drop (start + 4)) = none ∧
          (sliceAt volPos withoutExt).isSome ∧
            ∃ read volPart, sliceAt (volPos + 4) withoutExt = some (read, volPart) ∧
              volumeAndBlocks volPart = none := by
  rcases sliceAt_mark found with ⟨front, back⟩
  by_cases right : volPos = utf8Len (withoutExt.take start)
  · subst right
    simp only [true_or, iff_true]
    rw [readAt, front, back]
    simp only [Option.bind_eq_bind, Option.bind_some]
    rcases volumeAndBlocks (withoutExt.drop (start + 4)) with _ | ⟨vol, blocks⟩ <;> rfl
  · simp only [right, false_or]
    rw [readAt]
    cases cut : sliceAt volPos withoutExt with
    | none => simp
    | some slices =>
        rcases slices with ⟨setname, _⟩
        have len := (of_sliceAt cut).2
        have wrong : setname ≠ withoutExt.take start := by
          rintro rfl
          exact right len.symm
        cases rest : sliceAt (volPos + 4) withoutExt with
        | none => simp
        | some slices =>
            rcases slices with ⟨read, volPart⟩
            simp only [Option.bind_eq_bind, Option.bind_some, Option.isSome_some, true_and,
              Option.some.injEq, Prod.mk.injEq]
            cases misread : volumeAndBlocks volPart <;>
              cases volumeAndBlocks (withoutExt.drop (start + 4)) <;> simp [wrong, misread]

theorem forall_extension_iff (isExt : IsExtension ext) {holds : List Char → Prop} :
    (∀ front other, withoutExt ++ ext = front ++ other → IsExtension other → holds front) ↔
      holds withoutExt := by
  constructor
  · exact fun all => all withoutExt ext rfl isExt
  · intro here front other eq otherIsExt
    rcases List.append_inj' eq (by rw [isExt.length, otherIsExt.length]) with ⟨rfl, -⟩
    exact here

/-- A PAR2 name is read for what it says exactly where the offset in the lower case fits it. -/
theorem readRight_parsePar2Filename_iff (lower : Lowercase) (filename : List Char) :
    ReadRight filename (parsePar2Filename lower filename) ↔ Aligned lower filename := by
  rw [readRight_iff]
  by_cases extended : ∃ withoutExt ext, filename = withoutExt ++ ext ∧ IsExtension ext
  · rcases extended with ⟨withoutExt, ext, rfl, isExt⟩
    rw [Aligned, forall_extension_iff isExt, parse_of_extension lower isExt,
      core_of_extension isExt]
    cases found : Core.rfind ".vol".toList (withoutExt.map Char.toLower) with
    | none => simp
    | some start =>
        simp only [Option.some.injEq, forall_eq', Option.bind_some]
        rw [← readAt_eq_some_iff found]
        rcases volumeAndBlocks (withoutExt.drop (start + 4)) with _ | ⟨vol, blocks⟩ <;> rfl
  · push Not at extended
    have vacuous : Aligned lower filename := by
      intro withoutExt ext eq isExt
      exact absurd isExt (extended withoutExt ext eq)
    simp only [vacuous, iff_true]
    rw [parse_of_other lower extended, core_of_other extended]

/-- Lower case where the only letter outside ASCII that has one is the capital sharp s, whose lower
case is a byte shorter. -/
def sharpS : Lowercase where
  pieces text := text.map fun char =>
    if char.toNat < 128 then [char.toLower] else if char = 'ẞ' then ['ß'] else [char]
  lowered text := by
    rw [List.forall₂_map_right_iff, List.forall₂_same]
    intro char _
    rw [Lowered]
    split
    · rfl
    next large =>
      have small : ∀ letter ∈ markers, letter.toNat < 128 :=
        List.all_iff_forall_prop.mp (by decide)
      split
      · exact ⟨by decide, List.all_iff_forall_prop.mp (by decide)⟩
      · refine ⟨by simp, ?_⟩
        rintro letter mem marked
        rw [List.mem_singleton] at mem
        subst mem
        exact large (small letter marked)

/-- The offset of `.vol` behind a capital sharp s is inside that letter. -/
theorem not_readRight_sharpS :
    ¬∀ lower filename, ReadRight filename (parsePar2Filename lower filename) := by
  intro right
  have safe := (right sharpS "ẞ.vol0+1.par2".toList).safe
  revert safe
  decide

end Rustnzb.Core.Par2Names
