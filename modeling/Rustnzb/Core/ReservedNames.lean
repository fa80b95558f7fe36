import Rustnzb.Core.JobNames

/-!
# Reserved names

A name that has been cut off is the name of a device only if it was the beginning of one that was
not.
-/

namespace Rustnzb.Core.JobNames

open Par2Names (utf8Len utf8Len_nil utf8Len_cons utf8Len_append)

variable {text : List Char}

theorem device_letters {upper : List Char} (device : isDevice upper) :
    upper ≠ [] ∧ upper.length ≤ 4 ∧ ∀ char ∈ upper, 49 ≤ char.toNat ∧ char.toNat ≤ 90 := by
  unfold isDevice at device
  simp only [Bool.or_eq_true, decide_eq_true_eq] at device
  rcases device with (((rfl | rfl) | rfl) | rfl) | port
  · exact ⟨by decide, by decide, List.all_iff_forall_prop.mp (by decide)⟩
  · exact ⟨by decide, by decide, List.all_iff_forall_prop.mp (by decide)⟩
  · exact ⟨by decide, by decide, List.all_iff_forall_prop.mp (by decide)⟩
  · exact ⟨by decide, by decide, List.all_iff_forall_prop.mp (by decide)⟩
  · split at port
    next first second third digit =>
      simp only [Bool.and_eq_true, Bool.or_eq_true, decide_eq_true_eq] at port
      rcases port with ⟨⟨named, low⟩, high⟩
      have digits : 49 ≤ digit.toNat ∧ digit.toNat ≤ 90 :=
        ⟨UInt32.le_iff_toNat_le.mp low, (UInt32.le_iff_toNat_le.mp high).trans (by decide)⟩
      refine ⟨List.cons_ne_nil _ _, Nat.le_refl 4, fun char mem => ?_⟩
      have known : ∀ char ∈ [first, second, third], 49 ≤ char.toNat ∧ char.toNat ≤ 90 := by
        rcases named with eq | eq
        · rw [eq]
          exact List.all_iff_forall_prop.mp (by decide)
        · rw [eq]
          exact List.all_iff_forall_prop.mp (by decide)
      rcases (@List.mem_append _ char [first, second, third] [digit]).mp mem with mem | mem
      · exact known char mem
      · rwa [List.mem_singleton.mp mem]
    · nomatch port

theorem toNat_of_toUpper {char : Char} (low : 49 ≤ char.toUpper.toNat)
    (high : char.toUpper.toNat ≤ 90) : 49 ≤ char.toNat ∧ char.toNat ≤ 122 := by
  by_cases lower : 'a'.val ≤ char.val ∧ char.val ≤ 'z'.val
  · have first : 97 ≤ char.val.toNat := UInt32.le_iff_toNat_le.mp lower.1
    have last : char.val.toNat ≤ 122 := UInt32.le_iff_toNat_le.mp lower.2
    exact ⟨(by decide : 49 ≤ 97).trans first, last⟩
  · have same : char.toUpper = char := dif_neg lower
    rw [same] at low high
    exact ⟨low, high.trans (by decide)⟩

theorem letters_of_device {word : List Char} (device : isDevice (word.map Char.toUpper)) :
    word ≠ [] ∧ word.length ≤ 4 ∧ ∀ char ∈ word, 49 ≤ char.toNat ∧ char.toNat ≤ 122 := by
  rcases device_letters device with ⟨nonempty, short, letters⟩
  rw [List.length_map] at short
  refine ⟨fun none => nonempty (by rw [none]; rfl), short, fun char mem => ?_⟩
  have upper := letters char.toUpper (List.mem_map_of_mem mem)
  exact toNat_of_toUpper upper.1 upper.2

theorem isTrimmed_of_letter {char : Char} (low : 49 ≤ char.toNat) (high : char.toNat ≤ 122) :
    isTrimmed char = false := by
  have dot : char ≠ '.' := by
    rintro rfl
    nomatch low
  simp [isTrimmed, isWhitespace, dot]
  omega

theorem utf8Size_of_letter {char : Char} (high : char.toNat ≤ 122) : char.utf8Size = 1 := by
  rw [Char.utf8Size_eq_one_iff]
  exact UInt32.le_iff_toNat_le.mpr (high.trans (by decide))

theorem unreserved_underscore (rest : List Char) : isWindowsReservedName ('_' :: rest) = false := by
  have stems : stem ('_' :: rest) = '_' :: (rest.takeWhile (· ≠ '.')).rdropWhile isWhitespace :=
    rdropWhile_cons (by decide) _
  rw [isWindowsReservedName, stems, ← Bool.not_eq_true]
  intro device
  have letter := (device_letters device).2.2 '_' (by simp [show Char.toUpper '_' = '_' by decide])
  exact absurd letter.2 (by decide)

theorem stem_append {dropped : List Char} (all : ∀ char ∈ dropped, isTrimmed char)
    (part : List Char) : stem (part ++ dropped) = stem part := by
  have blank : ∀ char ∈ dropped.takeWhile (· ≠ '.'), isWhitespace char := by
    intro char mem
    have notDot := List.mem_takeWhile_imp mem
    have trims := all char ((List.takeWhile_prefix _).subset mem)
    simp only [isTrimmed, Bool.or_eq_true, decide_eq_true_eq, ne_eq] at trims notDot
    exact trims.resolve_right notDot
  rw [stem, stem, List.takeWhile_append]
  split
  next whole =>
    have self : part.takeWhile (· ≠ '.') = part :=
      (List.takeWhile_prefix _).eq_of_length whole
    rw [rdropWhile_append blank, self]
  · rfl

theorem stem_append_of_dot {part : List Char} (dot : '.' ∈ part) (rest : List Char) :
    stem (part ++ rest) = stem part := by
  rw [stem, stem, List.takeWhile_append, if_neg]
  intro whole
  have self := (List.takeWhile_prefix _).eq_of_length whole
  rw [List.takeWhile_eq_self_iff] at self
  exact absurd (self '.' dot) (by decide)

theorem isWindowsReservedName_congr {first second : List Char} (same : stem first = stem second) :
    isWindowsReservedName first = isWindowsReservedName second := by
  rw [isWindowsReservedName, isWindowsReservedName, same]

theorem reserved_kept (trimmed : Trimmed text) (unreserved : isWindowsReservedName text = false) :
    isWindowsReservedName (kept text) = isWindowsReservedName (truncate maxJobNameBytes text) := by
  have eq := kept_eq trimmed
  rw [room, unreserved] at eq
  simp only [Bool.false_eq_true, if_false] at eq
  have parts := @List.rdropWhile_append_rtakeWhile _ isTrimmed (truncate maxJobNameBytes text)
  rw [← eq] at parts
  have dropped : ∀ char ∈ (truncate maxJobNameBytes text).rtakeWhile isTrimmed, isTrimmed char :=
    fun char mem => List.mem_rtakeWhile_imp mem
  apply isWindowsReservedName_congr
  conv_rhs => rw [← parts]
  rw [stem_append dropped]

theorem next_of_stem_ne {part rest : List Char} (differs : stem (part ++ rest) ≠ stem part) :
    ∃ blank next more, rest = blank ++ next :: more ∧ (∀ char ∈ blank, isWhitespace char) ∧
      isTrimmed next = false := by
  have all : ∀ char ∈ rest.takeWhile isWhitespace, isWhitespace char :=
    fun char mem => List.mem_takeWhile_imp mem
  have blank : ∀ char ∈ rest.takeWhile isWhitespace, isTrimmed char := by
    intro char mem
    rw [isTrimmed, all char mem]
    rfl
  have back := @List.takeWhile_append_dropWhile _ isWhitespace rest
  cases left : rest.dropWhile isWhitespace with
  | nil =>
      rw [left, List.append_nil] at back
      rw [back] at blank
      exact absurd (stem_append blank part) differs
  | cons next more =>
      rw [left] at back
      have notBlank : isWhitespace next = false := by
        have first := List.head?_dropWhile_not isWhitespace rest
        rw [left] at first
        exact first
      have notDot : next ≠ '.' := by
        rintro rfl
        have dropped : ∀ char ∈ rest.takeWhile isWhitespace ++ ['.'], isTrimmed char := by
          intro char mem
          rcases List.mem_append.mp mem with mem | mem
          · exact blank char mem
          · rw [List.mem_singleton.mp mem]
            decide
        have dot : '.' ∈ part ++ (rest.takeWhile isWhitespace ++ ['.']) := by simp
        apply differs
        rw [← back, ← List.singleton_append, ← List.append_assoc _ ['.'], ← List.append_assoc,
          stem_append_of_dot dot, stem_append dropped]
      exact ⟨_, next, more, back.symm, all, by simp [isTrimmed, notBlank, notDot]⟩

theorem exposes_of_reserved_kept (trimmed : Trimmed text)
    (unreserved : isWindowsReservedName text = false)
    (reserved : isWindowsReservedName (kept text) = true) : ExposesDevice text := by
  rw [reserved_kept trimmed unreserved] at reserved
  rcases truncate_isFront maxJobNameBytes text with ⟨rest, parts⟩
  have differs : stem (truncate maxJobNameBytes text ++ rest) ≠
      stem (truncate maxJobNameBytes text) := by
    intro same
    rw [parts] at same
    rw [isWindowsReservedName_congr same, reserved] at unreserved
    nomatch unreserved
  have noDot : '.' ∉ truncate maxJobNameBytes text :=
    fun dot => differs (stem_append_of_dot dot rest)
  have self : (truncate maxJobNameBytes text).takeWhile (· ≠ '.') =
      truncate maxJobNameBytes text := by
    rw [List.takeWhile_eq_self_iff]
    intro char mem
    rw [decide_eq_true_eq]
    rintro rfl
    exact noDot mem
  rcases next_of_stem_ne differs with ⟨blank, next, more, rfl, allBlank, stays⟩
  rw [isWindowsReservedName, stem, self] at reserved
  have front := @List.rdropWhile_append_rtakeWhile _ isWhitespace (truncate maxJobNameBytes text)
  refine ⟨_, (truncate maxJobNameBytes text).rtakeWhile isWhitespace ++ blank, next, more, ?_,
    reserved, ?_, stays, ?_⟩
  · rw [← List.append_assoc, front, List.append_assoc, parts]
  · intro char mem
    rcases List.mem_append.mp mem with mem | mem
    · exact List.mem_rtakeWhile_imp mem
    · exact allBlank char mem
  · rcases List.exists_cons_of_ne_nil (List.concat_ne_nil next blank) with ⟨first, others, eq⟩
    have full := @full_of_truncate maxJobNameBytes text (others ++ more) first (by
      rw [← List.cons_append, ← eq, List.append_assoc, List.singleton_append, parts])
    rw [← List.append_assoc, front, List.append_assoc, eq, utf8Len_append, utf8Len_cons]
    rw [utf8Len_append, utf8Len_cons, utf8Len_nil] at full
    omega

theorem stem_of_device {word : List Char} (device : isDevice (word.map Char.toUpper)) :
    stem word = word := by
  have letters := (letters_of_device device).2.2
  have stays : ∀ char ∈ word, isTrimmed char = false := fun char mem =>
    isTrimmed_of_letter (letters char mem).1 (letters char mem).2
  simp only [isTrimmed, Bool.or_eq_false_iff, decide_eq_false_iff_not] at stays
  have noDot : word.takeWhile (· ≠ '.') = word := by
    rw [List.takeWhile_eq_self_iff]
    intro char mem
    rw [decide_eq_true_eq]
    exact (stays char mem).2
  rw [stem, noDot, List.rdropWhile_eq_self_iff]
  intro nonempty
  rw [(stays _ (List.getLast_mem nonempty)).1]
  decide

theorem utf8Len_device {word : List Char} (device : isDevice (word.map Char.toUpper)) :
    utf8Len word ≤ 4 := by
  rcases letters_of_device device with ⟨-, short, letters⟩
  have one : word.map Char.utf8Size = word.map fun _ => 1 :=
    List.map_congr_left fun char mem => utf8Size_of_letter (letters char mem).2
  rw [utf8Len, one, List.map_const', List.sum_replicate, smul_eq_mul, mul_one]
  exact short

theorem truncate_append_left {limit : ℕ} {front : List Char} (fits : utf8Len front ≤ limit)
    (rest : List Char) :
    truncate limit (front ++ rest) = front ++ truncate (limit - utf8Len front) rest := by
  induction front generalizing limit with
  | nil => rfl
  | cons char front ih =>
      rw [utf8Len_cons] at fits ⊢
      rw [List.cons_append, truncate, if_pos (by omega), ih (by omega), Nat.sub_sub,
        List.cons_append]

theorem mem_of_mem_truncate {limit : ℕ} {front rest : List Char} {next : Char}
    (full : limit < utf8Len (front ++ [next])) :
    ∀ char ∈ truncate limit (front ++ next :: rest), char ∈ front := by
  induction front generalizing limit with
  | nil =>
      rw [List.nil_append, utf8Len_cons, utf8Len_nil] at full
      rw [List.nil_append, truncate, if_neg (by omega)]
      simp
  | cons first front ih =>
      rw [List.cons_append, utf8Len_cons] at full
      rw [List.cons_append, truncate]
      split
      · intro char mem
        rcases List.mem_cons.mp mem with rfl | mem
        · exact List.mem_cons_self
        · exact List.mem_cons_of_mem _ (ih (by omega) char mem)
      · simp

theorem reserved_kept_of_exposes (trimmed : Trimmed text) (exposes : ExposesDevice text) :
    isWindowsReservedName text = false ∧ isWindowsReservedName (kept text) = true := by
  rcases exposes with ⟨word, blank, next, rest, rfl, device, allBlank, stays, full⟩
  have short := utf8Len_device device
  have letters := (letters_of_device device).2.2
  have small := utf8Size_le_four next
  simp only [utf8Len_append, utf8Len_cons, utf8Len_nil, maxJobNameBytes] at full
  simp only [isTrimmed, Bool.or_eq_false_iff, decide_eq_false_iff_not] at stays
  have unreserved : isWindowsReservedName (word ++ blank ++ next :: rest) = false := by
    have noDot : ∀ char ∈ word ++ blank, decide (char ≠ '.') := by
      intro char mem
      rw [decide_eq_true_eq]
      rintro rfl
      rcases List.mem_append.mp mem with mem | mem
      · exact absurd (letters '.' mem).1 (by decide)
      · exact absurd (allBlank '.' mem) (by decide)
    have stems : stem (word ++ blank ++ next :: rest) =
        word ++ blank ++ next :: (rest.takeWhile (· ≠ '.')).rdropWhile isWhitespace := by
      rw [stem, List.takeWhile_append_of_pos noDot, List.takeWhile_cons_of_pos (by simp [stays.2]),
        rdropWhile_append_cons stays.1]
    cases blank with
    | nil =>
        rw [utf8Len_nil] at full
        omega
    | cons space blank =>
        rw [isWindowsReservedName, stems, ← Bool.not_eq_true]
        intro whole
        have letter := (letters_of_device whole).2.2 space (by simp)
        have untrimmed := isTrimmed_of_letter letter.1 letter.2
        rw [isTrimmed, allBlank space List.mem_cons_self] at untrimmed
        nomatch untrimmed
  refine ⟨unreserved, ?_⟩
  have full : maxJobNameBytes - utf8Len word < utf8Len (blank ++ [next]) := by
    rw [utf8Len_append, utf8Len_cons, utf8Len_nil, maxJobNameBytes]
    omega
  have cut : truncate maxJobNameBytes (word ++ (blank ++ next :: rest)) =
      word ++ truncate (maxJobNameBytes - utf8Len word) (blank ++ next :: rest) :=
    truncate_append_left (short.trans (by decide)) _
  have dropped : ∀ char ∈ truncate (maxJobNameBytes - utf8Len word) (blank ++ next :: rest),
      isTrimmed char := by
    intro char mem
    rw [isTrimmed, allBlank char (mem_of_mem_truncate full char mem)]
    rfl
  rw [reserved_kept trimmed unreserved, List.append_assoc, cut,
    isWindowsReservedName_congr (stem_append dropped word), isWindowsReservedName,
    stem_of_device device]
  exact device

theorem unreserved_iff (nfc : Nfc) (name : List Char) :
    isWindowsReservedName (sanitizeJobName nfc name) = false ↔ ¬ExposesDevice (shown nfc name) := by
  have trimmed := shown_trimmed nfc name
  have reserved_iff : ExposesDevice (shown nfc name) ↔
      isWindowsReservedName (shown nfc name) = false ∧
        isWindowsReservedName (kept (shown nfc name)) = true :=
    ⟨reserved_kept_of_exposes trimmed, fun both => exposes_of_reserved_kept trimmed both.1 both.2⟩
  rw [reserved_iff, sanitizeJobName_eq]
  by_cases none : shown nfc name = []
  · rw [if_pos none, none]
    decide
  · rw [if_neg none]
    cases reserved : isWindowsReservedName (shown nfc name) with
    | true => simp [unreserved_underscore]
    | false => simp

end Rustnzb.Core.JobNames
