import Rustnzb.Core.ReservedNames

/-!
# Normal form of job names

The name is normalized first. What is written for it stays in normal form but where an invisible
character that is taken out stood between characters that belong together.
-/

namespace Rustnzb.Core.JobNames

open Par2Names (utf8Len utf8Len_nil utf8Len_cons utf8Len_append)

/-! ## Pieces of the replaced name -/

/-- What a character becomes behind the text that is replaced already. -/
def written (replaced : List Char) (char : Char) (next : Option Char) : List Char :=
  if char = ':' then
    if next.any isWhitespace && !replaced.getLast?.any isWhitespace then [' ', '-'] else ['-']
  else if isIllegal char || isControl char then ['_']
  else visible [char]

theorem replaceChars_cons (replaced rest : List Char) (char : Char) :
    replaceChars replaced (char :: rest) =
      replaceChars (replaced ++ written replaced char rest.head?) rest := by
  rw [replaceChars, written]
  split
  · rfl
  · split
    · rfl
    · split
      next invisible =>
        rw [visible, List.filter_cons_of_neg (by simp [invisible]), List.filter_nil,
          List.append_nil]
      next isVisible =>
        rw [visible, List.filter_cons_of_pos (by simp [isVisible]), List.filter_nil]

/-- The replaced text, one piece for each character. -/
def pieces (replaced : List Char) : List Char → List (List Char)
  | [] => []
  | char :: rest =>
      written replaced char rest.head? ::
        pieces (replaced ++ written replaced char rest.head?) rest

theorem replaceChars_eq (replaced text : List Char) :
    replaceChars replaced text = replaced ++ (pieces replaced text).flatten := by
  induction text generalizing replaced with
  | nil => rw [replaceChars, pieces, List.flatten_nil, List.append_nil]
  | cons char rest ih =>
      rw [replaceChars_cons, ih, pieces, List.flatten_cons, List.append_assoc]

theorem length_pieces (replaced text : List Char) :
    (pieces replaced text).length = text.length := by
  induction text generalizing replaced with
  | nil => rfl
  | cons char rest ih => rw [pieces, List.length_cons, List.length_cons, ih]

theorem pieces_append (replaced : List Char) {front : List Char}
    (noColon : front.getLast? ≠ some ':') (rest : List Char) :
    ∃ more, pieces replaced (front ++ rest) = pieces replaced front ++ more := by
  induction front generalizing replaced with
  | nil => exact ⟨_, rfl⟩
  | cons char front ih =>
      have same : written replaced char (front ++ rest).head? =
          written replaced char front.head? := by
        cases front with
        | nil =>
            have notColon : char ≠ ':' := fun colon => noColon (congrArg some colon)
            rw [written, written, if_neg notColon, if_neg notColon]
        | cons next front => rfl
      have later : front.getLast? ≠ some ':' := by
        intro colon
        apply noColon
        rw [List.getLast?_cons, colon]
        rfl
      rcases ih (replaced ++ written replaced char front.head?) later with ⟨more, eq⟩
      refine ⟨more, ?_⟩
      rw [List.cons_append, pieces, pieces, same, eq, List.cons_append]

/-- What a character becomes wherever it stands. -/
def Writes (char : Char) (piece : List Char) : Prop :=
  (IsOrdinary char ∧ piece = visible [char]) ∨
    (¬IsOrdinary char ∧ piece ∈ [['-'], [' ', '-'], ['_']])

theorem writes_written (replaced : List Char) (char : Char) (next : Option Char) :
    Writes char (written replaced char next) := by
  rw [written]
  split
  next colon =>
    refine .inr ⟨fun ordinary => ordinary.1 colon, ?_⟩
    split
    · decide
    · decide
  next notColon =>
    split
    next illegal =>
      refine .inr ⟨fun ordinary => ?_, by decide⟩
      rw [ordinary.2.1, ordinary.2.2] at illegal
      nomatch illegal
    next legal =>
      rw [Bool.or_eq_true, not_or, Bool.not_eq_true, Bool.not_eq_true] at legal
      exact .inl ⟨⟨notColon, legal.1, legal.2⟩, rfl⟩

theorem forall₂_pieces (replaced text : List Char) :
    List.Forall₂ Writes text (pieces replaced text) := by
  induction text generalizing replaced with
  | nil => exact .nil
  | cons char rest ih => exact .cons (writes_written _ _ _) (ih _)

theorem flatten_of_ordinary {text : List Char} {written : List (List Char)}
    (writes : List.Forall₂ Writes text written) (ordinary : ∀ char ∈ text, IsOrdinary char) :
    written.flatten = visible text := by
  induction writes with
  | nil => rfl
  | @cons char piece rest others head tail ih =>
      rcases head with ⟨-, rfl⟩ | ⟨notOrdinary, -⟩
      · rw [List.flatten_cons, ih fun other mem => ordinary other (List.mem_cons_of_mem _ mem),
          visible, visible, visible, ← List.filter_append, List.singleton_append]
      · exact absurd (ordinary char List.mem_cons_self) notOrdinary

theorem writes_last {char last : Char} {front more : List Char}
    (writes : Writes char (front ++ last :: more)) (stays : isTrimmed last = false) :
    more = [] := by
  rcases writes with ⟨-, eq⟩ | ⟨-, mem⟩
  · have short : (front ++ last :: more).length ≤ 1 := by
      rw [eq]
      exact List.length_filter_le _ [char]
    rw [List.length_append, List.length_cons] at short
    exact List.eq_nil_of_length_eq_zero (by omega)
  · cases front with
    | nil =>
        simp only [List.nil_append, List.mem_cons, List.cons.injEq, List.not_mem_nil, or_false]
          at mem
        rcases mem with ⟨-, none⟩ | ⟨rfl, -⟩ | ⟨-, none⟩
        · exact none
        · nomatch stays
        · exact none
    | cons first front =>
        simp only [List.cons_append, List.mem_cons, List.cons.injEq, List.append_eq_nil_iff,
          reduceCtorEq, and_false, List.not_mem_nil, or_false, false_or] at mem
        rcases List.append_eq_singleton_iff.mp mem.2 with ⟨-, eq⟩ | ⟨-, none⟩
        · exact (List.cons.inj eq).2
        · nomatch none

theorem split_at_last {text front more : List Char} {last : Char} {written : List (List Char)}
    (writes : List.Forall₂ Writes text written) (stays : isTrimmed last = false)
    (eq : written.flatten = front ++ last :: more) :
    ∃ first second, written = first ++ second ∧ first.flatten = front ++ [last] := by
  induction writes generalizing front with
  | nil => simp at eq
  | @cons char piece rest others head tail ih =>
      rw [List.flatten_cons, List.append_eq_append_iff] at eq
      rcases eq with ⟨later, rfl, eq⟩ | ⟨within, rfl, eq⟩
      · rcases ih eq with ⟨first, second, rfl, flat⟩
        exact ⟨piece :: first, second, rfl, by rw [List.flatten_cons, flat, List.append_assoc]⟩
      · cases within with
        | nil =>
            rcases @ih [] eq.symm with ⟨first, second, rfl, flat⟩
            exact ⟨(front ++ []) :: first, second, rfl, by
              rw [List.flatten_cons, flat, List.append_nil, List.nil_append]⟩
        | cons first within =>
            rw [List.cons_append, List.cons.injEq] at eq
            rcases eq with ⟨rfl, -⟩
            rcases writes_last head stays with rfl
            exact ⟨[front ++ [last]], others, rfl, List.flatten_singleton⟩

/-! ## Normal form of the replaced name -/

section Normal

variable {nfc : Nfc} {text edge : List Char}

theorem normal_nil (nfc : Nfc) : nfc.map [] = [] := nfc.map_ascii [] (by simp)

theorem normal_cons {char : Char} (inert : char = '-' ∨ char = '_' ∨ isTrimmed char)
    (stable : nfc.map [char] = [char]) (normal : nfc.map text = text) :
    nfc.map (char :: text) = char :: text := by
  have same := nfc.map_inert [] text char inert stable
  rwa [List.nil_append, normal_nil, List.nil_append, normal] at same

theorem normal_edge_append (trims : ∀ char ∈ edge, isTrimmed char)
    (stable : ∀ char ∈ edge, nfc.map [char] = [char]) (normal : nfc.map text = text) :
    nfc.map (edge ++ text) = edge ++ text := by
  induction edge with
  | nil => exact normal
  | cons char edge ih =>
      apply normal_cons (.inr (.inr (trims char List.mem_cons_self)))
        (stable char List.mem_cons_self)
      exact ih (fun other mem => trims other (List.mem_cons_of_mem _ mem))
        fun other mem => stable other (List.mem_cons_of_mem _ mem)

theorem normal_append_edge (trims : ∀ char ∈ edge, isTrimmed char)
    (stable : ∀ char ∈ edge, nfc.map [char] = [char]) (normal : nfc.map text = text) :
    nfc.map (text ++ edge) = text ++ edge := by
  cases edge with
  | nil => rwa [List.append_nil]
  | cons char edge =>
      have rest : nfc.map edge = edge := by
        have whole := @normal_edge_append nfc [] edge
          (fun other mem => trims other (List.mem_cons_of_mem _ mem))
          (fun other mem => stable other (List.mem_cons_of_mem _ mem)) (normal_nil nfc)
        rwa [List.append_nil] at whole
      rw [nfc.map_inert text edge char (.inr (.inr (trims char List.mem_cons_self)))
        (stable char List.mem_cons_self), normal, rest]

theorem stable_of_writes {written : List (List Char)} (writes : List.Forall₂ Writes text written)
    (normal : nfc.map text = text) : ∀ char ∈ written.flatten, nfc.map [char] = [char] := by
  have ofText : ∀ char ∈ text, nfc.map [char] = [char] := by
    intro char mem
    rcases List.append_of_mem mem with ⟨before, after, rfl⟩
    exact nfc.map_part _ _ ⟨before, after, by simp⟩ normal
  clear normal
  induction writes with
  | nil => simp
  | @cons char piece rest others head tail ih =>
      intro other mem
      rw [List.flatten_cons, List.mem_append] at mem
      rcases mem with mem | mem
      · rcases head with ⟨-, rfl⟩ | ⟨-, isInert⟩
        · rw [List.mem_singleton.mp (List.mem_of_mem_filter mem)]
          exact ofText char List.mem_cons_self
        · apply nfc.map_ascii
          have ascii : ∀ char ∈ [['-'], [' ', '-'], ['_']].flatten, char.toNat < 128 :=
            List.all_iff_forall_prop.mp (by decide)
          intro same isSame
          rw [List.mem_singleton.mp isSame]
          exact ascii other (List.mem_flatten.mpr ⟨piece, isInert, mem⟩)
      · exact ih (fun char mem => ofText char (List.mem_cons_of_mem _ mem)) other mem

theorem normal_of_writes {run : List Char} {written : List (List Char)}
    (writes : List.Forall₂ Writes text written) (ordinary : ∀ char ∈ run, IsOrdinary char)
    (normal : ∀ before part after, run ++ text = before ++ part ++ after →
      (∀ char ∈ part, IsOrdinary char) → nfc.map (visible part) = visible part) :
    nfc.map (visible run ++ written.flatten) = visible run ++ written.flatten := by
  induction writes generalizing run with
  | nil =>
      rw [List.flatten_nil, List.append_nil]
      exact normal [] run [] rfl ordinary
  | @cons char piece rest others head tail ih =>
      rw [List.flatten_cons, ← List.append_assoc]
      rcases head with ⟨isOrdinary, rfl⟩ | ⟨-, isInert⟩
      · rw [visible, visible, ← List.filter_append, ← visible]
        apply ih
        · intro other mem
          rcases List.mem_append.mp mem with mem | mem
          · exact ordinary other mem
          · rwa [List.mem_singleton.mp mem]
        · intro before part after eq
          rw [List.append_assoc, List.singleton_append] at eq
          exact normal before part after eq
      · -- An inert character ends the row.
        have first : nfc.map (visible run) = visible run :=
          normal [] run (char :: rest) rfl ordinary
        have second : nfc.map others.flatten = others.flatten := by
          apply @ih [] (by simp)
          intro before part after eq
          apply normal (run ++ char :: before) part after
          rw [List.nil_append] at eq
          rw [eq]
          simp
        have small : ∀ char ∈ [' ', '-', '_'], char.toNat < 128 :=
          List.all_iff_forall_prop.mp (by decide)
        have ascii : ∀ char ∈ [' ', '-', '_'], nfc.map [char] = [char] := by
          intro char mem
          apply nfc.map_ascii
          intro same isSame
          rw [List.mem_singleton.mp isSame]
          exact small char mem
        rw [List.append_assoc]
        simp only [List.mem_cons, List.not_mem_nil, or_false] at isInert
        rcases isInert with rfl | rfl | rfl
        · rw [List.singleton_append, nfc.map_inert _ _ '-' (.inl rfl) (ascii '-' (by decide)),
            first, second]
        · have hyphen := normal_cons (.inl rfl) (ascii '-' (by decide)) second
          rw [List.cons_append, List.singleton_append,
            nfc.map_inert _ _ ' ' (by decide) (ascii ' ' (by decide)), first, hyphen]
        · rw [List.singleton_append,
            nfc.map_inert _ _ '_' (.inr (.inl rfl)) (ascii '_' (by decide)), first, second]

end Normal

/-! ## What is kept -/

variable {nfc : Nfc}

theorem normal_sanitizeJobName_iff (nfc : Nfc) (name : List Char) :
    nfc.map (sanitizeJobName nfc name) = sanitizeJobName nfc name ↔
      nfc.map (kept (shown nfc name)) = kept (shown nfc name) := by
  rw [sanitizeJobName_eq]
  split
  next none =>
    rw [none]
    have unnamed : nfc.map unnamedJob = unnamedJob :=
      nfc.map_ascii unnamedJob (List.all_iff_forall_prop.mp (by decide))
    exact iff_of_true unnamed (normal_nil nfc)
  · split
    · have underscore := nfc.map_inert [] (kept (shown nfc name)) '_' (by decide)
        (nfc.map_ascii ['_'] (List.all_iff_forall_prop.mp (by decide)))
      rw [List.nil_append, normal_nil, List.nil_append] at underscore
      rw [underscore, List.cons.injEq, and_iff_right rfl]
    · rfl


theorem rdropWhile_front_kept {name front : List Char}
    (isPrefix : front <+: (replaceChars [] (nfc.map name)).dropWhile isTrimmed)
    (fits : utf8Len front ≤ room (shown nfc name)) :
    front.rdropWhile isTrimmed <+: kept (shown nfc name) := by
  have begins := rdropWhile_front isPrefix
  have small : utf8Len (front.rdropWhile isTrimmed) ≤ room (shown nfc name) :=
    (utf8Len_le_of_part (List.rdropWhile_prefix isTrimmed _).isInfix).trans fits
  have cut : front.rdropWhile isTrimmed <+: truncate (room (shown nfc name)) (shown nfc name) := by
    rcases begins with ⟨rest, eq⟩
    rw [← trimName, ← shown] at eq
    rw [← eq, truncate_append_left (by rwa [eq])]
    exact List.prefix_append _ _
  have again := rdropWhile_front cut
  rwa [List.rdropWhile_idempotent, ← kept_eq (shown_trimmed nfc name)] at again

theorem replaceChars_front {before part after : List Char} (nonempty : part ≠ [])
    (ordinary : ∀ char ∈ part, IsOrdinary char) :
    ∃ more, pieces [] (before ++ part ++ after) = pieces [] (before ++ part) ++ more := by
  apply pieces_append
  rw [List.getLast?_append_of_ne_nil _ nonempty]
  intro colon
  exact (ordinary ':' (List.mem_of_getLast? colon)).1 rfl

theorem visible_suffix {before part : List Char} (ordinary : ∀ char ∈ part, IsOrdinary char) :
    visible part <:+ replaceChars [] (before ++ part) := by
  have writes := List.forall₂_drop before.length (forall₂_pieces [] (before ++ part))
  rw [List.drop_left] at writes
  rw [replaceChars_eq, List.nil_append, ← flatten_of_ordinary writes ordinary]
  exact (List.drop_suffix _ _).flatten

theorem normal_of_core {text : List Char} (normal : nfc.map text = text)
    (core : nfc.map (((replaceChars [] text).dropWhile isTrimmed).rdropWhile isTrimmed) =
      ((replaceChars [] text).dropWhile isTrimmed).rdropWhile isTrimmed) :
    nfc.map (replaceChars [] text) = replaceChars [] text := by
  have stable := stable_of_writes (forall₂_pieces [] text) normal
  rw [← List.nil_append (pieces [] text).flatten, ← replaceChars_eq] at stable
  have lead := @List.takeWhile_append_dropWhile _ isTrimmed (replaceChars [] text)
  have trail := @List.rdropWhile_append_rtakeWhile _ isTrimmed
    ((replaceChars [] text).dropWhile isTrimmed)
  have inner : nfc.map ((replaceChars [] text).dropWhile isTrimmed) =
      (replaceChars [] text).dropWhile isTrimmed := by
    rw [← trail]
    apply normal_append_edge (fun char mem => List.mem_rtakeWhile_imp mem) _ core
    intro char mem
    exact stable char ((List.dropWhile_suffix _).subset ((List.rtakeWhile_suffix _ _).subset mem))
  rw [← lead]
  apply normal_edge_append (fun char mem => List.mem_takeWhile_imp mem) _ inner
  exact fun char mem => stable char ((List.takeWhile_prefix _).subset mem)

theorem not_separates {name : List Char}
    (normal : nfc.map (kept (shown nfc name)) = kept (shown nfc name)) : ¬Separates nfc name := by
  rintro ⟨before, part, after, eq, ordinary, abnormal, fits⟩
  apply abnormal
  by_cases nonempty : part = []
  · rw [nonempty]
    exact normal_nil nfc
  · have normalFront : nfc.map (before ++ part) = before ++ part := by
      apply nfc.map_part _ _ _ (nfc.map_map name)
      rw [eq]
      exact (List.prefix_append _ after).isInfix
    have isPrefix : replaceChars [] (before ++ part) <+: replaceChars [] (nfc.map name) := by
      rcases @replaceChars_front before part after nonempty ordinary with ⟨more, split⟩
      rw [eq, replaceChars_eq, replaceChars_eq, split, List.flatten_append, List.nil_append,
        List.nil_append]
      exact List.prefix_append _ _
    have core := nfc.map_part _ _
      (rdropWhile_front_kept (dropWhile_front isPrefix) fits).isInfix normal
    exact nfc.map_part _ _ (visible_suffix ordinary).isInfix (normal_of_core normalFront core)

theorem exists_front_of_kept {name : List Char} (nonempty : kept (shown nfc name) ≠ []) :
    ∃ lead front rest written others, nfc.map name = front ++ rest ∧
      pieces [] (nfc.map name) = written ++ others ∧ List.Forall₂ Writes front written ∧
      (∀ char ∈ lead, isTrimmed char) ∧ written.flatten = lead ++ kept (shown nfc name) := by
  have ends := trimmed_trimName (truncate (room (shown nfc name)) (shown nfc name))
  rw [← kept] at ends
  have begins : kept (shown nfc name) <+:
      (replaceChars [] (nfc.map name)).dropWhile isTrimmed := by
    rw [kept_eq (shown_trimmed nfc name)]
    exact (List.rdropWhile_prefix _ _).trans
      ((truncate_isFront _ _).trans (List.rdropWhile_prefix _ _))
  rcases begins with ⟨more, eq⟩
  rcases (List.eq_nil_or_concat' (kept (shown nfc name))).resolve_left nonempty with
    ⟨front, last, isKept⟩
  have stays : isTrimmed last = false := by
    apply ends.ends
    rw [isKept, List.getLast?_concat]
    rfl
  have lead := @List.takeWhile_append_dropWhile _ isTrimmed (replaceChars [] (nfc.map name))
  have flat : (pieces [] (nfc.map name)).flatten =
      ((replaceChars [] (nfc.map name)).takeWhile isTrimmed ++ front) ++ last :: more := by
    rw [← List.nil_append (pieces [] (nfc.map name)).flatten, ← replaceChars_eq]
    conv_lhs => rw [← lead, ← eq, isKept]
    simp
  rcases split_at_last (forall₂_pieces [] (nfc.map name)) stays flat with
    ⟨first, second, split, firstFlat⟩
  rw [List.append_assoc, ← isKept] at firstFlat
  have writes := forall₂_pieces [] (nfc.map name)
  rw [split] at writes
  exact ⟨_, _, _, first, second, (List.take_append_drop first.length _).symm, split,
    List.forall₂_take_append _ _ _ writes, fun char mem => List.mem_takeWhile_imp mem, firstFlat⟩

theorem normal_kept {name : List Char} (apart : ¬Separates nfc name) :
    nfc.map (kept (shown nfc name)) = kept (shown nfc name) := by
  by_cases nonempty : kept (shown nfc name) = []
  · rw [nonempty]
    exact normal_nil nfc
  · rcases exists_front_of_kept nonempty with
      ⟨lead, front, rest, written, others, eq, split, writes, trims, flat⟩
    have normal : nfc.map written.flatten = written.flatten := by
      apply @normal_of_writes nfc front [] written writes (by simp)
      intro before part after parts ordinary
      by_contra abnormal
      rw [List.nil_append] at parts
      rw [parts, List.append_assoc] at eq
      refine apart ⟨before, part, after ++ rest, eq, ordinary, abnormal, ?_⟩
      have filled : part ≠ [] := by
        rintro rfl
        exact abnormal (normal_nil nfc)
      -- As many pieces as the characters up to the end of the part.
      have isPrefix : pieces [] (before ++ part) <+: written := by
        rcases @replaceChars_front before part (after ++ rest) filled ordinary with ⟨more, same⟩
        apply @List.prefix_of_prefix_length_le _ _ _ (pieces [] (nfc.map name))
        · exact ⟨more, by rw [eq, same]⟩
        · exact ⟨others, split.symm⟩
        · rw [length_pieces, ← writes.length_eq, parts,
            @List.length_append _ (before ++ part) after]
          exact Nat.le_add_right _ _
      have within : (replaceChars [] (before ++ part)).dropWhile isTrimmed <+:
          (kept (shown nfc name)).dropWhile isTrimmed := by
        rw [← @List.dropWhile_append_of_pos _ _ lead (kept (shown nfc name)) trims, ← flat,
          replaceChars_eq, List.nil_append]
        exact dropWhile_front isPrefix.flatten
      exact (utf8Len_le_of_part (within.isInfix.trans (List.dropWhile_suffix _).isInfix)).trans
        (utf8Len_kept _)
    rw [flat] at normal
    exact nfc.map_part _ _ (List.suffix_append lead _).isInfix normal

/-! ## Exactly when a sanitized name is safe and stays as it is -/

theorem sanitized_iff (nfc : Nfc) (name : List Char) :
    Sanitized nfc name ↔ ¬ExposesDevice (shown nfc name) ∧ ¬Separates nfc name := by
  have acceptable := acceptable_sanitizeJobName nfc name
  constructor
  · intro sanitized
    refine ⟨(unreserved_iff nfc name).mp sanitized.unreserved, not_separates ?_⟩
    -- The second pass takes nothing out, so that its result is normal.
    have apart : ¬Separates nfc (sanitizeJobName nfc name) := by
      rintro ⟨before, part, after, eq, -, abnormal, -⟩
      have isInfix : part <:+: nfc.map (sanitizeJobName nfc name) := ⟨before, after, eq.symm⟩
      have all : visible part = part := by
        rw [visible, List.filter_eq_self]
        intro char mem
        rw [Bool.not_eq_true', ← Bool.not_eq_true]
        intro invisible
        have clean :=
          acceptable.clean char (nfc.map_invisible _ char (isInfix.subset mem) invisible)
        rw [clean.2.2.2] at invisible
        nomatch invisible
      rw [all] at abnormal
      exact abnormal (nfc.map_part _ _ isInfix (nfc.map_map _))
    have normal := (normal_sanitizeJobName_iff nfc _).mpr (normal_kept apart)
    rw [sanitized.idempotent] at normal
    exact (normal_sanitizeJobName_iff nfc name).mp normal
  · rintro ⟨unexposed, apart⟩
    have unreserved := (unreserved_iff nfc name).mpr unexposed
    have normal := (normal_sanitizeJobName_iff nfc name).mpr (normal_kept apart)
    exact {
      nonempty := acceptable.nonempty
      short := acceptable.short
      component := acceptable.component
      joins := acceptable.joins
      begins := acceptable.trimmed.begins
      ends := acceptable.trimmed.ends
      unreserved := unreserved
      idempotent := acceptable.fixed normal unreserved }

/-- Texts that are in normal form all the time. -/
def plain : Nfc where
  map := id
  map_map _ := rfl
  map_part _ _ _ _ := rfl
  map_inert _ _ _ _ _ := rfl
  map_ascii _ _ := rfl
  map_invisible _ _ mem _ := mem

/-- A device name as soon as its length is cut. -/
def longDevice : List Char := "CON".toList ++ List.replicate 237 ' ' ++ ['x']

theorem not_sanitized_longDevice : ¬Sanitized plain longDevice := by
  intro sanitized
  have short : sanitizeJobName plain longDevice = "CON".toList := by decide +kernel
  have unreserved := sanitized.unreserved
  rw [short] at unreserved
  exact absurd unreserved (by decide)

end Rustnzb.Core.JobNames
