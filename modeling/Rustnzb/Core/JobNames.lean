import Rustnzb.Core.Par2Names
import Rustnzb.Core.SafePaths

/-!
# Job names

`sanitize_job_name` makes a directory name of what a job is called. The normal form NFC is a
parameter with what Unicode says of it.
-/

namespace Rustnzb.Core.JobNames

open Par2Names (utf8Len utf8Len_nil utf8Len_cons utf8Len_append)

def isTrimmed (char : Char) : Bool := isWhitespace char || char = '.'

/-- The normal form NFC. It keeps to parts of a text, hyphens, underscores, dots and white space
take no part in it, and it brings no invisible character about. -/
structure Nfc where
  map : List Char → List Char
  map_map : ∀ text, map (map text) = map text
  map_part : ∀ part text, part <:+: text → map text = text → map part = part
  map_inert : ∀ before after char, char = '-' ∨ char = '_' ∨ isTrimmed char →
    map [char] = [char] → map (before ++ char :: after) = map before ++ char :: map after
  map_ascii : ∀ text, (∀ char ∈ text, char.toNat < 128) → map text = text
  map_invisible : ∀ text, ∀ char ∈ map text, isBidiOrInvisibleControl char → char ∈ text

def maxJobNameBytes : ℕ := 240

def unnamedJob : List Char := "unnamed".toList

def isIllegal (char : Char) : Bool := char ∈ ['<', '>', '"', '/', '\\', '|', '?', '*']

def replaceChars : List Char → List Char → List Char
  | replaced, [] => replaced
  | replaced, char :: rest =>
      if char = ':' then
        let spaced := rest.head?.any isWhitespace && !replaced.getLast?.any isWhitespace
        replaceChars (replaced ++ if spaced then [' ', '-'] else ['-']) rest
      else if isIllegal char || isControl char then replaceChars (replaced ++ ['_']) rest
      else if isBidiOrInvisibleControl char then replaceChars replaced rest
      else replaceChars (replaced ++ [char]) rest

def trimName (name : List Char) : List Char := (name.dropWhile isTrimmed).rdropWhile isTrimmed

def isDevice (upper : List Char) : Bool :=
  upper = "CON".toList || upper = "PRN".toList || upper = "AUX".toList || upper = "NUL".toList ||
    match upper with
    | [first, second, third, digit] =>
        ([first, second, third] = "COM".toList || [first, second, third] = "LPT".toList) &&
          '1' ≤ digit && digit ≤ '9'
    | _ => false

/-- What Windows takes a name for: neither the extension nor spaces before it count. -/
def stem (name : List Char) : List Char := (name.takeWhile (· ≠ '.')).rdropWhile isWhitespace

def isWindowsReservedName (name : List Char) : Bool := isDevice ((stem name).map Char.toUpper)

/-- `truncate` at the last character boundary up to a number of bytes. -/
def truncate : ℕ → List Char → List Char
  | _, [] => []
  | limit, char :: rest =>
      if char.utf8Size ≤ limit then char :: truncate (limit - char.utf8Size) rest else []

def sanitizeJobName (nfc : Nfc) (name : List Char) : List Char :=
  let out := trimName (replaceChars [] (nfc.map name))
  if out = [] then unnamedJob
  else
    let out := if isWindowsReservedName out then '_' :: out else out
    if maxJobNameBytes < utf8Len out then trimName (truncate maxJobNameBytes out) else out

/-! ## What is wanted -/

/-- A sanitized name is a safe directory name, and sanitizing changes it no more. -/
structure Sanitized (nfc : Nfc) (name : List Char) : Prop where
  nonempty : sanitizeJobName nfc name ≠ []
  short : utf8Len (sanitizeJobName nfc name) ≤ maxJobNameBytes
  component : safeComponent (sanitizeJobName nfc name) = true
  joins : safeJoin (sanitizeJobName nfc name) = some [sanitizeJobName nfc name]
  begins : ∀ first ∈ (sanitizeJobName nfc name).head?, isTrimmed first = false
  ends : ∀ last ∈ (sanitizeJobName nfc name).getLast?, isTrimmed last = false
  unreserved : isWindowsReservedName (sanitizeJobName nfc name) = false
  idempotent : sanitizeJobName nfc (sanitizeJobName nfc name) = sanitizeJobName nfc name

def shown (nfc : Nfc) (name : List Char) : List Char := trimName (replaceChars [] (nfc.map name))

/-- The bytes that there is room for, behind an underscore if the name is reserved. -/
def room (text : List Char) : ℕ :=
  if isWindowsReservedName text then maxJobNameBytes - 1 else maxJobNameBytes

def kept (text : List Char) : List Char := trimName (truncate (room text) text)

/-- A device, then white space up to where the name is cut off, and more. -/
def ExposesDevice (text : List Char) : Prop :=
  ∃ word blank next rest, text = word ++ blank ++ next :: rest ∧
    isDevice (word.map Char.toUpper) ∧ (∀ char ∈ blank, isWhitespace char) ∧
    isTrimmed next = false ∧ maxJobNameBytes < utf8Len (word ++ blank ++ [next])

def IsOrdinary (char : Char) : Prop :=
  char ≠ ':' ∧ isIllegal char = false ∧ isControl char = false

def visible (text : List Char) : List Char := text.filter fun char => !isBidiOrInvisibleControl char

/-- Invisible characters keep apart what is not in normal form without them, and all of it is at
the beginning of the name that there is room for. -/
def Separates (nfc : Nfc) (name : List Char) : Prop :=
  ∃ before part after, nfc.map name = before ++ part ++ after ∧
    (∀ char ∈ part, IsOrdinary char) ∧ nfc.map (visible part) ≠ visible part ∧
    utf8Len ((replaceChars [] (before ++ part)).dropWhile isTrimmed) ≤ room (shown nfc name)

/-! ## Trimming and truncating -/

structure Trimmed (text : List Char) : Prop where
  begins : ∀ first ∈ text.head?, isTrimmed first = false
  ends : ∀ last ∈ text.getLast?, isTrimmed last = false

theorem trimName_isPart (text : List Char) : trimName text <:+: text :=
  (List.rdropWhile_prefix isTrimmed _).isInfix.trans (List.dropWhile_suffix isTrimmed).isInfix

theorem dropWhile_of_begins {text : List Char}
    (begins : ∀ first ∈ text.head?, isTrimmed first = false) : text.dropWhile isTrimmed = text := by
  cases text with
  | nil => rfl
  | cons first rest =>
      rw [List.dropWhile_cons, begins first rfl]
      rfl

theorem head?_of_front {text part : List Char} (isPrefix : part <+: text)
    (begins : ∀ first ∈ text.head?, isTrimmed first = false) :
    ∀ first ∈ part.head?, isTrimmed first = false := by
  rcases isPrefix with ⟨rest, rfl⟩
  intro first isFirst
  apply begins
  rw [List.head?_append, isFirst]
  rfl

theorem trimName_of_begins {text : List Char}
    (begins : ∀ first ∈ text.head?, isTrimmed first = false) :
    trimName text = text.rdropWhile isTrimmed := by
  rw [trimName, dropWhile_of_begins begins]

theorem ends_rdropWhile (text : List Char) :
    ∀ last ∈ (text.rdropWhile isTrimmed).getLast?, isTrimmed last = false := by
  intro last isLast
  rcases List.getLast?_eq_some_iff.mp isLast with ⟨front, eq⟩
  have nonempty : text.rdropWhile isTrimmed ≠ [] := by
    rw [eq]
    exact List.append_ne_nil_of_right_ne_nil _ (List.cons_ne_nil _ _)
  have kept := List.rdropWhile_last_not isTrimmed text nonempty
  have same : (text.rdropWhile isTrimmed).getLast nonempty = last := by
    rw [List.getLast?_eq_getLast_of_ne_nil nonempty] at isLast
    exact Option.some_inj.mp isLast
  rw [same] at kept
  exact Bool.not_eq_true _ ▸ kept

theorem trimmed_trimName (text : List Char) : Trimmed (trimName text) where
  begins := by
    apply head?_of_front (List.rdropWhile_prefix isTrimmed _)
    intro first isFirst
    have kept := List.head?_dropWhile_not isTrimmed text
    rw [isFirst] at kept
    exact kept
  ends := ends_rdropWhile _

theorem trimName_of_trimmed {text : List Char} (trimmed : Trimmed text) : trimName text = text := by
  rw [trimName_of_begins trimmed.begins, List.rdropWhile_eq_self_iff]
  intro nonempty
  rw [Bool.not_eq_true]
  exact trimmed.ends _ (List.getLast?_eq_getLast_of_ne_nil nonempty)

theorem truncate_isFront (limit : ℕ) (text : List Char) : truncate limit text <+: text := by
  induction text generalizing limit with
  | nil => exact List.prefix_rfl
  | cons char rest ih =>
      rw [truncate]
      split
      · exact List.cons_prefix_cons.mpr ⟨rfl, ih _⟩
      · exact List.nil_prefix

theorem utf8Len_truncate (limit : ℕ) (text : List Char) :
    utf8Len (truncate limit text) ≤ limit := by
  induction text generalizing limit with
  | nil => exact Nat.zero_le limit
  | cons char rest ih =>
      rw [truncate]
      split
      next fits =>
        have shorter := ih (limit - char.utf8Size)
        rw [utf8Len_cons]
        omega
      · exact Nat.zero_le limit

theorem truncate_of_short {limit : ℕ} {text : List Char} (short : utf8Len text ≤ limit) :
    truncate limit text = text := by
  induction text generalizing limit with
  | nil => rfl
  | cons char rest ih =>
      rw [utf8Len_cons] at short
      rw [truncate, if_pos (by omega), ih (by omega)]

theorem full_of_truncate {limit : ℕ} {text rest : List Char} {next : Char}
    (cut : text = truncate limit text ++ next :: rest) :
    limit < utf8Len (truncate limit text ++ [next]) := by
  induction text generalizing limit with
  | nil => simp [truncate] at cut
  | cons char text ih =>
      rw [truncate] at cut ⊢
      split at cut
      next fits =>
        rw [if_pos fits, List.cons_append, utf8Len_cons]
        rw [List.cons_append, List.cons.injEq] at cut
        have later := ih cut.2
        omega
      next large =>
        rw [List.nil_append, List.cons.injEq] at cut
        rw [if_neg large, List.nil_append, utf8Len_cons, utf8Len_nil, ← cut.1]
        omega

/-! ## Replacing -/

def IsClean (char : Char) : Prop :=
  char ≠ ':' ∧ isIllegal char = false ∧ isControl char = false ∧
    isBidiOrInvisibleControl char = false

instance : DecidablePred IsClean := fun _ => inferInstanceAs (Decidable (_ ∧ _ ∧ _ ∧ _))

theorem clean_replaceChars {replaced : List Char} (rest : List Char)
    (clean : ∀ char ∈ replaced, IsClean char) :
    ∀ char ∈ replaceChars replaced rest, IsClean char := by
  have append : ∀ {before after : List Char}, (∀ char ∈ before, IsClean char) →
      (∀ char ∈ after, IsClean char) → ∀ char ∈ before ++ after, IsClean char := by
    intro before after first second char mem
    exact (List.mem_append.mp mem).elim (first char) (second char)
  induction rest generalizing replaced with
  | nil => exact clean
  | cons char rest ih =>
      rw [replaceChars]
      split
      · apply ih
        apply append clean
        split
        · exact List.all_iff_forall_prop.mp (by decide)
        · exact List.all_iff_forall_prop.mp (by decide)
      next notColon =>
        split
        · exact ih (append clean (List.all_iff_forall_prop.mp (by decide)))
        next legal =>
          rw [Bool.or_eq_true, not_or, Bool.not_eq_true, Bool.not_eq_true] at legal
          split
          · exact ih clean
          next visible =>
            rw [Bool.not_eq_true] at visible
            apply ih (append clean _)
            intro other mem
            rw [List.mem_singleton.mp mem]
            exact ⟨notColon, legal.1, legal.2, visible⟩

theorem replaceChars_of_clean {rest : List Char} (clean : ∀ char ∈ rest, IsClean char)
    (replaced : List Char) : replaceChars replaced rest = replaced ++ rest := by
  induction rest generalizing replaced with
  | nil => rw [replaceChars, List.append_nil]
  | cons char rest ih =>
      have isClean := clean char List.mem_cons_self
      have legal : ¬(isIllegal char || isControl char) = true := by
        rw [isClean.2.1, isClean.2.2.1]
        decide
      have visible : ¬isBidiOrInvisibleControl char = true := by
        rw [isClean.2.2.2]
        decide
      rw [replaceChars, if_neg isClean.1, if_neg legal, if_neg visible,
        ih fun other mem => clean other (List.mem_cons_of_mem char mem), List.append_assoc,
        List.singleton_append]

/-! ## The sanitized name -/

theorem shown_clean (nfc : Nfc) (name : List Char) : ∀ char ∈ shown nfc name, IsClean char := by
  intro char mem
  exact clean_replaceChars (nfc.map name) (by simp) char ((trimName_isPart _).subset mem)

theorem shown_trimmed (nfc : Nfc) (name : List Char) : Trimmed (shown nfc name) :=
  trimmed_trimName _

theorem kept_isPart (text : List Char) : kept text <:+: text :=
  (trimName_isPart _).trans (truncate_isFront _ text).isInfix

theorem utf8Size_le_four (char : Char) : char.utf8Size ≤ 4 := Char.utf8Size_le_four char

theorem kept_eq {text : List Char} (trimmed : Trimmed text) :
    kept text = (truncate (room text) text).rdropWhile isTrimmed :=
  trimName_of_begins (head?_of_front (truncate_isFront _ text) trimmed.begins)

theorem rdropWhile_append_cons {drops : Char → Bool} {char : Char} (stays : drops char = false)
    (front rest : List Char) :
    (front ++ char :: rest).rdropWhile drops = front ++ char :: rest.rdropWhile drops := by
  induction rest using List.reverseRecOn with
  | nil =>
      rw [List.rdropWhile_nil, List.rdropWhile_concat_neg]
      rw [stays]
      decide
  | append_singleton rest last ih =>
      rw [← List.cons_append, ← List.append_assoc]
      by_cases dropped : drops last
      · rw [List.rdropWhile_concat_pos _ _ _ dropped, List.rdropWhile_concat_pos _ _ _ dropped, ih]
      · rw [List.rdropWhile_concat_neg _ _ _ dropped, List.rdropWhile_concat_neg _ _ _ dropped,
          List.append_assoc, List.cons_append]

theorem rdropWhile_cons {drops : Char → Bool} {char : Char} (stays : drops char = false)
    (rest : List Char) : (char :: rest).rdropWhile drops = char :: rest.rdropWhile drops :=
  rdropWhile_append_cons stays [] rest

theorem rdropWhile_append {drops : Char → Bool} {dropped : List Char}
    (all : ∀ char ∈ dropped, drops char) (front : List Char) :
    (front ++ dropped).rdropWhile drops = front.rdropWhile drops := by
  induction dropped using List.reverseRecOn with
  | nil => rw [List.append_nil]
  | append_singleton dropped last ih =>
      rw [← List.append_assoc, List.rdropWhile_concat_pos _ _ _ (all last (by simp)),
        ih fun char mem => all char (List.mem_append_left _ mem)]

theorem rdropWhile_front {part text : List Char} (isPrefix : part <+: text) :
    part.rdropWhile isTrimmed <+: text.rdropWhile isTrimmed := by
  rcases List.eq_nil_or_concat' (part.rdropWhile isTrimmed) with none | ⟨front, last, eq⟩
  · rw [none]
    exact List.nil_prefix
  · have stays : isTrimmed last = false := by
      apply ends_rdropWhile part
      rw [eq, List.getLast?_concat]
      rfl
    have whole := @List.rdropWhile_append_rtakeWhile _ isTrimmed part
    rcases isPrefix with ⟨rest, rfl⟩
    have split : part ++ rest = front ++ last :: (part.rtakeWhile isTrimmed ++ rest) := by
      conv_lhs => rw [← whole, eq]
      simp
    rw [eq, split, rdropWhile_append_cons stays, List.prefix_append_right_inj]
    exact List.cons_prefix_cons.mpr ⟨rfl, List.nil_prefix⟩

theorem dropWhile_front {part text : List Char} (isPrefix : part <+: text) :
    part.dropWhile isTrimmed <+: text.dropWhile isTrimmed := by
  rcases isPrefix with ⟨rest, rfl⟩
  rw [List.dropWhile_append]
  split
  next none =>
    rw [List.isEmpty_iff.mp none]
    exact List.nil_prefix
  · exact List.prefix_append _ _

theorem utf8Len_le_of_part {part text : List Char} (isInfix : part <:+: text) :
    utf8Len part ≤ utf8Len text := by
  rcases isInfix with ⟨before, after, rfl⟩
  rw [utf8Len_append, utf8Len_append]
  omega

theorem utf8Len_kept (text : List Char) : utf8Len (kept text) ≤ room text :=
  (utf8Len_le_of_part (trimName_isPart _)).trans (utf8Len_truncate _ text)

theorem rdropWhile_of_trimmed {text : List Char} (trimmed : Trimmed text) :
    text.rdropWhile isTrimmed = text := by
  rw [← trimName_of_begins trimmed.begins, trimName_of_trimmed trimmed]

theorem kept_ne_nil {text : List Char} (trimmed : Trimmed text) (nonempty : text ≠ []) :
    kept text ≠ [] := by
  cases text with
  | nil => exact absurd rfl nonempty
  | cons first rest =>
      have fits : first.utf8Size ≤ room (first :: rest) := by
        apply (utf8Size_le_four first).trans
        rw [room]
        split
        · decide
        · decide
      rw [kept_eq trimmed, truncate, if_pos fits, rdropWhile_cons (trimmed.begins first rfl)]
      exact List.cons_ne_nil _ _

theorem sanitizeJobName_eq (nfc : Nfc) (name : List Char) :
    sanitizeJobName nfc name =
      if shown nfc name = [] then unnamedJob
      else if isWindowsReservedName (shown nfc name) then '_' :: kept (shown nfc name)
      else kept (shown nfc name) := by
  have trimmed := shown_trimmed nfc name
  rw [sanitizeJobName, ← shown]
  by_cases none : shown nfc name = []
  · rw [if_pos none, if_pos none]
  · rw [if_neg none, if_neg none, kept_eq trimmed, room]
    by_cases reserved : isWindowsReservedName (shown nfc name)
    · have one : utf8Len ('_' :: shown nfc name) = 1 + utf8Len (shown nfc name) := rfl
      have cut : truncate maxJobNameBytes ('_' :: shown nfc name) =
          '_' :: truncate (maxJobNameBytes - 1) (shown nfc name) := rfl
      simp only [reserved, if_true, one]
      split
      · rw [cut, trimName_of_begins fun first isFirst => by cases isFirst; decide,
          rdropWhile_cons (by decide)]
      next short =>
        rw [truncate_of_short (by omega), rdropWhile_of_trimmed trimmed]
    · simp only [reserved, Bool.false_eq_true, if_false]
      split
      · exact trimName_of_begins (head?_of_front (truncate_isFront _ _) trimmed.begins)
      next short =>
        rw [truncate_of_short (by omega), rdropWhile_of_trimmed trimmed]

/-! ## Safe names -/

/-- What all the checks ask for but the one for reserved names. -/
structure Acceptable (text : List Char) : Prop where
  nonempty : text ≠ []
  short : utf8Len text ≤ maxJobNameBytes
  clean : ∀ char ∈ text, IsClean char
  trimmed : Trimmed text

variable {text : List Char}

section

variable (acceptable : Acceptable text)

include acceptable

theorem Acceptable.not_mem (char : Char) (dirty : ¬IsClean char) :
    char ∉ text := fun mem => dirty (acceptable.clean char mem)

theorem Acceptable.control : text.any isControl = false := by
  rw [List.any_eq_false]
  intro char mem
  rw [(acceptable.clean char mem).2.2.1]
  decide

theorem Acceptable.ne_dot (rest : List Char) : text ≠ '.' :: rest := by
  rintro rfl
  nomatch acceptable.trimmed.begins '.' rfl

theorem Acceptable.component : safeComponent text = true := by
  have slash : '/' ∉ text := acceptable.not_mem _ (by decide)
  have backslash : '\\' ∉ text := acceptable.not_mem _ (by decide)
  have invisible : text.any isBidiOrInvisibleControl = false := by
    rw [List.any_eq_false]
    intro char mem
    rw [(acceptable.clean char mem).2.2.2]
    decide
  simp [safeComponent, acceptable.nonempty, slash, backslash, acceptable.ne_dot,
    acceptable.control, invisible]

theorem Acceptable.joins : safeJoin text = some [text] := by
  have slash : '/' ∉ text := acceptable.not_mem _ (by decide)
  have same : (text.map fun char => if char = '\\' then '/' else char) = text := by
    conv_rhs => rw [← List.map_id text]
    apply List.map_congr_left
    intro char mem
    apply if_neg
    rintro rfl
    exact acceptable.not_mem _ (by decide) mem
  have begins : text.head? ≠ some '/' := fun first => slash (List.mem_of_head? first)
  have drive : hasDrive text = false := by
    unfold hasDrive
    split
    · exact absurd (by simp) (acceptable.not_mem ':' (by decide))
    · rfl
  have single : text.splitOn '/' = [text] := by
    rw [List.splitOn_eq_splitOnP, List.splitOnP_eq_singleton]
    intro char mem
    rw [beq_eq_false_iff_ne]
    rintro rfl
    exact slash mem
  have stays : [text].filter (fun component => component ≠ [] && component ≠ ['.']) = [text] := by
    simp [acceptable.nonempty, acceptable.ne_dot]
  have up : ['.', '.'] ∉ [text] := by
    rw [List.mem_singleton]
    exact (acceptable.ne_dot ['.']).symm
  have fine : ¬(text = [] ∨ text.head? = some '/' ∨ hasDrive text = true ∨
      text.any isControl = true) := by
    rw [drive, acceptable.control]
    simp [acceptable.nonempty, begins]
  simp only [safeJoin, same, if_neg fine, single, stays, if_neg up]

theorem Acceptable.fixed (normal : nfc.map text = text)
    (unreserved : isWindowsReservedName text = false) : sanitizeJobName nfc text = text := by
  have same : shown nfc text = text := by
    rw [shown, normal, replaceChars_of_clean acceptable.clean, List.nil_append,
      trimName_of_trimmed acceptable.trimmed]
  have short : ¬maxJobNameBytes < utf8Len text := Nat.not_lt.mpr acceptable.short
  rw [sanitizeJobName, ← shown, same]
  simp only [if_neg acceptable.nonempty, unreserved, Bool.false_eq_true, if_false, if_neg short]

end

theorem acceptable_sanitizeJobName (nfc : Nfc) (name : List Char) :
    Acceptable (sanitizeJobName nfc name) := by
  have trimmed := shown_trimmed nfc name
  have clean : ∀ char ∈ kept (shown nfc name), IsClean char := fun char mem =>
    shown_clean nfc name char ((kept_isPart _).subset mem)
  have ends : Trimmed (kept (shown nfc name)) := trimmed_trimName _
  have short := utf8Len_kept (shown nfc name)
  rw [room] at short
  rw [sanitizeJobName_eq]
  by_cases none : shown nfc name = []
  · rw [if_pos none]
    refine ⟨by decide, by decide, List.all_iff_forall_prop.mp (by decide), ?_, ?_⟩
    · intro first isFirst
      cases isFirst
      decide
    · intro last isLast
      cases isLast
      decide
  · rw [if_neg none]
    by_cases reserved : isWindowsReservedName (shown nfc name)
    · rw [if_pos reserved] at short ⊢
      constructor
      · exact List.cons_ne_nil _ _
      · have size : Char.utf8Size '_' = 1 := rfl
        rw [utf8Len_cons, size]
        unfold maxJobNameBytes at short ⊢
        omega
      · intro char mem
        rcases List.mem_cons.mp mem with rfl | mem
        · decide
        · exact clean char mem
      · constructor
        · intro first isFirst
          cases isFirst
          decide
        · intro last isLast
          cases none : kept (shown nfc name) with
          | nil =>
              rw [none] at isLast
              cases isLast
              decide
          | cons first rest =>
              rw [none, List.getLast?_cons_cons, ← none] at isLast
              exact ends.ends last isLast
    · rw [if_neg reserved] at short ⊢
      exact ⟨kept_ne_nil trimmed none, short, clean, ends⟩

end Rustnzb.Core.JobNames
