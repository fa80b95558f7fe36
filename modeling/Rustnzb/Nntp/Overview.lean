import Rustnzb.Nntp.Wire

/-!
# Overview observations

The answer to an overview request is split into rows and defective rows, line by line, and the
article numbers of the requested range that no row has are reported as ranges. A row keeps its
fields byte for byte; its article number is kept as a number.
-/

namespace Rustnzb.Nntp.Overview

def tab : UInt8 := 9
def zero : UInt8 := 48

structure OverviewFormat where
  fields : List (List UInt8)

structure LosslessOverviewRow where
  articleNumber : ℕ
  fields : List (List UInt8)
  deriving DecidableEq

inductive DefectiveOverviewRowCode where
  | articleNumberInvalid
  | articleNumberOutOfRange
  | duplicateArticleNumber
  | fieldCountInvalid
  deriving DecidableEq

structure DefectiveOverviewRow where
  articleNumber : Option ℕ
  wireLine : List UInt8
  failureCode : DefectiveOverviewRowCode
  deriving DecidableEq

structure LosslessOverviewRows where
  rows : List LosslessOverviewRow
  defectiveRows : List DefectiveOverviewRow
  deriving DecidableEq

/-- `line.strip_suffix(b"\r").unwrap_or(line)`, when that is not empty. -/
def withoutEnding (line : List UInt8) : Option (List UInt8) :=
  let line := if line.getLast? = some cr then line.dropLast else line
  if line = [] then none else some line

def wireLines (data : List UInt8) : List (List UInt8) :=
  (data.splitOn lf).filterMap withoutEnding

def isAsciiDigit (byte : UInt8) : Bool := 48 ≤ byte && byte ≤ 57

def valueOf (digits : List UInt8) : ℕ :=
  digits.foldl (fun value digit => 10 * value + (digit.toNat - 48)) 0

def parseAsciiU64 (value : List UInt8) : Option ℕ :=
  if value = [] ∨ ¬value.all isAsciiDigit then none
  else if valueOf value < 2 ^ 64 then some (valueOf value) else none

section Rows

variable (format : OverviewFormat) (startArticle endArticle : ℕ)

/-- The rows so far and the article numbers they have. -/
structure Progress where
  rows : List LosslessOverviewRow
  defectiveRows : List DefectiveOverviewRow
  seen : Finset ℕ

/-- What the loop of `parse_lossless_overview_rows` does with one line. -/
def addLine (state : Progress) (line : List UInt8) : Progress :=
  let parts := line.splitOn tab
  let articleNumber := parseAsciiU64 (parts.headD [])
  let fields := parts.tail
  let defective (failureCode : DefectiveOverviewRowCode) : Progress :=
    { state with
      defectiveRows := state.defectiveRows ++ [⟨articleNumber, line, failureCode⟩] }
  match articleNumber with
  | none => defective .articleNumberInvalid
  | some number =>
      if number < startArticle ∨ number > endArticle then defective .articleNumberOutOfRange
      else if fields.length ≠ format.fields.length then defective .fieldCountInvalid
      else if number ∈ state.seen then defective .duplicateArticleNumber
      else
        { state with
          rows := state.rows ++ [⟨number, fields⟩], seen := insert number state.seen }

def parseLosslessOverviewRows (data : List UInt8) : LosslessOverviewRows :=
  let state := (wireLines data).foldl (addLine format startArticle endArticle) ⟨[], [], ∅⟩
  ⟨state.rows, state.defectiveRows⟩

end Rows

/-! ## What a line says -/

/-- A number as it is written without leading zeros. -/
def decimal (number : ℕ) : List UInt8 :=
  if number = 0 then [zero]
  else ((Nat.digits 10 number).map fun digit => UInt8.ofNat (48 + digit)).reverse

/-- A text of digits, leading zeros included. -/
def Denotes (digits : List UInt8) (number : ℕ) : Prop :=
  ∃ zeros, digits = List.replicate zeros zero ++ decimal number

theorem decimal_digit {digit : ℕ} (small : digit < 10) :
    decimal digit = [UInt8.ofNat (48 + digit)] := by
  rcases digit with _ | digit
  · rfl
  · rw [decimal, if_neg (by omega), Nat.digits_of_lt 10 _ (by omega) small]
    rfl

theorem decimal_snoc {number digit : ℕ} (positive : 0 < number) (small : digit < 10) :
    decimal (10 * number + digit) = decimal number ++ [UInt8.ofNat (48 + digit)] := by
  rw [decimal, if_neg (by omega), decimal, if_neg (by omega), Nat.add_comm,
    Nat.digits_add 10 (by omega) _ _ small (by omega), List.map_cons, List.reverse_cons]

theorem valueOf_snoc (digits : List UInt8) (digit : UInt8) :
    valueOf (digits ++ [digit]) = 10 * valueOf digits + (digit.toNat - 48) := by
  simp [valueOf]

theorem valueOf_zeros (zeros : ℕ) (digits : List UInt8) :
    valueOf (List.replicate zeros zero ++ digits) = valueOf digits := by
  induction zeros with
  | zero => rfl
  | succ zeros ih =>
      rw [List.replicate_succ, List.cons_append]
      exact ih

theorem digit_of_isAsciiDigit {byte : UInt8} (isDigit : isAsciiDigit byte) :
    byte.toNat - 48 < 10 ∧ byte = UInt8.ofNat (48 + (byte.toNat - 48)) := by
  simp only [isAsciiDigit, Bool.and_eq_true, decide_eq_true_eq, UInt8.le_iff_toNat_le] at isDigit
  have low : 48 ≤ byte.toNat := isDigit.1
  have high : byte.toNat ≤ 57 := isDigit.2
  refine ⟨by omega, ?_⟩
  rw [Nat.add_sub_cancel' low, UInt8.ofNat_toNat]

theorem isAsciiDigit_ofNat {digit : ℕ} (small : digit < 10) :
    isAsciiDigit (UInt8.ofNat (48 + digit)) ∧ (UInt8.ofNat (48 + digit)).toNat - 48 = digit := by
  interval_cases digit <;> decide

theorem denotes_valueOf {digits : List UInt8} (nonempty : digits ≠ [])
    (isDigits : ∀ byte ∈ digits, isAsciiDigit byte) : Denotes digits (valueOf digits) := by
  induction digits using List.reverseRecOn with
  | nil => exact absurd rfl nonempty
  | append_singleton digits digit ih =>
      rcases digit_of_isAsciiDigit (isDigits digit (by simp)) with ⟨small, same⟩
      rw [valueOf_snoc]
      generalize digit.toNat - 48 = value at small same
      subst same
      by_cases first : digits = []
      · subst first
        exact ⟨0, by simpa [valueOf] using (decimal_digit small).symm⟩
      · rcases ih first fun byte mem => isDigits byte (by simp [mem]) with ⟨zeros, eq⟩
        by_cases positive : 0 < valueOf digits
        · refine ⟨zeros, ?_⟩
          rw [decimal_snoc positive small, ← List.append_assoc, ← eq]
        · have isZero : valueOf digits = 0 := by omega
          refine ⟨zeros + 1, ?_⟩
          rw [isZero] at eq ⊢
          rw [eq, Nat.mul_zero, Nat.zero_add, decimal_digit small, List.replicate_succ']
          rfl

theorem decimal_spec (number : ℕ) : decimal number ≠ [] ∧
    (∀ byte ∈ decimal number, isAsciiDigit byte) ∧ valueOf (decimal number) = number := by
  induction number using Nat.strongRecOn with
  | ind number ih =>
      have small : number % 10 < 10 := Nat.mod_lt _ (by omega)
      rcases isAsciiDigit_ofNat small with ⟨isDigit, value⟩
      by_cases short : number < 10
      · rw [Nat.mod_eq_of_lt short] at isDigit value
        rw [decimal_digit short]
        refine ⟨by simp, fun byte mem => ?_, (Nat.zero_add _).trans value⟩
        rw [List.mem_singleton.mp mem]
        exact isDigit
      · rcases ih (number / 10) (by omega) with ⟨_, isDigits, valueInit⟩
        have written := decimal_snoc (show 0 < number / 10 by omega) small
        rw [Nat.div_add_mod] at written
        rw [written, valueOf_snoc, valueInit, value]
        refine ⟨by simp, fun byte mem => ?_, Nat.div_add_mod ..⟩
        rcases List.mem_append.mp mem with mem | mem
        · exact isDigits byte mem
        · rw [List.mem_singleton.mp mem]
          exact isDigit

theorem parseAsciiU64_eq_some {digits : List UInt8} {number : ℕ} :
    parseAsciiU64 digits = some number ↔ Denotes digits number ∧ number < 2 ^ 64 := by
  constructor
  · intro parsed
    simp only [parseAsciiU64, List.all_eq_true] at parsed
    split at parsed
    · simp at parsed
    next isDigits =>
      rw [not_or, not_not] at isDigits
      rw [Option.ite_none_right_eq_some, Option.some.injEq] at parsed
      rcases parsed with ⟨fits, rfl⟩
      exact ⟨denotes_valueOf isDigits.1 isDigits.2, fits⟩
  · rintro ⟨⟨zeros, rfl⟩, fits⟩
    rcases decimal_spec number with ⟨nonempty, isDigits, value⟩
    have all : ∀ byte ∈ List.replicate zeros zero ++ decimal number, isAsciiDigit byte := by
      intro byte mem
      rcases List.mem_append.mp mem with mem | mem
      · rw [List.eq_of_mem_replicate mem]
        rfl
      · exact isDigits byte mem
    have isNumber : ¬(List.replicate zeros zero ++ decimal number = [] ∨
        ¬(List.replicate zeros zero ++ decimal number).all isAsciiDigit) := by
      rw [not_or, not_not, List.all_eq_true]
      exact ⟨by simp [nonempty], all⟩
    rw [parseAsciiU64, if_neg isNumber, valueOf_zeros, value, if_pos fits]

theorem notMem_of_mem_splitOn {separator : UInt8} {text part : List UInt8}
    (mem : part ∈ text.splitOn separator) : separator ∉ part := by
  induction text generalizing part with
  | nil => simp_all [List.splitOn_nil]
  | cons byte rest ih =>
      obtain ⟨first, parts, split⟩ :=
        List.exists_cons_of_ne_nil (List.splitOn_ne_nil separator rest)
      simp only [List.splitOn_cons_eq_if_modifyHead, split, beq_iff_eq] at mem
      rw [split] at ih
      by_cases same : byte = separator
      · rw [if_pos same, List.mem_cons] at mem
        rcases mem with rfl | mem
        · exact List.not_mem_nil
        · exact ih mem
      · rw [if_neg same, List.modifyHead_cons, List.mem_cons] at mem
        rcases mem with rfl | mem
        · exact List.not_mem_cons_of_ne_of_not_mem (Ne.symm same) (ih List.mem_cons_self)
        · exact ih (List.mem_cons_of_mem first mem)

/-- A line taken apart at its tabs. -/
structure Parts (line number : List UInt8) (fields : List (List UInt8)) : Prop where
  joined : line = [tab].intercalate (number :: fields)
  noTab : ∀ part ∈ number :: fields, tab ∉ part

theorem parts_iff {line number : List UInt8} {fields : List (List UInt8)} :
    Parts line number fields ↔ line.splitOn tab = number :: fields := by
  constructor
  · rintro ⟨rfl, noTab⟩
    exact List.splitOn_intercalate tab noTab (by simp)
  · intro split
    refine ⟨by rw [← split, List.intercalate_splitOn], ?_⟩
    rw [← split]
    exact fun part => notMem_of_mem_splitOn

def LosslessOverviewRow.rejoined (row : LosslessOverviewRow) : List UInt8 :=
  [tab].intercalate (decimal row.articleNumber :: row.fields)

/-- The lines of `data`, their LF and one CR before it taken away. -/
def Lines (data : List UInt8) (lines : List (List UInt8)) : Prop :=
  ∃ raw, data = [lf].intercalate raw ∧ (∀ line ∈ raw, lf ∉ line) ∧
    lines = raw.filterMap withoutEnding

section Accounts

variable (format : OverviewFormat) (startArticle endArticle : ℕ)

def Tells (line : List UInt8) (number count : ℕ) : Prop :=
  ∃ digits fields, Parts line digits fields ∧ Denotes digits number ∧ number < 2 ^ 64 ∧
    fields.length = count

def Flaw (earlier : List LosslessOverviewRow) (line : List UInt8) :
    DefectiveOverviewRowCode → Prop
  | .articleNumberInvalid => ∀ number count, ¬Tells line number count
  | .articleNumberOutOfRange =>
      ∃ number count, Tells line number count ∧ (number < startArticle ∨ endArticle < number)
  | .fieldCountInvalid => ∃ number count, Tells line number count ∧ count ≠ format.fields.length
  | .duplicateArticleNumber =>
      ∃ number count, Tells line number count ∧ ∃ row ∈ earlier, row.articleNumber = number

/-- Every line has its row, unless something is wrong with it. -/
inductive Accounted : List LosslessOverviewRow → List (List UInt8) →
    List (LosslessOverviewRow ⊕ DefectiveOverviewRow) → Prop
  | nil (earlier : List LosslessOverviewRow) : Accounted earlier [] []
  | row {earlier line lines accounts} (row : LosslessOverviewRow) (zeros : ℕ)
      (same : line = List.replicate zeros zero ++ row.rejoined)
      (told : Tells line row.articleNumber row.fields.length)
      (sound : ∀ code, ¬Flaw format startArticle endArticle earlier line code)
      (rest : Accounted (earlier ++ [row]) lines accounts) :
      Accounted earlier (line :: lines) (.inl row :: accounts)
  | defective {earlier line lines accounts} (row : DefectiveOverviewRow)
      (same : row.wireLine = line)
      (flaw : Flaw format startArticle endArticle earlier line row.failureCode)
      (rest : Accounted earlier lines accounts) :
      Accounted earlier (line :: lines) (.inr row :: accounts)

end Accounts

section Proofs

variable {format : OverviewFormat} {startArticle endArticle : ℕ} {line : List UInt8}

theorem tells_iff {digits : List UInt8} {fields : List (List UInt8)} {number count : ℕ}
    (split : line.splitOn tab = digits :: fields) :
    Tells line number count ↔ parseAsciiU64 digits = some number ∧ fields.length = count := by
  constructor
  · rintro ⟨otherDigits, otherFields, parts, denotes, fits, counted⟩
    rw [parts_iff.mp parts, List.cons.injEq] at split
    rcases split with ⟨rfl, rfl⟩
    exact ⟨parseAsciiU64_eq_some.mpr ⟨denotes, fits⟩, counted⟩
  · rintro ⟨parsed, counted⟩
    rcases parseAsciiU64_eq_some.mp parsed with ⟨denotes, fits⟩
    exact ⟨digits, fields, parts_iff.mpr split, denotes, fits, counted⟩

theorem rejoined_of_parts {digits : List UInt8} {row : LosslessOverviewRow}
    (parts : Parts line digits row.fields) (denotes : Denotes digits row.articleNumber) :
    ∃ zeros, line = List.replicate zeros zero ++ row.rejoined := by
  rcases denotes with ⟨zeros, rfl⟩
  refine ⟨zeros, ?_⟩
  rw [parts.joined, LosslessOverviewRow.rejoined]
  cases row.fields <;> simp [List.intercalate]

theorem addLine_spec (state : Progress) (line : List UInt8)
    (seen : ∀ number, number ∈ state.seen ↔ ∃ row ∈ state.rows, row.articleNumber = number) :
    (∃ row zeros, line = List.replicate zeros zero ++ row.rejoined ∧
      Tells line row.articleNumber row.fields.length ∧
      (∀ code, ¬Flaw format startArticle endArticle state.rows line code) ∧
      addLine format startArticle endArticle state line =
        { state with
          rows := state.rows ++ [row], seen := insert row.articleNumber state.seen }) ∨
    ∃ row : DefectiveOverviewRow, row.wireLine = line ∧
      Flaw format startArticle endArticle state.rows line row.failureCode ∧
      addLine format startArticle endArticle state line =
        { state with defectiveRows := state.defectiveRows ++ [row] } := by
  obtain ⟨digits, fields, split⟩ := List.exists_cons_of_ne_nil (List.splitOn_ne_nil tab line)
  simp only [addLine, split, List.headD_cons, List.tail_cons]
  cases parsed : parseAsciiU64 digits with
  | none =>
      refine .inr ⟨_, rfl, fun number count told => ?_, rfl⟩
      rw [tells_iff split, parsed] at told
      exact nomatch told.1
  | some number =>
      have told : Tells line number fields.length := (tells_iff split).mpr ⟨parsed, rfl⟩
      dsimp only
      split
      next outside =>
        exact .inr ⟨⟨some number, line, .articleNumberOutOfRange⟩, rfl,
          ⟨number, _, told, outside⟩, rfl⟩
      next inside =>
        split
        next miscounted =>
          exact .inr ⟨⟨some number, line, .fieldCountInvalid⟩, rfl,
            ⟨number, _, told, miscounted⟩, rfl⟩
        next counted =>
          split
          next repeated =>
            exact .inr ⟨⟨some number, line, .duplicateArticleNumber⟩, rfl,
              ⟨number, _, told, (seen number).mp repeated⟩, rfl⟩
          next fresh =>
            have denotes := parseAsciiU64_eq_some.mp parsed
            rcases @rejoined_of_parts line digits ⟨number, fields⟩ (parts_iff.mpr split) denotes.1
              with ⟨zeros, same⟩
            refine .inl ⟨⟨number, fields⟩, zeros, same, told, fun code flaw => ?_, rfl⟩
            have only : ∀ {other count}, Tells line other count →
                other = number ∧ count = fields.length := by
              intro other count otherTold
              rcases (tells_iff split).mp otherTold with ⟨same, rfl⟩
              rw [parsed, Option.some.injEq] at same
              exact ⟨same.symm, rfl⟩
            cases code with
            | articleNumberInvalid => exact flaw number _ told
            | articleNumberOutOfRange =>
                rcases flaw with ⟨other, count, otherTold, outside⟩
                exact inside ((only otherTold).1 ▸ outside)
            | fieldCountInvalid =>
                rcases flaw with ⟨other, count, otherTold, miscounted⟩
                exact counted ((only otherTold).2 ▸ miscounted)
            | duplicateArticleNumber =>
                rcases flaw with ⟨other, count, otherTold, repeated⟩
                exact fresh ((seen number).mpr ((only otherTold).1 ▸ repeated))

theorem foldl_addLine_spec (lines : List (List UInt8)) (state : Progress)
    (seen : ∀ number, number ∈ state.seen ↔ ∃ row ∈ state.rows, row.articleNumber = number) :
    ∃ accounts, Accounted format startArticle endArticle state.rows lines accounts ∧
      (lines.foldl (addLine format startArticle endArticle) state).rows =
        state.rows ++ accounts.filterMap Sum.getLeft? ∧
      (lines.foldl (addLine format startArticle endArticle) state).defectiveRows =
        state.defectiveRows ++ accounts.filterMap Sum.getRight? := by
  induction lines generalizing state with
  | nil => exact ⟨[], .nil _, by simp, by simp⟩
  | cons line lines ih =>
      rw [List.foldl_cons]
      rcases addLine_spec state line seen with
        ⟨row, zeros, same, told, sound, eq⟩ | ⟨row, same, flaw, eq⟩
      · rw [eq]
        have seenToo : ∀ number, number ∈ insert row.articleNumber state.seen ↔
            ∃ other ∈ state.rows ++ [row], other.articleNumber = number := by
          intro number
          rw [Finset.mem_insert, seen]
          simp [or_and_right, exists_or, or_comm, eq_comm]
        rcases ih ⟨state.rows ++ [row], state.defectiveRows, insert row.articleNumber state.seen⟩
          seenToo with ⟨accounts, accounted, rows, defectiveRows⟩
        refine ⟨.inl row :: accounts, .row row zeros same told sound accounted, ?_, defectiveRows⟩
        rw [rows, List.append_assoc]
        rfl
      · rw [eq]
        rcases ih ⟨state.rows, state.defectiveRows ++ [row], state.seen⟩ seen with
          ⟨accounts, accounted, rows, defectiveRows⟩
        refine ⟨.inr row :: accounts, .defective row same flaw accounted, rows, ?_⟩
        rw [defectiveRows, List.append_assoc]
        rfl

end Proofs

/-! ## The numbers that no row has -/

/-- One round of the loop of `missing_ranges`; `none` when `article - 1` overflows. -/
def visitArticle (present : Finset ℕ) (state : List (ℕ × ℕ) × Option ℕ) (article : ℕ) :
    Option (List (ℕ × ℕ) × Option ℕ) :=
  match decide (article ∈ present), state.2 with
  | true, some first => if article = 0 then none else some (state.1 ++ [(first, article - 1)], none)
  | true, none => some state
  | false, none => some (state.1, some article)
  | false, some _ => some state

def missingRanges (start stop : ℕ) (present : Finset ℕ) : Option (List (ℕ × ℕ)) :=
  ((List.range' start (stop + 1 - start)).foldlM (visitArticle present) ([], none)).map
    fun state =>
      match state.2 with
      | some first => state.1 ++ [(first, stop)]
      | none => state.1

/-- The ranges are the absent numbers from `start` up to, not with, `stop`. -/
structure Gaps (start stop : ℕ) (present : Finset ℕ) (ranges : List (ℕ × ℕ)) : Prop where
  ordered : ∀ range ∈ ranges, range.1 ≤ range.2
  apart : ranges.Pairwise fun left right => left.2 + 1 < right.1
  covers : ∀ number, (∃ range ∈ ranges, range.1 ≤ number ∧ number ≤ range.2) ↔
    start ≤ number ∧ number < stop ∧ number ∉ present

section Ranges

variable {start stop : ℕ} {present : Finset ℕ}

/-- What holds before `article` is visited: the ranges are the gaps below an open one. -/
structure Open (start : ℕ) (present : Finset ℕ) (article : ℕ)
    (state : List (ℕ × ℕ) × Option ℕ) : Prop where
  gaps : Gaps start (state.2.getD article) present state.1
  below : ∀ range ∈ state.1, range.2 + 1 < state.2.getD article
  first : start ≤ state.2.getD article
  before : ∀ first ∈ state.2, first < article
  absent : ∀ number, state.2.getD article ≤ number → number < article → number ∉ present

theorem Gaps.close {ranges : List (ℕ × ℕ)} {first article : ℕ}
    (here : Open start present article (ranges, some first)) :
    Gaps start article present (ranges ++ [(first, article - 1)]) := by
  have before : first < article := here.before first rfl
  have starts : start ≤ first := here.first
  constructor
  case ordered =>
    intro range mem
    rcases List.mem_append.mp mem with mem | mem
    · exact here.gaps.ordered range mem
    · rw [List.mem_singleton.mp mem]
      exact Nat.le_sub_one_of_lt before
  case apart =>
    rw [List.pairwise_append]
    refine ⟨here.gaps.apart, List.pairwise_singleton .., fun left mem right memRight => ?_⟩
    rw [List.mem_singleton.mp memRight]
    exact here.below left mem
  case covers =>
    intro number
    have covers : _ ↔ start ≤ number ∧ number < first ∧ number ∉ present := here.gaps.covers number
    have absent : first ≤ number → number < article → number ∉ present := here.absent number
    simp only [List.mem_append, List.mem_singleton, or_and_right, exists_or, exists_eq_left, covers]
    by_cases low : number < first
    · simp only [low, true_and, show ¬first ≤ number by omega, false_and, or_false,
        show number < article by omega]
    · constructor
      · rintro (⟨_, high, _⟩ | ⟨high, le⟩)
        · exact absurd high low
        · exact ⟨by omega, by omega, absent high (by omega)⟩
      · rintro ⟨_, lt, _⟩
        exact .inr ⟨by omega, by omega⟩

theorem Gaps.skip {ranges : List (ℕ × ℕ)} {article : ℕ} (mem : article ∈ present)
    (gaps : Gaps start article present ranges) : Gaps start (article + 1) present ranges := by
  refine ⟨gaps.ordered, gaps.apart, fun number => (gaps.covers number).trans ?_⟩
  have other : number ∉ present → number ≠ article := fun absent same => absent (same ▸ mem)
  constructor
  · rintro ⟨low, high, absent⟩
    exact ⟨low, by omega, absent⟩
  · rintro ⟨low, high, absent⟩
    have := other absent
    exact ⟨low, by omega, absent⟩

theorem Open.visit {article : ℕ} {state : List (ℕ × ℕ) × Option ℕ}
    (here : Open start present article state) : ∃ next,
      visitArticle present state article = some next ∧ Open start present (article + 1) next := by
  rcases state with ⟨ranges, missingStart⟩
  cases missingStart with
  | none =>
      by_cases mem : article ∈ present
      · refine ⟨(ranges, none), by simp [visitArticle, mem], here.gaps.skip mem, ?_, ?_, by simp,
          ?_⟩
        · exact fun range inRanges => Nat.lt_succ_of_lt (here.below range inRanges)
        · exact Nat.le_succ_of_le here.first
        · exact fun number low high => absurd high (Nat.not_lt.mpr low)
      · refine ⟨(ranges, some article), by simp [visitArticle, mem], here.gaps, here.below,
          here.first, ?_, ?_⟩
        · rintro _ ⟨rfl⟩
          exact Nat.lt_succ_self article
        · intro number low high
          rw [Nat.le_antisymm (Nat.le_of_lt_succ high) low]
          exact mem
  | some first =>
      have before : first < article := here.before first rfl
      by_cases mem : article ∈ present
      · refine ⟨(ranges ++ [(first, article - 1)], none), ?_, (Gaps.close here).skip mem, ?_, ?_,
          by simp, ?_⟩
        · simp [visitArticle, mem, show article ≠ 0 by omega]
        · intro range inRanges
          rcases List.mem_append.mp inRanges with inRanges | inRanges
          · exact (here.below range inRanges).trans (Nat.lt_succ_of_lt before)
          · rw [List.mem_singleton.mp inRanges, Option.getD_none]
            omega
        · exact here.first.trans (Nat.le_succ_of_le before.le)
        · exact fun number low high => absurd high (Nat.not_lt.mpr low)
      · refine ⟨(ranges, some first), by simp [visitArticle, mem], here.gaps, here.below,
          here.first, ?_, ?_⟩
        · rintro _ ⟨rfl⟩
          exact Nat.lt_succ_of_lt before
        · intro number low high
          rcases Nat.lt_succ_iff_lt_or_eq.mp high with lt | rfl
          · exact here.absent number low lt
          · exact mem

theorem Open.visitAll (count : ℕ) {article : ℕ} {state : List (ℕ × ℕ) × Option ℕ}
    (here : Open start present article state) : ∃ next,
      (List.range' article count).foldlM (visitArticle present) state = some next ∧
        Open start present (article + count) next := by
  induction count generalizing article state with
  | zero => exact ⟨state, rfl, here⟩
  | succ count ih =>
      rcases here.visit with ⟨next, visited, there⟩
      rcases ih there with ⟨last, rest, opened⟩
      refine ⟨last, ?_, by rwa [Nat.add_right_comm] at opened⟩
      rw [List.range'_succ, List.foldlM_cons, visited]
      exact rest

theorem missingRanges_gaps (start stop : ℕ) (present : Finset ℕ) :
    ∃ ranges, missingRanges start stop present = some ranges ∧
      Gaps start (stop + 1) present ranges := by
  have initially : Open start present start ([], none) := by
    refine ⟨⟨by simp, .nil, fun number => ?_⟩, by simp, le_rfl, by simp, ?_⟩
    · simp
      omega
    · exact fun number low high => absurd high (Nat.not_lt.mpr low)
  by_cases backwards : stop < start
  · refine ⟨[], ?_, by simp, .nil, fun number => ?_⟩
    · rw [missingRanges, Nat.sub_eq_zero_of_le backwards]
      rfl
    · simp
      omega
  · rcases initially.visitAll (stop + 1 - start) with ⟨⟨ranges, missingStart⟩, visited, opened⟩
    rw [Nat.add_sub_cancel' (by omega)] at opened
    rw [missingRanges, visited]
    cases missingStart with
    | none => exact ⟨ranges, rfl, opened.gaps⟩
    | some first => exact ⟨_, rfl, Gaps.close opened⟩

end Ranges

/-! ## The observation -/

theorem lines_wireLines (data : List UInt8) : Lines data (wireLines data) :=
  ⟨data.splitOn lf, (List.intercalate_splitOn lf).symm, fun _ => notMem_of_mem_splitOn, rfl⟩

section Observation

variable {format : OverviewFormat} {startArticle endArticle : ℕ}

/-- The rows of a split that accounts for its lines have different numbers in the range, and none
of the rows before it. -/
theorem Accounted.rows_distinct {earlier : List LosslessOverviewRow} {lines : List (List UInt8)}
    {accounts : List (LosslessOverviewRow ⊕ DefectiveOverviewRow)}
    (accounted : Accounted format startArticle endArticle earlier lines accounts) :
    ((accounts.filterMap Sum.getLeft?).map LosslessOverviewRow.articleNumber).Nodup ∧
      ∀ row ∈ accounts.filterMap Sum.getLeft?,
        startArticle ≤ row.articleNumber ∧ row.articleNumber ≤ endArticle ∧
          ∀ other ∈ earlier, other.articleNumber ≠ row.articleNumber := by
  induction accounted with
  | nil => simp
  | defective row same flaw rest ih => exact ih
  | @row earlier line lines accounts row zeros same told sound rest ih =>
      have inRange : ¬(row.articleNumber < startArticle ∨ endArticle < row.articleNumber) :=
        fun outside => sound .articleNumberOutOfRange ⟨_, _, told, outside⟩
      rw [not_or, Nat.not_lt, Nat.not_lt] at inRange
      have later : ∀ other ∈ accounts.filterMap Sum.getLeft?,
          row.articleNumber ≠ other.articleNumber :=
        fun other mem => (ih.2 other mem).2.2 row (by simp)
      refine ⟨?_, fun other mem => ?_⟩
      · refine List.nodup_cons.mpr ⟨fun mem => ?_, ih.1⟩
        rcases List.mem_map.mp mem with ⟨other, mem, same⟩
        exact later other mem same.symm
      · rcases List.mem_cons.mp mem with rfl | mem
        · exact ⟨inRange.1, inRange.2, fun other mem same =>
            sound .duplicateArticleNumber ⟨_, _, told, other, mem, same⟩⟩
        · rcases ih.2 other mem with ⟨low, high, fresh⟩
          exact ⟨low, high, fun before mem => fresh before (by simp [mem])⟩

end Observation

/-- Every line of an observation has its row or its defective row, in the order of the wire, every
number in the range at most one row, and the ranges that are reported are those without one. -/
theorem observation_accounts :
    (∀ (data : List UInt8) (format : OverviewFormat) (startArticle endArticle : ℕ),
      let observed := parseLosslessOverviewRows format startArticle endArticle data
      (∃ lines accounts, Lines data lines ∧
        Accounted format startArticle endArticle [] lines accounts ∧
        observed.rows = accounts.filterMap Sum.getLeft? ∧
        observed.defectiveRows = accounts.filterMap Sum.getRight?) ∧
      (observed.rows.map LosslessOverviewRow.articleNumber).Nodup ∧
      ∀ row ∈ observed.rows, startArticle ≤ row.articleNumber ∧ row.articleNumber ≤ endArticle) ∧
    ∀ (start stop : ℕ) (present : Finset ℕ), ∃ ranges,
      missingRanges start stop present = some ranges ∧ Gaps start (stop + 1) present ranges := by
  refine ⟨fun data format startArticle endArticle => ?_, missingRanges_gaps⟩
  rcases @foldl_addLine_spec format startArticle endArticle (wireLines data) ⟨[], [], ∅⟩ (by simp)
    with ⟨accounts, accounted, rows, defectiveRows⟩
  rcases accounted.rows_distinct with ⟨distinct, inRange⟩
  rw [List.nil_append] at rows defectiveRows
  refine ⟨⟨_, accounts, lines_wireLines data, accounted, rows, defectiveRows⟩, ?_,
    fun row mem => ?_⟩
  · simpa only [parseLosslessOverviewRows, rows] using distinct
  · exact ⟨(inRange row (rows ▸ mem)).1, (inRange row (rows ▸ mem)).2.1⟩

/-- A number that is written with a leading zero comes back without it. -/
theorem not_joins_back : ¬∀ (data : List UInt8) (format : OverviewFormat)
    (startArticle endArticle : ℕ),
    ∀ row ∈ (parseLosslessOverviewRows format startArticle endArticle data).rows,
      row.rejoined ∈ wireLines data := by
  intro joins
  let fields : List (List UInt8) := List.replicate 7 [49]
  have mem := joins ([48, 55] ++ fields.flatMap (tab :: ·) ++ [cr, lf]) ⟨List.replicate 7 [58]⟩ 1 9
    ⟨7, fields⟩ (by decide)
  exact absurd mem (by decide)

section Present

variable {format : OverviewFormat} {startArticle endArticle : ℕ}

/-- `present` of `h_overview_range`. -/
def LosslessOverviewRows.present (observed : LosslessOverviewRows) : Finset ℕ :=
  (observed.rows.map LosslessOverviewRow.articleNumber ++
    observed.defectiveRows.filterMap DefectiveOverviewRow.articleNumber).toFinset

def Progress.observed (state : Progress) : LosslessOverviewRows :=
  ⟨state.rows, state.defectiveRows⟩

theorem mem_present_addLine {state : Progress} {line : List UInt8} {number : ℕ} :
    number ∈ (addLine format startArticle endArticle state line).observed.present ↔
      number ∈ state.observed.present ∨ ∃ count, Tells line number count := by
  obtain ⟨digits, fields, split⟩ := List.exists_cons_of_ne_nil (List.splitOn_ne_nil tab line)
  have told : (∃ count, Tells line number count) ↔ parseAsciiU64 digits = some number := by
    simp [tells_iff split]
  rw [told]
  simp only [addLine, split, List.headD_cons, List.tail_cons, Progress.observed,
    LosslessOverviewRows.present]
  cases parsed : parseAsciiU64 digits with
  | none => simp
  | some other =>
      dsimp only
      split
      · simp [or_comm, eq_comm]
      · split
        · simp [or_comm, eq_comm]
        · split <;> simp [or_comm, eq_comm]

theorem mem_present_iff (data : List UInt8) (number : ℕ) :
    number ∈ (parseLosslessOverviewRows format startArticle endArticle data).present ↔
      ∃ line ∈ wireLines data, ∃ count, Tells line number count := by
  have all : ∀ (lines : List (List UInt8)) (state : Progress),
      number ∈ (lines.foldl (addLine format startArticle endArticle) state).observed.present ↔
        number ∈ state.observed.present ∨ ∃ line ∈ lines, ∃ count, Tells line number count := by
    intro lines
    induction lines with
    | nil => simp
    | cons line lines ih =>
        intro state
        rw [List.foldl_cons, ih, mem_present_addLine]
        simp [or_assoc]
  refine (all (wireLines data) ⟨[], [], ∅⟩).trans ?_
  simp [Progress.observed, LosslessOverviewRows.present]

end Present

/-- What `h_overview_range` reports as missing is exactly what no line tells. -/
theorem missing_iff_untold (format : OverviewFormat) (startArticle endArticle : ℕ)
    (data : List UInt8) : ∃ ranges,
      missingRanges startArticle endArticle
        (parseLosslessOverviewRows format startArticle endArticle data).present = some ranges ∧
      ∀ number, (∃ range ∈ ranges, range.1 ≤ number ∧ number ≤ range.2) ↔
        startArticle ≤ number ∧ number ≤ endArticle ∧
          ∀ line ∈ wireLines data, ∀ count, ¬Tells line number count := by
  rcases missingRanges_gaps startArticle endArticle
    (parseLosslessOverviewRows format startArticle endArticle data).present with
    ⟨ranges, missing, gaps⟩
  refine ⟨ranges, missing, fun number => (gaps.covers number).trans ?_⟩
  rw [mem_present_iff, Nat.lt_succ_iff]
  push Not
  rfl

end Rustnzb.Nntp.Overview
