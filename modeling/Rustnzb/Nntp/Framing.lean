import Rustnzb.Nntp.Wire

/-!
# The framing of multi-line bodies

An article is a list of lines without LF. What is posted is one stuffed line after the other and a
lone dot; no stuffed line is a lone dot, and undoing the stuffing gives the line back, so every
reader stops where the writer did.
-/

namespace Rustnzb.Nntp

open Dispatch (NntpError)

def articleOf (lines : List (List UInt8)) : List UInt8 :=
  lines.flatMap fun line => line ++ crlf

@[simp] theorem articleOf_nil : articleOf [] = [] := rfl

@[simp] theorem articleOf_cons (line : List UInt8) (lines : List (List UInt8)) :
    articleOf (line :: lines) = line ++ crlf ++ articleOf lines := by
  simp [articleOf]

section Line

variable {line : List UInt8}

def stuffed (line : List UInt8) : List UInt8 :=
  (if [dot].isPrefixOf line then [dot] else []) ++ line ++ [cr]

theorem stuff_eq (line : List UInt8) : stuff line = stuffed line ++ [lf] := by
  simp [stuff, stuffed, crlf]

theorem lf_notMem_stuffed (noLf : lf ∉ line) : lf ∉ stuffed line := by
  simp only [stuffed, List.mem_append, List.mem_singleton, not_or]
  refine ⟨⟨?_, noLf⟩, by decide⟩
  split <;> simp [dot, lf]

theorem stuff_ne_nil (line : List UInt8) : stuff line ≠ [] := by
  simp [stuff_eq]

theorem isTerminator_stuff (line : List UInt8) : isTerminator (stuff line) = false := by
  rcases line with _ | ⟨byte, line⟩
  · decide
  · by_cases isDot : byte = dot
    · subst isDot
      cases line <;> simp [isTerminator, stuff, crlf, dot, cr, lf]
    · have notDot : ¬dot = byte := Ne.symm isDot
      simp [isTerminator, stuff, crlf, isDot, notDot]

theorem unstuff_stuff (line : List UInt8) : unstuff (stuff line) = line ++ crlf := by
  rcases line with _ | ⟨byte, line⟩
  · decide
  · by_cases isDot : byte = dot
    · subst isDot
      simp [unstuff, stuff]
    · have notDot : ¬dot = byte := Ne.symm isDot
      simp [unstuff, stuff, notDot]

theorem stripCr_append (line : List UInt8) : stripCr (line ++ [cr]) = line := by
  simp [stripCr]

theorem readLineBytes_stuff (noLf : lf ∉ line) (rest : List UInt8) (ending : Ending) :
    Incoming.readLineBytes { bytes := stuff line ++ rest, ending := ending } =
      (.ok (stuff line), { bytes := rest, ending := ending }) := by
  have read := Incoming.readLineBytes_of_line rest ending (lf_notMem_stuffed noLf)
  simpa [stuff_eq] using read

theorem readLineBytes_terminator (rest : List UInt8) (ending : Ending) :
    Incoming.readLineBytes { bytes := dot :: crlf ++ rest, ending := ending } =
      (.ok (dot :: crlf), { bytes := rest, ending := ending }) :=
  Incoming.readLineBytes_of_line rest ending (by decide : lf ∉ [dot, cr])

end Line

theorem postBody_articleOf {lines : List (List UInt8)} (noLf : ∀ line ∈ lines, lf ∉ line) :
    postBody (articleOf lines) = lines.flatMap stuff ++ dot :: crlf := by
  suffices postLines (articleOf lines) = lines.flatMap stuff by rw [postBody, this]
  induction lines with
  | nil => simp [postLines, splitLine]
  | cons line lines ih =>
      simp only [List.mem_cons, forall_eq_or_imp] at noLf
      have noLf' : lf ∉ line ++ [cr] := by simpa [cr, lf] using noLf.1
      have split := splitLine_append noLf' (articleOf lines)
      have article : articleOf (line :: lines) = line ++ [cr] ++ lf :: articleOf lines := by
        simp [crlf]
      rw [article, postLines]
      split
      next found =>
        rw [split] at found
        cases found
        rw [List.dropLast_concat, stripCr_append, ih noLf.2, List.flatMap_cons]
      next found => exact absurd (split.symm.trans found) (by simp)

section Readers

variable {lines : List (List UInt8)} {rest : List UInt8} {ending : Ending}

theorem readBodyLoop_terminator (maxBytes : Option ℕ) (out : List UInt8) :
    Incoming.readBodyLoop maxBytes out { bytes := dot :: crlf ++ rest, ending := ending } =
      (.ok out, { bytes := rest, ending := ending }) := by
  have read := readLineBytes_terminator rest ending
  rw [Incoming.readBodyLoop]
  split
  next failed => exact absurd (read.symm.trans failed) (by simp)
  next failed => exact absurd (read.symm.trans failed) (by simp)
  next found =>
    cases read.symm.trans found
    simp [isTerminator]

theorem readBodyLoop_stuff {line : List UInt8} (noLf : lf ∉ line) (maxBytes : Option ℕ)
    (out : List UInt8) :
    Incoming.readBodyLoop maxBytes out { bytes := stuff line ++ rest, ending := ending } =
      if maxBytes.any fun maximum => maximum < out.length + (line ++ crlf).length then
        (.error (.responseTooLarge "multi-line response exceeds its byte bound"),
          { bytes := rest, ending := ending })
      else
        Incoming.readBodyLoop maxBytes (out ++ (line ++ crlf))
          { bytes := rest, ending := ending } := by
  rw [Incoming.readBodyLoop]
  have read := readLineBytes_stuff noLf rest ending
  split
  next failed => exact absurd (read.symm.trans failed) (by simp)
  next failed => exact absurd (read.symm.trans failed) (by simp)
  next found =>
    cases read.symm.trans found
    simp [stuff_ne_nil, isTerminator_stuff, unstuff_stuff]

variable (rest ending) in
theorem readBodyLoop_article (noLf : ∀ line ∈ lines, lf ∉ line) (maxBytes : Option ℕ)
    (out : List UInt8) (fits : maxBytes.all fun maximum => out.length ≤ maximum) :
    (maxBytes.all (fun maximum => out.length + (articleOf lines).length ≤ maximum) = true →
      Incoming.readBodyLoop maxBytes out
        { bytes := lines.flatMap stuff ++ (dot :: crlf ++ rest), ending := ending } =
          (.ok (out ++ articleOf lines), { bytes := rest, ending := ending })) ∧
    (maxBytes.all (fun maximum => out.length + (articleOf lines).length ≤ maximum) = false →
      (Incoming.readBodyLoop maxBytes out
        { bytes := lines.flatMap stuff ++ (dot :: crlf ++ rest), ending := ending }).1 =
          .error (.responseTooLarge "multi-line response exceeds its byte bound")) := by
  induction lines generalizing out with
  | nil =>
      refine ⟨fun _ => by simpa using readBodyLoop_terminator maxBytes out, fun tooLong => ?_⟩
      simp [fits] at tooLong
  | cons line lines ih =>
      simp only [List.mem_cons, forall_eq_or_imp] at noLf
      rw [List.flatMap_cons, List.append_assoc, readBodyLoop_stuff noLf.1]
      cases maxBytes with
      | none =>
          have rest := ih noLf.2 (out ++ (line ++ crlf)) (by simp)
          simpa using rest
      | some maximum =>
          simp only [Option.any_some, Option.all_some, decide_eq_true_eq, decide_eq_false_iff_not,
            articleOf_cons, List.length_append] at ih fits ⊢
          split
          next tooLong =>
            refine ⟨fun short => ?_, fun _ => rfl⟩
            omega
          next short =>
            have longer : (out ++ (line ++ crlf)).length =
                out.length + (line.length + crlf.length) := by simp
            have rest := ih noLf.2 (out ++ (line ++ crlf)) (by omega)
            simp only [List.length_append, List.append_assoc] at rest ⊢
            constructor
            · intro fits
              exact rest.1 (by omega)
            · intro tooLong
              exact rest.2 (by omega)

theorem readMultilineBody_postBody (noLf : ∀ line ∈ lines, lf ∉ line) :
    Incoming.readMultilineBody { bytes := postBody (articleOf lines) ++ rest, ending := ending } =
      (.ok (articleOf lines), { bytes := rest, ending := ending }) := by
  rw [postBody_articleOf noLf, List.append_assoc]
  simpa [Incoming.readMultilineBody] using
    (readBodyLoop_article rest ending noLf none [] (by simp)).1

/-- The lines that a prefix read looks at are short enough for it, as they were sent. -/
def ShortUpTo (maxBytes : ℕ) (lines : List (List UInt8)) : Prop :=
  ∀ before line after, lines = before ++ line :: after →
    before = [] ∨ (articleOf before).length < maxBytes → (stuff line).length ≤ maxPrefixLine

theorem shortUpTo_cons {maxBytes : ℕ} {line : List UInt8} : ShortUpTo maxBytes (line :: lines) ↔
    (stuff line).length ≤ maxPrefixLine ∧
      ((line ++ crlf).length < maxBytes → ShortUpTo (maxBytes - (line ++ crlf).length) lines) := by
  constructor
  · intro short
    refine ⟨short [] line lines rfl (Or.inl rfl), fun further before next after split reached => ?_⟩
    apply short (line :: before) next after (by simp [split])
    right
    rw [articleOf_cons, List.length_append]
    rcases reached with rfl | reached
    · simpa using further
    · omega
  · rintro ⟨first, others⟩ before next after split reached
    cases before with
    | nil =>
        simp only [List.nil_append, List.cons.injEq] at split
        rwa [← split.1]
    | cons head before =>
        simp only [List.cons_append, List.cons.injEq] at split
        rcases split with ⟨rfl, split⟩
        have further := reached.resolve_left (by simp)
        rw [articleOf_cons, List.length_append] at further
        exact others (by omega) before next after split (Or.inr (by omega))

theorem readPrefixLoop_stuff {line : List UInt8} (noLf : lf ∉ line) (maxBytes : ℕ)
    (data : List UInt8) :
    Incoming.readPrefixLoop maxBytes data { bytes := stuff line ++ rest, ending := ending } =
      if maxPrefixLine < (stuff line).length then
        (.error (.responseTooLarge "BODY prefix line exceeds its byte bound"),
          { bytes := rest, ending := ending })
      else if maxBytes - data.length < (line ++ crlf).length ∨
          (data ++ (line ++ crlf).take (maxBytes - data.length)).length = maxBytes then
        (.ok { data := data ++ (line ++ crlf).take (maxBytes - data.length), complete := false },
          { bytes := rest, ending := ending })
      else
        Incoming.readPrefixLoop maxBytes (data ++ (line ++ crlf).take (maxBytes - data.length))
          { bytes := rest, ending := ending } := by
  have read := readLineBytes_stuff noLf rest ending
  have take : (line ++ crlf).take (min (line ++ crlf).length (maxBytes - data.length)) =
      (line ++ crlf).take (maxBytes - data.length) := by
    rw [min_comm, ← List.take_take, List.take_length]
  rw [Incoming.readPrefixLoop]
  split
  next failed => exact absurd (read.symm.trans failed) (by simp)
  next failed => exact absurd (read.symm.trans failed) (by simp)
  next found =>
    cases read.symm.trans found
    simp only [stuff_ne_nil, isTerminator_stuff, unstuff_stuff, take, dite_false,
      Bool.false_eq_true, if_false, Bool.or_eq_true, decide_eq_true_eq]

theorem readPrefixLoop_terminator (maxBytes : ℕ) (data : List UInt8) :
    Incoming.readPrefixLoop maxBytes data { bytes := dot :: crlf ++ rest, ending := ending } =
      (.ok { data := data, complete := true }, { bytes := rest, ending := ending }) := by
  have read := readLineBytes_terminator rest ending
  rw [Incoming.readPrefixLoop]
  split
  next failed => exact absurd (read.symm.trans failed) (by simp)
  next failed => exact absurd (read.symm.trans failed) (by simp)
  next found =>
    cases read.symm.trans found
    simp [isTerminator]

variable (rest ending) in
theorem readPrefixLoop_article (noLf : ∀ line ∈ lines, lf ∉ line) (maxBytes : ℕ)
    (data : List UInt8) (fits : data.length ≤ maxBytes) :
    (ShortUpTo (maxBytes - data.length) lines →
      ∃ complete left, Incoming.readPrefixLoop maxBytes data
          { bytes := lines.flatMap stuff ++ (dot :: crlf ++ rest), ending := ending } =
        (.ok {
          data := data ++ (articleOf lines).take (maxBytes - data.length)
          complete := complete }, left) ∧
        (complete = true → left = { bytes := rest, ending := ending })) ∧
    (¬ShortUpTo (maxBytes - data.length) lines →
      (Incoming.readPrefixLoop maxBytes data
        { bytes := lines.flatMap stuff ++ (dot :: crlf ++ rest), ending := ending }).1 =
          .error (.responseTooLarge "BODY prefix line exceeds its byte bound")) := by
  induction lines generalizing data with
  | nil =>
      constructor
      · intro _
        exact ⟨true, _, by simpa using readPrefixLoop_terminator maxBytes data, fun _ => rfl⟩
      · intro long
        exact absurd (by simp [ShortUpTo]) long
  | cons line lines ih =>
      simp only [List.mem_cons, forall_eq_or_imp] at noLf
      rw [List.flatMap_cons, List.append_assoc, readPrefixLoop_stuff noLf.1, shortUpTo_cons]
      by_cases tooLong : maxPrefixLine < (stuff line).length
      · rw [if_pos tooLong]
        exact ⟨fun short => absurd short.1 (by omega), fun _ => rfl⟩
      · rw [if_neg tooLong]
        by_cases full : maxBytes - data.length ≤ (line ++ crlf).length
        · -- the line fills the prefix
          have stops : maxBytes - data.length < (line ++ crlf).length ∨
              (data ++ (line ++ crlf).take (maxBytes - data.length)).length = maxBytes := by
            right
            rw [List.length_append, List.length_take]
            omega
          rw [if_pos stops]
          constructor
          · intro _
            rw [articleOf_cons, List.take_append_of_le_length full]
            exact ⟨false, _, rfl, fun isTrue => absurd isTrue (by simp)⟩
          · intro long
            exact absurd ⟨by omega, fun further => by omega⟩ long
        · have all : (line ++ crlf).take (maxBytes - data.length) = line ++ crlf :=
            List.take_of_length_le (by omega)
          have longer : (data ++ (line ++ crlf)).length = data.length + (line ++ crlf).length :=
            List.length_append
          have goesOn : ¬(maxBytes - data.length < (line ++ crlf).length ∨
              (data ++ (line ++ crlf)).length = maxBytes) := by omega
          rw [all, if_neg goesOn]
          have others := ih noLf.2 (data ++ (line ++ crlf)) (by omega)
          have left : maxBytes - (data ++ (line ++ crlf)).length =
              maxBytes - data.length - (line ++ crlf).length := by omega
          have taken : data ++ (articleOf (line :: lines)).take (maxBytes - data.length) =
              data ++ (line ++ crlf) ++ (articleOf lines).take
                (maxBytes - data.length - (line ++ crlf).length) := by
            rw [articleOf_cons, List.take_append, all]
            simp only [List.append_assoc]
          rw [left] at others
          rw [taken]
          constructor
          · intro short
            exact others.1 (short.2 (by omega))
          · intro long
            apply others.2
            intro short
            exact long ⟨by omega, fun _ => short⟩

end Readers

def readBodies : ℕ → Incoming → List (Except NntpError (List UInt8)) × Incoming
  | 0, incoming => ([], incoming)
  | count + 1, incoming =>
      let (body, rest) := incoming.readMultilineBody
      let (bodies, left) := readBodies count rest
      (body :: bodies, left)

/-- The bodies posted one after another are read back one after another, by each of the readers. -/
theorem framing_round_trip (articles : List (List (List UInt8))) (rest : List UInt8)
    (ending : Ending) (noLf : ∀ lines ∈ articles, ∀ line ∈ lines, lf ∉ line) :
    readBodies articles.length
        { bytes := (articles.flatMap fun lines => postBody (articleOf lines)) ++ rest
          ending := ending } =
      (articles.map fun lines => .ok (articleOf lines), { bytes := rest, ending := ending }) ∧
    ∀ lines ∈ articles, ∀ maxBytes,
      ((articleOf lines).length ≤ maxBytes →
        Incoming.readMultilineBodyBounded
            { bytes := postBody (articleOf lines) ++ rest, ending := ending } maxBytes =
          (.ok (articleOf lines), { bytes := rest, ending := ending })) ∧
      (maxBytes < (articleOf lines).length →
        (Incoming.readMultilineBodyBounded
            { bytes := postBody (articleOf lines) ++ rest, ending := ending } maxBytes).1 =
          .error (.responseTooLarge "multi-line response exceeds its byte bound")) ∧
      (ShortUpTo maxBytes lines →
        ∃ complete left, Incoming.readMultilineBodyPrefix
            { bytes := postBody (articleOf lines) ++ rest, ending := ending } maxBytes =
          (.ok { data := (articleOf lines).take maxBytes, complete := complete }, left) ∧
          (complete = true → left = { bytes := rest, ending := ending })) ∧
      (¬ShortUpTo maxBytes lines →
        (Incoming.readMultilineBodyPrefix
            { bytes := postBody (articleOf lines) ++ rest, ending := ending } maxBytes).1 =
          .error (.responseTooLarge "BODY prefix line exceeds its byte bound")) := by
  constructor
  · induction articles with
    | nil => rfl
    | cons lines articles ih =>
        simp only [List.mem_cons, forall_eq_or_imp] at noLf
        simp only [List.flatMap_cons, List.append_assoc, List.length_cons, readBodies,
          readMultilineBody_postBody noLf.1, ih noLf.2, List.map_cons]
  · intro lines linesMem maxBytes
    have noLf := noLf lines linesMem
    rw [postBody_articleOf noLf, List.append_assoc]
    have bounded := readBodyLoop_article rest ending noLf (some maxBytes) []
      (by simp)
    have short := readPrefixLoop_article rest ending noLf maxBytes [] (by simp)
    simp only [Option.all_some, List.length_nil, zero_add, decide_eq_true_eq,
      decide_eq_false_iff_not, not_le, List.nil_append] at bounded
    simp only [List.length_nil, Nat.sub_zero, List.nil_append] at short
    exact ⟨bounded.1, bounded.2, short.1, short.2⟩

/-- An article of two dot lines, an empty article, and bytes of the next response. -/
theorem framing_round_trip_dots :
    readBodies 2
        { bytes :=
            ([[[dot], [dot, dot]], []].flatMap fun lines => postBody (articleOf lines)) ++ [50]
          ending := .closed } =
      ([.ok [dot, cr, lf, dot, dot, cr, lf], .ok []], { bytes := [50], ending := .closed }) ∧
    (Incoming.readMultilineBodyBounded
        { bytes := postBody (articleOf [[dot], [dot, dot]]) ++ [50], ending := .closed } 6).1 =
      .error (.responseTooLarge "multi-line response exceeds its byte bound") := by
  have roundTrip := framing_round_trip [[[dot], [dot, dot]], []] [50] .closed (by decide)
  exact ⟨roundTrip.1, (roundTrip.2 [[dot], [dot, dot]] (by simp) 6).2.1 (by decide)⟩

/-- One line longer than a prefix read accepts, of which one byte is asked for. -/
theorem not_prefix_of_long_line : ¬∀ (lines : List (List UInt8)) (maxBytes : ℕ)
    (rest : List UInt8) (ending : Ending), (∀ line ∈ lines, lf ∉ line) →
    ∃ complete left, Incoming.readMultilineBodyPrefix
        { bytes := postBody (articleOf lines) ++ rest, ending := ending } maxBytes =
      (.ok { data := (articleOf lines).take maxBytes, complete := complete }, left) := by
  intro reads
  let line : List UInt8 := List.replicate maxPrefixLine 65
  have noLf : ∀ other ∈ [line], lf ∉ other := by
    simp [line, lf]
  have long : ¬ShortUpTo 1 [line] := by
    intro short
    have := short [] line [] rfl (Or.inl rfl)
    simp [stuff_eq, stuffed, line] at this
    omega
  rcases reads [line] 1 [] .closed noLf with ⟨complete, left, read⟩
  have failed := (readPrefixLoop_article [] .closed noLf 1 [] (by simp)).2 long
  rw [postBody_articleOf noLf, List.append_assoc, Incoming.readMultilineBodyPrefix] at read
  exact absurd (congrArg Prod.fst read.symm |>.trans failed) (by simp)

end Rustnzb.Nntp
