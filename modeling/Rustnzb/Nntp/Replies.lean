import Rustnzb.Nntp.Framing
import Rustnzb.Nntp.Peer

/-!
# Reading a response

A reader is given the first bytes of what a server owes. Unless it fails, it takes a status line or
a block as a whole and nothing after it; the exception is a status line that the server closes the
connection in, which is read as far as it came.
-/

namespace Rustnzb.Nntp

open Dispatch (NntpError)

theorem splitLine_eq_none {bytes : List UInt8} (noLf : lf ∉ bytes) : splitLine bytes = none := by
  induction bytes with
  | nil => rfl
  | cons byte bytes ih =>
      simp only [List.mem_cons, not_or] at noLf
      simp [splitLine, Ne.symm noLf.1, ih noLf.2]

theorem isTerminator_of_noLf {line : List UInt8} (noLf : lf ∉ line) :
    isTerminator line = false := by
  have : line ≠ dot :: crlf := by
    rintro rfl
    exact noLf (by decide)
  have : line ≠ [dot, lf] := by
    rintro rfl
    exact noLf (by decide)
  simp_all [isTerminator]

theorem toNat_of_isDigit {char : Char} (isDigit : char.isDigit = true) :
    48 ≤ char.toNat ∧ char.toNat ≤ 57 := by
  simp only [Char.isDigit, Bool.and_eq_true, decide_eq_true_eq, ge_iff_le,
    UInt32.le_iff_toNat_le] at isDigit
  exact isDigit

theorem utf8EncodeChar_of_isDigit {char : Char} (isDigit : char.isDigit = true) :
    String.utf8EncodeChar char = [UInt8.ofNat char.toNat] := by
  have small : char.val.toNat ≤ 127 := (toNat_of_isDigit isDigit).2.trans (by omega)
  simp only [String.utf8EncodeChar, if_pos small]
  rfl

theorem ofNat_of_isDigit {char : Char} (isDigit : char.isDigit = true) :
    (48 ≤ UInt8.ofNat char.toNat ∧ UInt8.ofNat char.toNat ≤ 57) ∧
      (UInt8.ofNat char.toNat).toNat = char.toNat := by
  have bounds := toNat_of_isDigit isDigit
  have same : (UInt8.ofNat char.toNat).toNat = char.toNat := by
    rw [UInt8.toNat_ofNat']
    omega
  refine ⟨?_, same⟩
  simp only [UInt8.le_iff_toNat_le, same]
  exact bounds

theorem statusCode_of_parse {text : String} {reply : NntpResponse}
    (parsed : parseResponseLine text = .ok reply) : statusCode (utf8 text) = some reply.code := by
  have isPrefix := List.rdropWhile_prefix (p := fun char => char = '\r' || char = '\n') text.toList
  simp only [parseResponseLine] at parsed
  split at parsed
  · cases parsed
  · split at parsed
    next first second third rest trimmed =>
      split at parsed
      next digits =>
        cases parsed
        rw [trimmed] at isPrefix
        rcases isPrefix with ⟨ending, same⟩
        simp only [Bool.and_eq_true] at digits
        have first' := ofNat_of_isDigit digits.1.1
        have second' := ofNat_of_isDigit digits.1.2
        have third' := ofNat_of_isDigit digits.2
        simp only [utf8, ← same, List.cons_append, List.flatMap_cons,
          utf8EncodeChar_of_isDigit digits.1.1, utf8EncodeChar_of_isDigit digits.1.2,
          utf8EncodeChar_of_isDigit digits.2, List.nil_append, statusCode]
        simp [first', second', third']
      · cases parsed
    · cases parsed

section Readers

variable {given more line : List UInt8} {ending : Ending}

theorem line_of_prefix (noLf : lf ∉ line) (isPrefix : given <+: line ++ lf :: more) :
    (∃ rest, given = line ++ lf :: rest ∧ rest <+: more) ∨
      lf ∉ given ∧ given.length ≤ line.length := by
  rcases Nat.lt_or_ge line.length given.length with longer | short
  · left
    have start : line ++ [lf] <+: given := by
      apply List.prefix_of_prefix_length_le _ isPrefix
      · simpa using longer
      · exact ⟨more, by simp⟩
    rcases start with ⟨rest, rfl⟩
    refine ⟨rest, by simp, ?_⟩
    simpa using isPrefix
  · right
    have start : given <+: line :=
      List.prefix_of_prefix_length_le isPrefix (List.prefix_append _ _) short
    exact ⟨fun mem => noLf (start.subset mem), short⟩

theorem terminator_of_prefix (isPrefix : given <+: ended [] ++ (dot :: crlf ++ more)) :
    (∃ rest, given = ended [] ++ (dot :: crlf ++ rest)) ∨ lf ∉ given := by
  have noLf : lf ∉ [dot, cr] := by decide
  rcases line_of_prefix noLf isPrefix with ⟨rest, same, -⟩ | ⟨noLf, -⟩
  · exact .inl ⟨rest, same⟩
  · exact .inr noLf

theorem readLineBytes_of_noLf (noLf : lf ∉ given) (ending : Ending) :
    Incoming.readLineBytes { bytes := given, ending := ending } =
      (match ending with
        | .closed => .ok given
        | .broken message => .error (.io message)
        | .silent => .error .elapsed,
      { bytes := [], ending := ending }) := by
  simp only [Incoming.readLineBytes, splitLine_eq_none noLf]
  cases ending <;> rfl

theorem drained_of_noLf (noLf : lf ∉ given) {rest : Incoming}
    (read : Incoming.readLineBytes { bytes := given, ending := ending } = (.ok line, rest)) :
    line = given ∧ rest = { bytes := [], ending := ending } := by
  rw [readLineBytes_of_noLf noLf, Prod.mk.injEq] at read
  cases ending with
  | closed => exact ⟨(Except.ok.inj read.1).symm, read.2.symm⟩
  | broken message => cases read.1
  | silent => cases read.1

/-- The reply of the bytes of a status line. -/
def parseLineBytes (line : List UInt8) : Except NntpError NntpResponse :=
  match String.fromUTF8? ⟨line.toArray⟩ with
  | none => .error (.io "stream did not contain valid UTF-8")
  | some text => parseResponseLine text

theorem readResponseLine_of_line (noLf : lf ∉ line) (rest : List UInt8) :
    Incoming.readResponseLine { bytes := line ++ lf :: rest, ending := ending } =
      (parseLineBytes (line ++ [lf]), { bytes := rest, ending := ending }) := by
  have notEmpty : line ++ [lf] ≠ [] := by simp
  simp only [Incoming.readResponseLine, Incoming.readLineBytes_of_line rest ending noLf,
    if_neg notEmpty, parseLineBytes]
  generalize String.fromUTF8? _ = decoded
  cases decoded <;> rfl

theorem readResponseLine_ok {response : Response} {reply : NntpResponse} {left : Incoming}
    (isPrefix : given <+: response.status ++ lf :: more)
    (read : Incoming.readResponseLine { bytes := given, ending := ending } = (.ok reply, left)) :
    (given = response.status ++ lf :: left.bytes ∧ response.code = some reply.code) ∨
      ending = .closed ∧ given ≠ [] ∧ given.length ≤ response.status.length := by
  rcases line_of_prefix response.oneLine isPrefix with ⟨rest, rfl, -⟩ | ⟨noLf, short⟩
  · left
    rw [readResponseLine_of_line response.oneLine] at read
    injection read with parsed same
    simp only [parseLineBytes] at parsed
    split at parsed
    · cases parsed
    next text decoded =>
      rw [← same]
      refine ⟨rfl, ?_⟩
      rw [Response.code, ← utf8_of_fromUTF8? decoded]
      exact statusCode_of_parse parsed
  · right
    simp only [Incoming.readResponseLine, readLineBytes_of_noLf noLf ending] at read
    cases ending with
    | closed =>
        refine ⟨rfl, ?_, short⟩
        rintro rfl
        revert read
        dsimp only
        split <;> simp
    | broken message => simp at read
    | silent => simp at read

theorem readBodyLoop_of_line (noLf : lf ∉ line) (goesOn : isTerminator (line ++ [lf]) = false)
    (maxBytes : Option ℕ) (out rest : List UInt8) :
    Incoming.readBodyLoop maxBytes out { bytes := line ++ lf :: rest, ending := ending } =
      if maxBytes.any fun maximum => maximum < out.length + (unstuff (line ++ [lf])).length then
        (.error (.responseTooLarge "multi-line response exceeds its byte bound"),
          { bytes := rest, ending := ending })
      else
        Incoming.readBodyLoop maxBytes (out ++ unstuff (line ++ [lf]))
          { bytes := rest, ending := ending } := by
  have read := Incoming.readLineBytes_of_line rest ending noLf
  have notEmpty : line ++ [lf] ≠ [] := by simp
  rw [Incoming.readBodyLoop]
  split
  next failed => exact absurd (read.symm.trans failed) (by simp)
  next failed => exact absurd (read.symm.trans failed) (by simp)
  next found =>
    cases read.symm.trans found
    simp only [notEmpty, goesOn, dite_false, Bool.false_eq_true, if_false]

theorem readBodyLoop_nil (maxBytes : Option ℕ) (out : List UInt8) (ending : Ending) :
    ∃ e, (Incoming.readBodyLoop maxBytes out { bytes := [], ending := ending }).1 = .error e := by
  rw [Incoming.readBodyLoop]
  split
  · exact ⟨_, rfl⟩
  · exact ⟨_, rfl⟩
  next found => simp [(drained_of_noLf List.not_mem_nil found).1]

theorem readBodyLoop_of_noLf (noLf : lf ∉ given) (maxBytes : Option ℕ) (out : List UInt8)
    (ending : Ending) :
    ∃ e, (Incoming.readBodyLoop maxBytes out { bytes := given, ending := ending }).1 =
      .error e := by
  rw [Incoming.readBodyLoop]
  split
  · exact ⟨_, rfl⟩
  · exact ⟨_, rfl⟩
  next found =>
    have ⟨same, drained⟩ := drained_of_noLf noLf found
    subst same drained
    split
    · exact ⟨_, rfl⟩
    · rw [isTerminator_of_noLf noLf, if_neg Bool.false_ne_true]
      split
      · exact ⟨_, rfl⟩
      · exact readBodyLoop_nil maxBytes _ _

variable {block : List (List UInt8)}

theorem readBodyLoop_ok {maxBytes : Option ℕ} {out data : List UInt8} {left : Incoming}
    (lines : ∀ line ∈ block, lf ∉ line ∧ isTerminator (line ++ [lf]) = false)
    (isPrefix : given <+: ended block ++ (dot :: crlf ++ more))
    (read : Incoming.readBodyLoop maxBytes out { bytes := given, ending := ending } =
      (.ok data, left)) : given = ended block ++ (dot :: crlf ++ left.bytes) := by
  induction block generalizing given out with
  | nil =>
      rcases terminator_of_prefix isPrefix with ⟨rest, rfl⟩ | noLf
      · rw [ended_nil, List.nil_append, readBodyLoop_terminator] at read
        cases read
        rfl
      · rcases readBodyLoop_of_noLf noLf maxBytes out ending with ⟨e, failed⟩
        rw [read] at failed
        cases failed
  | cons line block ih =>
      simp only [List.mem_cons, forall_eq_or_imp] at lines
      rcases lines with ⟨⟨noLf, goesOn⟩, lines⟩
      simp only [ended_cons, List.append_assoc, List.cons_append] at isPrefix ih ⊢
      rcases line_of_prefix noLf isPrefix with ⟨rest, rfl, further⟩ | ⟨noLf, -⟩
      · rw [readBodyLoop_of_line noLf goesOn] at read
        split at read
        · cases read
        · rw [ih lines further read]
      · rcases readBodyLoop_of_noLf noLf maxBytes out ending with ⟨e, failed⟩
        rw [read] at failed
        cases failed

theorem readBodyLoop_of_block (lines : ∀ line ∈ block, lf ∉ line ∧
    isTerminator (line ++ [lf]) = false) (out rest : List UInt8) (ending : Ending) :
    ∃ data, Incoming.readBodyLoop none out
      { bytes := ended block ++ (dot :: crlf ++ rest), ending := ending } =
        (.ok data, { bytes := rest, ending := ending }) := by
  induction block generalizing out with
  | nil => exact ⟨out, readBodyLoop_terminator none out⟩
  | cons line block ih =>
      simp only [List.mem_cons, forall_eq_or_imp] at lines
      rcases lines with ⟨⟨noLf, goesOn⟩, lines⟩
      rw [ended_cons, List.append_assoc, List.cons_append, readBodyLoop_of_line noLf goesOn]
      exact ih lines _

theorem readPrefixLoop_of_line (noLf : lf ∉ line) (goesOn : isTerminator (line ++ [lf]) = false)
    (maxBytes : ℕ) (data rest : List UInt8) :
    (∃ reply, Incoming.readPrefixLoop maxBytes data
        { bytes := line ++ lf :: rest, ending := ending } =
          (reply, { bytes := rest, ending := ending }) ∧
        ∀ shown, reply = .ok shown → shown.complete = false) ∨
      ∃ more, Incoming.readPrefixLoop maxBytes data
          { bytes := line ++ lf :: rest, ending := ending } =
        Incoming.readPrefixLoop maxBytes more { bytes := rest, ending := ending } := by
  have read := Incoming.readLineBytes_of_line rest ending noLf
  have notEmpty : line ++ [lf] ≠ [] := by simp
  rw [Incoming.readPrefixLoop]
  split
  next failed => exact absurd (read.symm.trans failed) (by simp)
  next failed => exact absurd (read.symm.trans failed) (by simp)
  next found =>
    cases read.symm.trans found
    simp only [notEmpty, goesOn, dite_false, Bool.false_eq_true, if_false]
    split
    · exact .inl ⟨_, rfl, by simp⟩
    · split
      · exact .inl ⟨_, rfl, by simp⟩
      · exact .inr ⟨_, rfl⟩

theorem readPrefixLoop_nil (maxBytes : ℕ) (data : List UInt8) (ending : Ending) :
    ∃ e, (Incoming.readPrefixLoop maxBytes data { bytes := [], ending := ending }).1 =
      .error e := by
  rw [Incoming.readPrefixLoop]
  split
  · exact ⟨_, rfl⟩
  · exact ⟨_, rfl⟩
  next found => simp [(drained_of_noLf List.not_mem_nil found).1]

theorem readPrefixLoop_of_noLf (noLf : lf ∉ given) {maxBytes : ℕ} {data : List UInt8}
    {shown : BodyPrefixResponse} {left : Incoming}
    (read : Incoming.readPrefixLoop maxBytes data { bytes := given, ending := ending } =
      (.ok shown, left)) : shown.complete = false := by
  rw [Incoming.readPrefixLoop] at read
  split at read
  · cases read
  · cases read
  next found =>
    have ⟨same, drained⟩ := drained_of_noLf noLf found
    subst same drained
    split at read
    · cases read
    · rw [isTerminator_of_noLf noLf, if_neg Bool.false_ne_true] at read
      split at read
      · cases read
      · dsimp only at read
        split at read
        · cases read
          rfl
        · rcases readPrefixLoop_nil maxBytes _ ending with ⟨e, failed⟩
          rw [read] at failed
          cases failed

theorem readPrefixLoop_ok {maxBytes : ℕ} {data : List UInt8} {shown : BodyPrefixResponse}
    {left : Incoming} (lines : ∀ line ∈ block, lf ∉ line ∧ isTerminator (line ++ [lf]) = false)
    (isPrefix : given <+: ended block ++ (dot :: crlf ++ more))
    (read : Incoming.readPrefixLoop maxBytes data { bytes := given, ending := ending } =
      (.ok shown, left)) (complete : shown.complete = true) :
    given = ended block ++ (dot :: crlf ++ left.bytes) := by
  induction block generalizing given data with
  | nil =>
      rcases terminator_of_prefix isPrefix with ⟨rest, rfl⟩ | noLf
      · rw [ended_nil, List.nil_append, readPrefixLoop_terminator] at read
        cases read
        rfl
      · simp [readPrefixLoop_of_noLf noLf read] at complete
  | cons line block ih =>
      simp only [List.mem_cons, forall_eq_or_imp] at lines
      rcases lines with ⟨⟨noLf, goesOn⟩, lines⟩
      simp only [ended_cons, List.append_assoc, List.cons_append] at isPrefix ih ⊢
      rcases line_of_prefix noLf isPrefix with ⟨rest, rfl, further⟩ | ⟨noLf, -⟩
      · rcases readPrefixLoop_of_line noLf goesOn maxBytes data rest with
          ⟨reply, stopped, cut⟩ | ⟨more, went⟩
        · rw [read] at stopped
          cases stopped
          simp [cut shown rfl] at complete
        · rw [went] at read
          rw [ih lines further read]
      · simp [readPrefixLoop_of_noLf noLf read] at complete

end Readers

end Rustnzb.Nntp
