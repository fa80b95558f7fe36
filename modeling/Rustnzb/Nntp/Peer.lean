import Rustnzb.Nntp.Wire

/-!
# The server at the other end of a connection

The server takes bytes, answers each command line it has seen the LF of with one response, and owes
the bytes of its responses until they are read. The line it answered 340 to a POST with opens an
article: what follows is taken up to a lone dot and answered once more.
-/

namespace Rustnzb.Nntp

def utf8 (text : String) : List UInt8 := text.toList.flatMap String.utf8EncodeChar

theorem lf_ne_ofNat {number : ℕ} (notTen : number % 256 ≠ 10) : lf ≠ UInt8.ofNat number := by
  intro same
  have := congrArg UInt8.toNat same
  exact notTen (by simpa [lf] using this.symm)

theorem lf_notMem_utf8EncodeChar {char : Char} (notLf : char ≠ '\n') :
    lf ∉ String.utf8EncodeChar char := by
  have notTen : char.val.toNat ≠ 10 := by
    intro isTen
    exact notLf (Char.ext (UInt32.toNat_inj.mp isTen))
  simp only [String.utf8EncodeChar]
  -- every byte of a longer encoding is at least 128
  split
  · simp (disch := omega) only [List.mem_singleton, lf_ne_ofNat, not_false_eq_true]
  · split
    · simp (disch := omega) only [List.mem_cons, List.not_mem_nil, lf_ne_ofNat, or_false,
        not_false_eq_true]
    · split <;>
        simp (disch := omega) only [List.mem_cons, List.not_mem_nil, lf_ne_ofNat, or_false,
          not_false_eq_true]

def OneLine (text : String) : Prop := '\n' ∉ text.toList

instance (text : String) : Decidable (OneLine text) := inferInstanceAs (Decidable (_ ∉ _))

theorem OneLine.lf_notMem {text : String} (oneLine : OneLine text) : lf ∉ utf8 text := by
  intro mem
  rcases List.mem_flatMap.mp mem with ⟨char, charMem, byteMem⟩
  apply lf_notMem_utf8EncodeChar _ byteMem
  rintro rfl
  exact oneLine charMem

theorem OneLine.append {text other : String} (oneLine : OneLine text) (oneLine' : OneLine other) :
    OneLine (text ++ other) := by
  simpa [OneLine] using ⟨oneLine, oneLine'⟩

theorem oneLine_toString (number : ℕ) : OneLine (toString number) := by
  intro mem
  have isDigit := Nat.isDigit_of_mem_toDigits (by omega) (by omega)
    (by simpa [toString, Nat.repr] using mem : '\n' ∈ Nat.toDigits 10 number)
  simp at isDigit

theorem utf8_of_fromUTF8? {bytes : List UInt8} {text : String}
    (decoded : String.fromUTF8? ⟨bytes.toArray⟩ = some text) : utf8 text = bytes := by
  unfold String.fromUTF8? at decoded
  split at decoded
  next valid =>
    cases decoded
    have same := String.utf8Encode_toList (b := String.ofByteArray ⟨bytes.toArray⟩ valid)
    have := congrArg (fun bytes => bytes.data.toList) same
    simpa [List.utf8Encode, utf8, String.fromUTF8] using this
  · cases decoded

def carriesBlock (code : ℕ) : Bool :=
  code ∈ [100, 101, 202, 215, 220, 221, 222, 224, 225, 230, 231]

def statusCode : List UInt8 → Option ℕ
  | first :: second :: third :: _ =>
      if [first, second, third].all fun byte => 48 ≤ byte && byte ≤ 57 then
        some ([first, second, third].foldl (fun acc byte => acc * 10 + (byte.toNat - 48)) 0)
      else none
  | _ => none

def ended (lines : List (List UInt8)) : List UInt8 := lines.flatMap fun line => line ++ [lf]

@[simp] theorem ended_nil : ended [] = [] := rfl

@[simp] theorem ended_cons (line : List UInt8) (lines : List (List UInt8)) :
    ended (line :: lines) = line ++ lf :: ended lines := by
  simp [ended]

/-- A response of a server: its status line, and the lines of the block that follows it when the
code carries one. -/
structure Response where
  status : List UInt8
  block : List (List UInt8)
  oneLine : lf ∉ status
  lines : ∀ line ∈ block, lf ∉ line ∧ isTerminator (line ++ [lf]) = false

namespace Response

def code (response : Response) : Option ℕ := statusCode (response.status ++ [lf])

def hasBlock (response : Response) : Bool := response.code.any carriesBlock

def blockBytes (response : Response) : List UInt8 :=
  if response.hasBlock then ended response.block ++ dot :: crlf else []

def bytes (response : Response) : List UInt8 := response.status ++ lf :: response.blockBytes

theorem blockBytes_eq_nil {response : Response} (noBlock : response.hasBlock = false) :
    response.blockBytes = [] := by
  simp [blockBytes, noBlock]

end Response

structure Wire where
  unended : List UInt8
  posting : Bool
  pending : List UInt8
  deriving DecidableEq

/-- How many bytes arrive while one reader reads, and what comes after them. -/
structure Cut where
  seen : ℕ
  ending : Ending
  deriving DecidableEq

namespace Wire

def Quiet (wire : Wire) : Prop :=
  wire.unended = [] ∧ wire.posting = false ∧ wire.pending = []

instance (wire : Wire) : Decidable wire.Quiet := inferInstanceAs (Decidable (_ ∧ _ ∧ _))

def greeted (greeting : Response) : Wire where
  unended := []
  posting := false
  pending := greeting.bytes

def answer (wire : Wire) (line : List UInt8) (response : Response) : Wire where
  unended := []
  posting := !wire.posting && line = utf8 "POST\r\n" && response.code = some 340
  pending := wire.pending ++ response.bytes

/-- Take bytes, with the answers to the lines they end and what is left of the answers. -/
def hear (answers : ℕ → Response) (wire : Wire) : List UInt8 → Wire × (ℕ → Response)
  | [] => (wire, answers)
  | byte :: bytes =>
      let line := wire.unended ++ [byte]
      if byte ≠ lf then hear answers { wire with unended := line } bytes
      else if wire.posting && !isTerminator line then
        hear answers { wire with unended := [] } bytes
      else hear (fun number => answers (number + 1)) (wire.answer line (answers 0)) bytes

def write (wire : Wire) (answers : ℕ → Response) (stops : Option ℕ) (bytes : List UInt8) :
    Wire × (ℕ → Response) :=
  wire.hear answers (stops.elim bytes fun count => bytes.take count)

def read {α : Type} (wire : Wire) (cut : Cut) (reader : Incoming → α × Incoming) : α × Wire :=
  let (result, left) := reader { bytes := wire.pending.take cut.seen, ending := cut.ending }
  (result, { wire with pending := left.bytes ++ wire.pending.drop cut.seen })

variable {answers : ℕ → Response} {wire : Wire}

theorem hear_append (bytes more : List UInt8) :
    wire.hear answers (bytes ++ more) =
      (wire.hear answers bytes).1.hear (wire.hear answers bytes).2 more := by
  induction bytes generalizing answers wire with
  | nil => rfl
  | cons byte bytes ih =>
      simp only [List.cons_append, hear]
      split
      · exact ih
      · split <;> exact ih

theorem hear_of_noLf {bytes : List UInt8} (noLf : lf ∉ bytes) :
    wire.hear answers bytes = ({ wire with unended := wire.unended ++ bytes }, answers) := by
  induction bytes generalizing wire with
  | nil => simp [hear]
  | cons byte bytes ih =>
      simp only [List.mem_cons, not_or] at noLf
      simp [hear, Ne.symm noLf.1, ih noLf.2]

theorem hear_line {line : List UInt8} (noLf : lf ∉ line) :
    wire.hear answers (line ++ [lf]) =
      if wire.posting && !isTerminator (wire.unended ++ line ++ [lf]) then
        ({ wire with unended := [] }, answers)
      else
        (wire.answer (wire.unended ++ line ++ [lf]) (answers 0),
          fun number => answers (number + 1)) := by
  rw [hear_append, hear_of_noLf noLf]
  simp [hear, answer]

theorem hear_command {command : List UInt8} (noLf : lf ∉ command) (whole : wire.unended = [])
    (idle : wire.posting = false) :
    wire.hear answers (command ++ crlf) =
      (wire.answer (command ++ crlf) (answers 0), fun number => answers (number + 1)) := by
  have noLf' : lf ∉ command ++ [cr] := by simpa [cr, lf] using noLf
  have line : command ++ crlf = command ++ [cr] ++ [lf] := by simp [crlf]
  rw [line, hear_line noLf']
  simp [whole, idle]

end Wire

end Rustnzb.Nntp
