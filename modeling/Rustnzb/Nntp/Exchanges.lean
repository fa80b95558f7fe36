import Rustnzb.Nntp.Connect
import Rustnzb.Nntp.Replies

/-!
# What one exchange leaves on the wire

`Owes session bytes` says that the server of a connection waits for a command and that `bytes` of
its responses were not read. Sending a command on one line adds one response to them; a read that
does not fail takes its status line or its block off them.
-/

namespace Rustnzb.Nntp

open Dispatch (NntpError)

theorem utf8_injective {text other : String} (same : utf8 text = utf8 other) : text = other := by
  have bytes (text : String) : text.toByteArray = (utf8 text).toByteArray :=
    String.utf8Encode_toList.symm
  apply String.toByteArray_inj.mp
  rw [bytes, bytes, same]

/-- A command on one line that is not a POST, or the first word of one. -/
structure Plain (command : String) : Prop where
  oneLine : OneLine command
  notPost : command.toList.head?.any (· ≠ 'P')

theorem Plain.append {word rest : String} (plain : Plain word) (oneLine : OneLine rest) :
    Plain (word ++ rest) := by
  refine ⟨plain.oneLine.append oneLine, ?_⟩
  have := plain.notPost
  cases chars : word.toList with
  | nil => simp [chars] at this
  | cons first chars' => simpa [chars] using this

theorem Plain.ne_post {command : String} (plain : Plain command) :
    utf8 command ++ crlf ≠ utf8 "POST\r\n" := by
  intro same
  have split : utf8 "POST\r\n" = utf8 "POST" ++ crlf := by decide
  rw [split] at same
  have := utf8_injective (List.append_cancel_right same)
  subst this
  exact absurd plain.notPost (by decide)

namespace Wire

variable {wire wire' : Wire} {cut : Cut} {response : Response} {more : List UInt8}

theorem pending_read {α : Type} {reader : Incoming → α × Incoming} {result : α} {taken : List UInt8}
    (owes : wire.pending = taken ++ more) (read : wire.read cut reader = (result, wire'))
    (takes : ∀ left, reader { bytes := wire.pending.take cut.seen, ending := cut.ending } =
      (result, left) → wire.pending.take cut.seen = taken ++ left.bytes) :
    wire' = { wire with pending := more } := by
  simp only [Wire.read] at read
  generalize reading : reader { bytes := wire.pending.take cut.seen, ending := cut.ending } = both
    at read
  rcases both with ⟨result', left⟩
  cases read
  have whole : taken ++ (left.bytes ++ wire.pending.drop cut.seen) = taken ++ more := by
    rw [← List.append_assoc, ← takes left reading, List.take_append_drop, owes]
  rw [List.append_cancel_left whole]

theorem read_status {reply : NntpResponse} (owes : wire.pending = response.bytes ++ more)
    (whole : cut.ending = .closed → cut.seen = 0 ∨ response.status.length < cut.seen)
    (read : wire.read cut Incoming.readResponseLine = (.ok reply, wire')) :
    response.code = some reply.code ∧
      wire' = { wire with pending := response.blockBytes ++ more } := by
  have isPrefix : wire.pending.take cut.seen <+:
      response.status ++ lf :: (response.blockBytes ++ more) := by
    have start := List.take_prefix cut.seen wire.pending
    rw [owes] at start ⊢
    simpa [Response.bytes] using start
  have long : response.status.length < wire.pending.length := by
    simp only [owes, Response.bytes, List.length_append, List.length_cons]
    omega
  have reads : ∀ left, Incoming.readResponseLine
      { bytes := wire.pending.take cut.seen, ending := cut.ending } = (.ok reply, left) →
        wire.pending.take cut.seen = response.status ++ lf :: left.bytes ∧
          response.code = some reply.code := by
    intro left reading
    rcases readResponseLine_ok isPrefix reading with all | ⟨closed, some, short⟩
    · exact all
    · -- a status line that the close cuts short
      exfalso
      rw [List.length_take] at short
      rcases whole closed with none | seen
      · simp [none] at some
      · omega
  constructor
  · simp only [Wire.read] at read
    injection read with parsed _
    exact (reads _ (Prod.ext parsed rfl)).2
  · have owes' : wire.pending = (response.status ++ [lf]) ++ (response.blockBytes ++ more) := by
      simpa [Response.bytes] using owes
    apply pending_read owes' read
    intro left reading
    simpa using (reads left reading).1

theorem prefix_of_block (hasBlock : response.hasBlock = true)
    (owes : wire.pending = response.blockBytes ++ more) (count : ℕ) :
    wire.pending.take count <+: ended response.block ++ (dot :: crlf ++ more) := by
  have start := List.take_prefix count wire.pending
  rw [owes] at start ⊢
  simpa [Response.blockBytes, hasBlock] using start

theorem read_body {maxBytes : Option ℕ} {data : List UInt8} (hasBlock : response.hasBlock = true)
    (owes : wire.pending = response.blockBytes ++ more)
    (read : wire.read cut (Incoming.readBodyLoop maxBytes []) = (.ok data, wire')) :
    wire' = { wire with pending := more } := by
  apply pending_read owes read
  intro left reading
  have taken := readBodyLoop_ok response.lines (prefix_of_block hasBlock owes _) reading
  simpa [Response.blockBytes, hasBlock] using taken

theorem read_prefix {maxBytes : ℕ} {shown : BodyPrefixResponse}
    (hasBlock : response.hasBlock = true) (owes : wire.pending = response.blockBytes ++ more)
    (read : wire.read cut (Incoming.readPrefixLoop maxBytes []) = (.ok shown, wire'))
    (complete : shown.complete = true) : wire' = { wire with pending := more } := by
  apply pending_read owes read
  intro left reading
  have taken := readPrefixLoop_ok response.lines (prefix_of_block hasBlock owes _) reading complete
  simpa [Response.blockBytes, hasBlock] using taken

end Wire

/-- The server of the connection, if there is one, waits for a command or an article, and these
bytes of its responses were not read. -/
def Owes (session : Session) (posting : Bool) (bytes : List UInt8) : Prop :=
  ∀ wire ∈ session.transport, wire = { unended := [], posting := posting, pending := bytes }

theorem quiet_iff {wire : Wire} :
    wire.Quiet ↔ wire = { unended := [], posting := false, pending := [] } := by
  rcases wire with ⟨unended, posting, pending⟩
  simp [Wire.Quiet]

def SentLines (session : Session) : Prop := ∀ command ∈ session.sent, OneLine command

def later (answers : ℕ → Response) (count : ℕ) : ℕ → Response := fun number =>
  answers (number + count)

def owed (answers : ℕ → Response) (first : ℕ) : ℕ → List UInt8
  | 0 => []
  | count + 1 => (answers first).bytes ++ owed answers (first + 1) count

theorem owed_succ (answers : ℕ → Response) (first count : ℕ) :
    owed answers first (count + 1) =
      owed answers first count ++ (answers (first + count)).bytes := by
  induction count generalizing first with
  | zero => simp [owed]
  | succ count ih =>
      rw [owed, ih, owed, List.append_assoc]
      congr 4
      omega

/-- None of the first status lines of an operation is cut short by the close of the connection. -/
def Script.Whole (script : Script) (count : ℕ) : Prop :=
  ∀ number < count, (script.lines number).ending = .closed →
    (script.lines number).seen = 0 ∨
      (script.answers number).status.length < (script.lines number).seen

instance (script : Script) (count : ℕ) : Decidable (script.Whole count) :=
  inferInstanceAs (Decidable (∀ number < count, _))

structure Kept (session session' : Session) : Prop where
  state : session'.state = session.state
  connected : session'.transport.isSome = session.transport.isSome
  sentLines : SentLines session → SentLines session'

theorem Kept.refl (session : Session) : Kept session session := ⟨rfl, rfl, id⟩

theorem Kept.trans {session middle session' : Session} (first : Kept session middle)
    (second : Kept middle session') : Kept session session' :=
  ⟨second.state.trans first.state, second.connected.trans first.connected,
    second.sentLines ∘ first.sentLines⟩

namespace Session

variable {session session' : Session} {command : String} {answers rest : ℕ → Response}
  {bytes : List UInt8} {cut : Cut} {response : Response} {more : List UInt8}

variable {fault : Option WriteFault}

theorem kept_writeAll {result : Except NntpError (ℕ → Response)}
    (writes : session.writeAll bytes answers fault = (result, session')) :
    Kept session session' ∧ session'.sent = session.sent := by
  cases connected : session.transport with
  | none =>
      simp only [writeAll, connected] at writes
      cases writes
      exact ⟨.refl session, rfl⟩
  | some wire =>
      simp only [writeAll, connected] at writes
      cases fault <;> cases writes <;> exact ⟨⟨rfl, by simp [connected], id⟩, rfl⟩

theorem kept_sendCommand {result : Except NntpError (ℕ → Response)} (oneLine : OneLine command)
    (sends : session.sendCommand command answers fault = (result, session')) :
    Kept session session' := by
  simp only [sendCommand] at sends
  generalize writes : session.writeAll (utf8 command ++ crlf) answers fault = outcome at sends
  rcases outcome with ⟨result', written⟩
  cases sends
  have ⟨kept, same⟩ := kept_writeAll writes
  refine ⟨kept.state, kept.connected, fun sentLines other mem => ?_⟩
  simp only [same] at mem
  split at mem
  · rcases List.mem_append.mp mem with old | new
    · exact sentLines other old
    · rw [List.mem_singleton.mp new]
      exact oneLine
  · exact sentLines other mem

theorem kept_readWith {α : Type} {reader : Incoming → Except NntpError α × Incoming}
    {result : Except NntpError α} (reads : session.readWith cut reader = (result, session')) :
    Kept session session' := by
  cases connected : session.transport with
  | none =>
      simp only [readWith, connected] at reads
      cases reads
      exact .refl session
  | some wire =>
      simp only [readWith, connected] at reads
      cases reads
      exact ⟨rfl, by simp [connected], id⟩

theorem sendCommand_ok (owes : Owes session false bytes) (oneLine : OneLine command)
    (sends : session.sendCommand command answers fault = (.ok rest, session')) :
    rest = later answers 1 ∧ session'.state = session.state ∧
      Owes session' (utf8 command ++ crlf = utf8 "POST\r\n" && (answers 0).code = some 340)
        (bytes ++ (answers 0).bytes) := by
  cases connected : session.transport with
  | none => simp [sendCommand, writeAll, connected] at sends
  | some wire =>
      have isWire := owes wire connected
      have heard : wire.hear answers (utf8 command ++ crlf) =
          (wire.answer (utf8 command ++ crlf) (answers 0), later answers 1) :=
        Wire.hear_command oneLine.lf_notMem (by rw [isWire]) (by rw [isWire])
      cases fault with
      | some fault => simp [sendCommand, writeAll, connected] at sends
      | none =>
          simp only [sendCommand, writeAll, connected, Wire.write, Option.map_none,
            Option.elim_none, heard] at sends
          cases sends
          refine ⟨rfl, rfl, ?_⟩
          intro other isOther
          cases isOther
          simp [Wire.answer, isWire]

theorem sendCommand_plain (owes : Owes session false bytes) (plain : Plain command)
    (sends : session.sendCommand command answers fault = (.ok rest, session')) :
    rest = later answers 1 ∧ session'.state = session.state ∧
      Owes session' false (bytes ++ (answers 0).bytes) := by
  have sent := sendCommand_ok owes plain.oneLine sends
  simpa [plain.ne_post] using sent

section Reading

variable {posting : Bool}

theorem readWith_ok {α : Type} {reader : Incoming → Except NntpError α × Incoming} {value : α}
    (owes : Owes session posting bytes)
    (reads : session.readWith cut reader = (.ok value, session')) :
    session'.state = session.state ∧ ∃ wire wire' : Wire, wire.pending = bytes ∧
      wire.read cut reader = (.ok value, wire') ∧
        ∀ left, wire' = { wire with pending := left } → Owes session' posting left := by
  cases connected : session.transport with
  | none => simp [readWith, connected] at reads
  | some wire =>
      have isWire := owes wire connected
      simp only [readWith, connected] at reads
      generalize reading : wire.read cut reader = both at reads
      rcases both with ⟨result, wire'⟩
      cases reads
      refine ⟨rfl, wire, wire', by rw [isWire], reading, ?_⟩
      rintro left rfl other isOther
      cases isOther
      rw [isWire]

theorem readResponseLine_ok {reply : NntpResponse}
    (owes : Owes session posting (response.bytes ++ more))
    (whole : cut.ending = .closed → cut.seen = 0 ∨ response.status.length < cut.seen)
    (reads : session.readResponseLine cut = (.ok reply, session')) :
    response.code = some reply.code ∧ session'.state = session.state ∧
      Owes session' posting (response.blockBytes ++ more) := by
  rcases readWith_ok owes reads with ⟨same, wire, wire', pending, read, left⟩
  have ⟨code, taken⟩ := Wire.read_status pending whole read
  exact ⟨code, same, left _ taken⟩

theorem readBody_ok {maxBytes : Option ℕ} {data : List UInt8} (hasBlock : response.hasBlock = true)
    (owes : Owes session posting (response.blockBytes ++ more))
    (reads : session.readWith cut (Incoming.readBodyLoop maxBytes []) = (.ok data, session')) :
    session'.state = session.state ∧ Owes session' posting more := by
  rcases readWith_ok owes reads with ⟨same, wire, wire', pending, read, left⟩
  exact ⟨same, left _ (Wire.read_body hasBlock pending read)⟩

theorem readPrefix_ok {maxBytes : ℕ} {shown : BodyPrefixResponse}
    (hasBlock : response.hasBlock = true)
    (owes : Owes session posting (response.blockBytes ++ more))
    (reads : session.readWith cut (Incoming.readPrefixLoop maxBytes []) = (.ok shown, session'))
    (complete : shown.complete = true) : Owes session' posting more := by
  rcases readWith_ok owes reads with ⟨-, wire, wire', pending, read, left⟩
  exact left _ (Wire.read_prefix hasBlock pending read complete)

end Reading

section Asking

variable {script : Script}

theorem kept_ask {result : Except NntpError (NntpResponse × (ℕ → Response))}
    (oneLine : OneLine command) (asked : session.ask command script = (result, session')) :
    Kept session session' := by
  simp only [ask] at asked
  split at asked
  next e middle sends =>
    cases asked
    exact kept_sendCommand oneLine sends
  next answers middle sends =>
    have sent := kept_sendCommand oneLine sends
    split at asked
    next e final reads =>
      cases asked
      exact sent.trans (kept_readWith reads)
    next reply final reads =>
      cases asked
      exact sent.trans (kept_readWith reads)

theorem ask_ok {status : NntpResponse} (owes : Owes session false []) (oneLine : OneLine command)
    (whole : script.Whole 1) (asked : session.ask command script = (.ok (status, rest), session')) :
    (script.answers 0).code = some status.code ∧ rest = later script.answers 1 ∧
      session'.state = session.state ∧
      Owes session' (utf8 command ++ crlf = utf8 "POST\r\n" && status.code = 340)
        (script.answers 0).blockBytes := by
  simp only [ask] at asked
  split at asked
  · cases asked
  next answers middle sends =>
    have ⟨left, same, owing⟩ := sendCommand_ok owes oneLine sends
    split at asked
    · cases asked
    next reply final reads =>
      cases asked
      rw [List.nil_append, ← List.append_nil (script.answers 0).bytes] at owing
      have ⟨code, same', owed⟩ := readResponseLine_ok owing (whole 0 (by omega)) reads
      refine ⟨code, left, same'.trans same, ?_⟩
      simpa [code] using owed

theorem ask_plain {status : NntpResponse} (owes : Owes session false []) (plain : Plain command)
    (whole : script.Whole 1) (asked : session.ask command script = (.ok (status, rest), session')) :
    (script.answers 0).code = some status.code ∧ session'.state = session.state ∧
      Owes session' false (script.answers 0).blockBytes := by
  have ⟨code, _, same, owing⟩ := ask_ok owes plain.oneLine whole asked
  exact ⟨code, same, by simpa [plain.ne_post] using owing⟩

end Asking

end Session

end Rustnzb.Nntp
