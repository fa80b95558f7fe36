import Rustnzb.Lib.Run
import Rustnzb.Nntp.Exchanges

/-!
# A ready connection is in step with its server

A request whose verdicts read a block exactly where the code carries one leaves nothing unread when
it makes the connection ready. A post does too when the answer to the article has no block.
-/

namespace Rustnzb.Nntp

open Dispatch (NntpError)

/-- Every command went out as one line, and nothing is open or unread when the connection is
ready. -/
structure InStep (session : Session) : Prop where
  sentLines : SentLines session
  quiet : session.state = .ready → ∀ wire ∈ session.transport, wire.Quiet

namespace InStep

variable {session : Session}

theorem of_ne_ready (sentLines : SentLines session) (notReady : session.state ≠ .ready) :
    InStep session :=
  ⟨sentLines, fun ready => absurd ready notReady⟩

theorem of_error (sentLines : SentLines session) : InStep { session with state := .error } :=
  of_ne_ready sentLines nofun

theorem of_owes (sentLines : SentLines session) (owes : Owes session false []) : InStep session :=
  ⟨sentLines, fun _ wire connected => quiet_iff.mpr (owes wire connected)⟩

theorem owes (inStep : InStep session) (ready : session.state = .ready) : Owes session false [] :=
  fun wire connected => quiet_iff.mp (inStep.quiet ready wire connected)

end InStep

section Request

variable {α : Type}

/-- A reader that is given a block takes all of it, or leaves a connection that is not ready. -/
def Reads (read : Session → Except NntpError α × Session) : Prop :=
  ∀ (session : Session) (response : Response), SentLines session → response.hasBlock = true →
    Owes session false response.blockBytes → InStep (read session).2

def Verdict.Sound (code : ℕ) : Verdict α → Prop
  | .block read => carriesBlock code = true ∧ Reads read
  | .ready _ => carriesBlock code = false
  | .failed _ => True

namespace Session

variable {session : Session}

theorem reads_readBlock (gzip : Gzip) (cut : Cut) (maxBytes : Option ℕ) (reply : List UInt8 → α) :
    Reads (Session.readBlock gzip cut maxBytes reply) := by
  intro session response sentLines hasBlock owes
  rw [← List.append_nil response.blockBytes] at owes
  generalize reads : session.readWith cut (Incoming.readBodyLoop maxBytes []) = outcome
  rcases outcome with ⟨result, final⟩
  have sentLines' := (kept_readWith reads).sentLines sentLines
  cases maxBytes with
  | none =>
      have reads' : session.readMultilineBody cut = (result, final) := reads
      cases result with
      | error e =>
          simp only [readBlock, readMultilineBodyMaybeDecompress, reads']
          exact .of_error sentLines'
      | ok raw =>
          have left := (readBody_ok hasBlock owes reads).2
          simp only [readBlock, readMultilineBodyMaybeDecompress, reads']
          exact .of_owes sentLines' left
  | some maximum =>
      have reads' : (session.readWith cut fun incoming =>
          incoming.readMultilineBodyBounded maximum) = (result, final) := reads
      cases result with
      | error e =>
          simp only [readBlock, readMultilineBodyMaybeDecompressBounded, reads']
          exact .of_error sentLines'
      | ok raw =>
          have left := (readBody_ok hasBlock owes reads).2
          simp only [readBlock, readMultilineBodyMaybeDecompressBounded, reads']
          split
          · exact .of_error sentLines'
          · exact .of_owes sentLines' left

theorem reads_readPrefix (cut : Cut) (maxBytes : ℕ) : Reads (Session.readPrefix cut maxBytes) := by
  intro session response sentLines hasBlock owes
  rw [← List.append_nil response.blockBytes] at owes
  generalize reads : session.readWith cut (Incoming.readPrefixLoop maxBytes []) = outcome
  rcases outcome with ⟨result, final⟩
  have sentLines' := (kept_readWith reads).sentLines sentLines
  have reads' : (session.readWith cut fun incoming =>
      incoming.readMultilineBodyPrefix maxBytes) = (result, final) := reads
  simp only [readPrefix, reads']
  cases result with
  | error e => exact .of_error sentLines'
  | ok shown =>
      dsimp only
      split
      next complete =>
        have left := readPrefix_ok hasBlock owes reads complete
        exact .of_owes sentLines' left
      · exact .of_ne_ready sentLines' nofun

theorem inStep_whenReady {doing : String} {go : Session → Except NntpError α × Session}
    (inStep : InStep session) (goes : session.state = .ready → InStep (go session).2) :
    InStep (session.whenReady doing go).2 := by
  simp only [whenReady]
  split
  · exact inStep
  next ready => exact goes (by simpa using ready)

theorem inStep_request {command : String} {script : Script} {verdict : NntpResponse → Verdict α}
    (inStep : InStep session) (ready : session.state = .ready) (plain : Plain command)
    (whole : script.Whole 1) (sound : ∀ status, (script.answers 0).code = some status.code →
      (verdict status).Sound status.code) : InStep (session.request command script verdict).2 := by
  simp only [request]
  generalize isBusy : { session with state := .busy } = busy
  have sentLines : SentLines busy := isBusy ▸ inStep.sentLines
  have owes : Owes busy false [] := isBusy ▸ inStep.owes ready
  generalize asked : busy.ask command script = outcome
  rcases outcome with ⟨result, final⟩
  have lines := (kept_ask plain.oneLine asked).sentLines sentLines
  cases result with
  | error e => exact .of_error lines
  | ok reply =>
      rcases reply with ⟨status, rest⟩
      have ⟨code, _, owing⟩ := ask_plain owes plain whole asked
      have hasBlock : (script.answers 0).hasBlock = carriesBlock status.code := by
        simp [Response.hasBlock, code]
      have isSound := sound status code
      dsimp only
      split
      next read isRead =>
        rw [isRead] at isSound
        exact isSound.2 final _ lines (hasBlock.trans isSound.1) owing
      next result isReady =>
        rw [isReady] at isSound
        have none : (script.answers 0).hasBlock = false := hasBlock.trans isSound
        rw [Response.blockBytes_eq_nil none] at owing
        exact .of_owes lines owing
      · exact .of_error lines

end Session

end Request

section Verdicts

variable (gzip : Gzip) (cut : Cut) (maxBytes : Option ℕ) (mid : String) (status : NntpResponse)

theorem sound_articleVerdict : (articleVerdict gzip cut mid status).Sound status.code := by
  simp only [articleVerdict]
  split <;> simp_all [Verdict.Sound, carriesBlock, Session.reads_readBlock]

theorem sound_headVerdict (articleNumber maxHeaderBytes : ℕ) :
    (headVerdict gzip cut articleNumber maxHeaderBytes status).Sound status.code := by
  simp only [headVerdict]
  split <;> simp_all [Verdict.Sound, carriesBlock, Session.reads_readBlock]

theorem sound_statVerdict : (statVerdict mid status).Sound status.code := by
  simp only [statVerdict]
  split <;> simp_all [Verdict.Sound, carriesBlock]

theorem sound_groupVerdict : (groupVerdict mid status).Sound status.code := by
  simp only [groupVerdict]
  split
  next isGroup => split <;> simp [Verdict.Sound, carriesBlock, isGroup]
  all_goals simp_all [Verdict.Sound, carriesBlock]

theorem sound_overviewFormatVerdict :
    (overviewFormatVerdict gzip cut status).Sound status.code := by
  simp only [overviewFormatVerdict]
  split <;> simp_all [Verdict.Sound, carriesBlock, Session.reads_readBlock]

theorem sound_xoverVerdict : (xoverVerdict gzip cut maxBytes status).Sound status.code := by
  simp only [xoverVerdict]
  split <;> simp_all [Verdict.Sound, carriesBlock, Session.reads_readBlock]

theorem sound_xhdrVerdict : (xhdrVerdict gzip cut mid status).Sound status.code := by
  simp only [xhdrVerdict]
  split <;> simp_all [Verdict.Sound, carriesBlock, Session.reads_readBlock]

theorem sound_xpatVerdict : (xpatVerdict gzip cut maxBytes mid status).Sound status.code := by
  simp only [xpatVerdict]
  split <;> simp_all [Verdict.Sound, carriesBlock, Session.reads_readBlock]

theorem sound_bodyVerdict : (bodyVerdict gzip cut mid status).Sound status.code := by
  simp only [bodyVerdict]
  split <;> simp_all [Verdict.Sound, carriesBlock, Session.reads_readBlock]

theorem sound_bodyPrefixVerdict (maximum : ℕ) :
    (bodyPrefixVerdict cut mid maximum status).Sound status.code := by
  simp only [bodyPrefixVerdict]
  split <;> simp_all [Verdict.Sound, carriesBlock, Session.reads_readPrefix]

theorem sound_listActiveVerdict : (listActiveVerdict gzip cut status).Sound status.code := by
  simp only [listActiveVerdict]
  split <;> simp_all [Verdict.Sound, carriesBlock, Session.reads_readBlock]

theorem sound_pingVerdict (noBlock : carriesBlock status.code = false) :
    (pingVerdict status).Sound status.code := by
  simp only [pingVerdict]
  split <;> simp_all [Verdict.Sound]

end Verdicts

def PostsLines (body : List UInt8) : Prop :=
  ∃ lines : List (List UInt8), (∀ line ∈ lines, lf ∉ line) ∧
    body = lines.flatMap stuff ++ dot :: crlf

theorem splitLine_spec {bytes : List UInt8} :
    (splitLine bytes = none → lf ∉ bytes) ∧
      ∀ line rest, splitLine bytes = some (line, rest) → lf ∉ line.dropLast := by
  induction bytes with
  | nil => simp [splitLine]
  | cons byte bytes ih =>
      simp only [splitLine]
      split
      · simp
      next notLf =>
        constructor
        · intro unsplit
          have := ih.1 (by simpa using unsplit)
          simp [this, Ne.symm notLf]
        · intro line rest split
          rcases Option.map_eq_some_iff.mp split with ⟨⟨first, after⟩, found, same⟩
          cases same
          have noLf := ih.2 first after found
          have notEmpty := (eq_append_of_splitLine found).2
          rw [List.dropLast_cons_of_ne_nil notEmpty]
          simp [noLf, Ne.symm notLf]

theorem lf_notMem_stripCr {line : List UInt8} (noLf : lf ∉ line) : lf ∉ stripCr line := by
  simp only [stripCr]
  split
  · exact fun mem => noLf (List.mem_of_mem_dropLast mem)
  · exact noLf

theorem postsLines_postBody (article : List UInt8) : PostsLines (postBody article) := by
  suffices ∃ lines : List (List UInt8), (∀ line ∈ lines, lf ∉ line) ∧
      postLines article = lines.flatMap stuff by
    rcases this with ⟨lines, noLf, same⟩
    exact ⟨lines, noLf, by rw [postBody, same]⟩
  induction article using postLines.induct with
  | case1 article line rest found shorter ih =>
      rcases ih with ⟨lines, noLf, same⟩
      refine ⟨stripCr line.dropLast :: lines, ?_, ?_⟩
      · simp only [List.mem_cons, forall_eq_or_imp]
        exact ⟨lf_notMem_stripCr (splitLine_spec.2 _ _ found), noLf⟩
      · rw [postLines]
        split
        next other after found' =>
          cases found.symm.trans found'
          rw [same, List.flatMap_cons]
        next found' => exact absurd (found.symm.trans found') (by simp)
  | case2 => exact ⟨[], by simp, by simp [postLines, splitLine]⟩
  | case3 article unsplit notEmpty =>
      rw [postLines]
      split
      next found => exact absurd (unsplit.symm.trans found) (by simp)
      · refine ⟨[stripCr article], ?_, by simp [notEmpty]⟩
        simpa using lf_notMem_stripCr (splitLine_spec.1 unsplit)

theorem postsLines_strLines (text : List UInt8) :
    PostsLines ((strLines text).flatMap stuff ++ dot :: crlf) := by
  refine ⟨strLines text, ?_, rfl⟩
  induction text using strLines.induct with
  | case1 text line rest found shorter ih =>
      rw [strLines]
      split
      next other after found' =>
        cases found.symm.trans found'
        simp only [List.mem_cons, forall_eq_or_imp]
        exact ⟨lf_notMem_stripCr (splitLine_spec.2 _ _ found), ih⟩
      next found' => exact absurd (found.symm.trans found') (by simp)
  | case2 => simp [strLines, splitLine]
  | case3 text unsplit notEmpty =>
      rw [strLines]
      split
      next found => exact absurd (unsplit.symm.trans found) (by simp)
      · simpa [notEmpty] using splitLine_spec.1 unsplit

theorem Wire.hear_article {lines : List (List UInt8)} (noLf : ∀ line ∈ lines, lf ∉ line)
    (answers : ℕ → Response) (pending : List UInt8) :
    Wire.hear answers { unended := [], posting := true, pending := pending }
        (lines.flatMap stuff ++ dot :: crlf) =
      ({ unended := [], posting := false, pending := pending ++ (answers 0).bytes },
        later answers 1) := by
  induction lines with
  | nil =>
      have split : dot :: crlf = [dot, cr] ++ [lf] := rfl
      rw [List.flatMap_nil, List.nil_append, split, Wire.hear_line (by decide)]
      simp [isTerminator, Wire.answer, crlf]
      rfl
  | cons line lines ih =>
      simp only [List.mem_cons, forall_eq_or_imp] at noLf
      have goesOn := isTerminator_stuff line
      rw [stuff_eq] at goesOn
      rw [List.flatMap_cons, List.append_assoc, Wire.hear_append, stuff_eq,
        Wire.hear_line (lf_notMem_stuffed noLf.1)]
      simp only [List.nil_append, goesOn, Bool.not_false, Bool.and_self, if_true]
      exact ih noLf.2

namespace Session

variable {session : Session}

theorem writeAll_article {session' : Session} {body : List UInt8} {answers rest : ℕ → Response}
    {fault : Option WriteFault} (owes : Owes session true []) (postsLines : PostsLines body)
    (writes : session.writeAll body answers fault = (.ok rest, session')) :
    Owes session' false (answers 0).bytes := by
  rcases postsLines with ⟨lines, noLf, rfl⟩
  cases connected : session.transport with
  | none => simp [writeAll, connected] at writes
  | some wire =>
      have isWire := owes wire connected
      have heard := Wire.hear_article noLf answers []
      rw [← isWire] at heard
      cases fault with
      | some fault => simp [writeAll, connected] at writes
      | none =>
          simp only [writeAll, connected, Wire.write, Option.map_none, Option.elim_none,
            heard] at writes
          cases writes
          rintro other isOther
          cases isOther
          rfl

theorem inStep_post {script : Script} {body : List UInt8} (inStep : InStep session)
    (postsLines : PostsLines body) (whole : script.Whole 2)
    (noBlock : (script.answers 1).hasBlock = false) : InStep (session.post script body).2 := by
  apply inStep_whenReady inStep
  intro ready
  have oneLine : OneLine "POST" := by decide
  generalize isBusy : { session with state := .busy } = busy
  have sentLines : SentLines busy := isBusy ▸ inStep.sentLines
  have owes : Owes busy false [] := isBusy ▸ inStep.owes ready
  have wholeLine : script.Whole 1 := fun number below => whole number (by omega)
  generalize asked : busy.ask "POST" script = outcome
  rcases outcome with ⟨result, middle⟩
  have lines := (kept_ask oneLine asked).sentLines sentLines
  cases result with
  | error e => exact .of_error lines
  | ok reply =>
      rcases reply with ⟨status, rest⟩
      have ⟨code, left, _, owing⟩ := ask_ok owes oneLine wholeLine asked
      dsimp only
      split
      next isSend =>
        have none : (script.answers 0).hasBlock = false := by
          simp [Response.hasBlock, code, isSend, carriesBlock]
        rw [Response.blockBytes_eq_nil none] at owing
        have isPost : utf8 "POST" ++ crlf = utf8 "POST\r\n" := by decide
        simp only [isPost, isSend, decide_true, Bool.and_self] at owing
        generalize writes : middle.writeAll body rest (script.writes 1) = writing
        rcases writing with ⟨result, written⟩
        have lines' := (kept_writeAll writes).1.sentLines lines
        cases result with
        | error e => exact .of_error lines'
        | ok rest' =>
            have owing' := writeAll_article owing postsLines writes
            rw [← List.append_nil (rest 0).bytes] at owing'
            generalize reads : written.readWith (script.lines 1) Incoming.readResponseLine = reading
            rcases reading with ⟨result, final⟩
            have lines'' := (kept_readWith reads).sentLines lines'
            simp only [readResponseLine, reads]
            cases result with
            | error e => exact .of_error lines''
            | ok answer =>
                have isNext : rest 0 = script.answers 1 := by rw [left]; rfl
                have ⟨_, _, owed⟩ := readResponseLine_ok owing'
                  (by rw [isNext]; exact whole 1 (by omega)) reads
                rw [isNext, Response.blockBytes_eq_nil noBlock] at owed
                exact .of_owes lines'' owed
      next isRefused =>
        have none : (script.answers 0).hasBlock = false := by
          simp [Response.hasBlock, code, isRefused, carriesBlock]
        rw [Response.blockBytes_eq_nil none] at owing
        simp only [isRefused] at owing
        exact .of_owes lines owing
      · exact .of_error lines

end Session

end Rustnzb.Nntp
