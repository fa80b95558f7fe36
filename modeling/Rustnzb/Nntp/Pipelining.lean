import Rustnzb.Nntp.Pipeline

/-!
# Pipelined fetches against serial ones

Both ways of fetching read the same replies off the stream. A serial fetch reads nothing more once
a result has left the connection unusable. `process_all` goes on after an unexpected status, drops
all it has when a status line cannot be read, and leaves a compressed body as it is; these are the
only differences.
-/

namespace Rustnzb.Nntp

open Dispatch (NntpError articleResponse unexpectedArticleResponse notHereCodes)

/-! ## Replies -/

inductive Reply where
  | statusFailed (error : NntpError)
  | answered (status : NntpResponse) (body : Except NntpError (List UInt8))

def Incoming.readReply (incoming : Incoming) : Reply × Incoming :=
  match incoming.readResponseLine with
  | (.error e, rest) => (.statusFailed e, rest)
  | (.ok status, rest) =>
      if status.code = 220 then
        (.answered status rest.readMultilineBody.1, rest.readMultilineBody.2)
      else (.answered status (.ok []), rest)

namespace Reply

/-- The result of a fetch that makes `decode raw` of a body. -/
def result (decode : List UInt8 → List UInt8) (messageId : String) :
    Reply → Except NntpError NntpResponse
  | statusFailed e => .error e
  | answered status body =>
      articleResponse messageId status.code status.message
        (body.map fun raw => { status with data := some (decode raw) })

def usable : Reply → Bool
  | statusFailed _ => false
  | answered status (.ok _) => status.code = 220 || status.code ∈ notHereCodes
  | answered status (.error _) => status.code ∈ notHereCodes

/-- Whether `process_all` gives up at an answer that leaves the connection unusable. -/
def endsPipeline (status : NntpResponse) : Bool :=
  status.code ∈ [220, 403, 480, 481, 482, 502] ||
    isFatal (.error (unexpectedArticleResponse status.code status.message))

end Reply

def leavesUsable : Except NntpError NntpResponse → Bool
  | .ok _ => true
  | .error e => e.notHere

/-- The results up to and including the first that leaves the connection unusable. -/
def upToUnusable :
    List (Except NntpError NntpResponse) → List (Except NntpError NntpResponse)
  | [] => []
  | result :: results => if leavesUsable result then result :: upToUnusable results else [result]

def SameResult : Except NntpError NntpResponse → Except NntpError NntpResponse → Prop
  | .ok response, .ok response' => response = response'
  | .error e, .error e' => e.ctorIdx = e'.ctorIdx
  | _, _ => False

section Readers

variable {incoming : Incoming}

theorem length_readResponseLine_lt (some : incoming.bytes ≠ []) :
    incoming.readResponseLine.2.bytes.length < incoming.bytes.length := by
  have less := Incoming.length_readLineBytes_lt some
  simp only [Incoming.readResponseLine]
  split
  next read => simpa [read] using less
  next read => simpa [read] using less
  next read =>
    split
    · simpa [read] using less
    · split <;> simpa [read] using less

theorem length_of_readLineBytes {read : Except ReadError (List UInt8)} {rest : Incoming}
    (isRead : incoming.readLineBytes = (read, rest)) :
    rest.bytes.length ≤ incoming.bytes.length := by
  have le := incoming.length_readLineBytes_le
  rwa [isRead] at le

theorem length_readBodyLoop_le (maxBytes : Option ℕ) (out : List UInt8) (incoming : Incoming) :
    (incoming.readBodyLoop maxBytes out).2.bytes.length ≤ incoming.bytes.length := by
  fun_induction Incoming.readBodyLoop maxBytes out incoming
  case case6 less ih => omega
  all_goals exact length_of_readLineBytes ‹_›

theorem length_readReply_lt (some : incoming.bytes ≠ []) :
    incoming.readReply.2.bytes.length < incoming.bytes.length := by
  have less := length_readResponseLine_lt some
  simp only [Incoming.readReply]
  split
  next read => simpa [read] using less
  next rest read =>
    split
    · have le := length_readBodyLoop_le none [] rest
      simp only [read] at less
      simp only [Incoming.readMultilineBody]
      omega
    · simpa [read] using less

theorem readReply_of_ended (ended : incoming.bytes = []) :
    ∃ e, incoming.readReply = (.statusFailed e, incoming) ∧ isFatal (.error e) = true := by
  rcases incoming with ⟨bytes, ending⟩
  subst ended
  cases ending with
  | closed => exact ⟨.connection "Server closed connection", rfl, rfl⟩
  | broken message => exact ⟨.io message, rfl, rfl⟩
  | silent => exact ⟨.io "read_response_line timed out after 60s", rfl, rfl⟩

theorem length_readReply_le (incoming : Incoming) :
    incoming.readReply.2.bytes.length ≤ incoming.bytes.length := by
  by_cases ended : incoming.bytes = []
  · rcases readReply_of_ended ended with ⟨e, read, _⟩
    simp [read]
  · exact (length_readReply_lt ended).le

theorem isFatal_of_readBodyLoop (out : List UInt8) {e : NntpError}
    (failed : (incoming.readBodyLoop none out).1 = .error e) :
    isFatal (.error e) = true ∧ e.notHere = false := by
  fun_induction Incoming.readBodyLoop none out incoming
  case case6 ih => exact ih failed
  case case4 => simp at failed
  case case5 tooLong => simp at tooLong
  all_goals
    cases failed
    exact ⟨rfl, rfl⟩

theorem notHere_of_parseResponseLine {line : String} {e : NntpError}
    (failed : parseResponseLine line = .error e) : e.notHere = false := by
  simp only [parseResponseLine] at failed
  split at failed
  · cases failed; rfl
  · split at failed
    · split at failed
      · simp at failed
      · cases failed; rfl
    · cases failed; rfl

theorem notHere_of_statusFailed {e : NntpError}
    (failed : incoming.readReply.1 = .statusFailed e) : e.notHere = false := by
  have readFailed : incoming.readResponseLine.1 = .error e := by
    simp only [Incoming.readReply] at failed
    split at failed
    next read => cases failed; rw [read]
    · split at failed <;> simp at failed
  simp only [Incoming.readResponseLine] at readFailed
  split at readFailed
  · cases readFailed; rfl
  · cases readFailed; rfl
  · split at readFailed
    · cases readFailed; rfl
    · split at readFailed
      · cases readFailed; rfl
      · dsimp only at readFailed
        exact notHere_of_parseResponseLine readFailed

/-- What holds of an answer that was read: a body comes with a 220 only, and one that cannot be
read is a transport failure. -/
structure WellRead (status : NntpResponse) (body : Except NntpError (List UInt8)) : Prop where
  noBody : status.code ≠ 220 → body = .ok []
  fatal : ∀ e, body = .error e → isFatal (.error e) = true ∧ e.notHere = false

theorem wellRead_of_readReply {status : NntpResponse} {body : Except NntpError (List UInt8)}
    {rest : Incoming} (read : incoming.readReply = (.answered status body, rest)) :
    WellRead status body := by
  simp only [Incoming.readReply] at read
  split at read
  · simp at read
  · split at read
    next found =>
      cases read
      exact ⟨fun other => absurd found other, fun e => isFatal_of_readBodyLoop []⟩
    · cases read
      exact ⟨fun _ => rfl, by simp⟩

end Readers

/-! ## The result of a reply -/

namespace Reply

variable {decode : List UInt8 → List UInt8} {messageId : String} {status : NntpResponse}
  {body : Except NntpError (List UInt8)}

theorem result_answered_cases (decode : List UInt8 → List UInt8) (messageId : String)
    (status : NntpResponse) (body : Except NntpError (List UInt8)) :
    status.code = 220 ∧ (answered status body).result decode messageId =
        body.map (fun raw => { status with data := some (decode raw) }) ∨
      status.code ≠ 220 ∧ ∃ e, (answered status body).result decode messageId = .error e ∧
        (e.notHere = true ↔ status.code ∈ notHereCodes) := by
  by_cases found : status.code = 220
  · left
    exact ⟨found, by simp [result, articleResponse, found]⟩
  · right
    refine ⟨found, ?_⟩
    simp only [result]
    unfold articleResponse
    split
    case h_1 => contradiction
    case h_12 =>
      refine ⟨_, rfl, ?_⟩
      simp only [Dispatch.notHere_unexpectedArticleResponse]
      simp_all [notHereCodes]
    all_goals exact ⟨_, rfl, by simp_all [NntpError.notHere, notHereCodes]⟩

theorem leavesUsable_result (decode : List UInt8 → List UInt8) (messageId : String)
    (wellRead : WellRead status body) :
    leavesUsable ((answered status body).result decode messageId) =
      (answered status body).usable := by
  rcases result_answered_cases decode messageId status body with
    ⟨found, same⟩ | ⟨other, e, same, here⟩
  · rw [same]
    cases body with
    | ok raw => simp [usable, leavesUsable, found, Except.map]
    | error e =>
        simp [usable, leavesUsable, found, Except.map, (wellRead.fatal e rfl).2, notHereCodes]
  · have noBody := wellRead.noBody other
    subst noBody
    rw [same]
    simp only [leavesUsable, usable, other, decide_false, Bool.false_or]
    exact Bool.eq_iff_iff.mpr (by simpa using here)

theorem isFatal_result (decode : List UInt8 → List UInt8) (messageId : String)
    (wellRead : WellRead status body) :
    isFatal ((answered status body).result decode messageId) =
      (!(answered status body).usable && endsPipeline status) := by
  by_cases found : status.code = 220
  · cases body with
    | ok raw => simp [result, articleResponse, found, usable, isFatal, Except.map]
    | error e =>
        simp [result, articleResponse, found, usable, Except.map, (wellRead.fatal e rfl).1,
          endsPipeline, notHereCodes]
  · have noBody := wellRead.noBody found
    subst noBody
    simp only [result, usable, endsPipeline]
    unfold articleResponse
    split
    case h_1 => contradiction
    case h_12 => simp_all [notHereCodes]
    all_goals simp_all [isFatal, notHereCodes]

theorem sameResult_iff (decode : List UInt8 → List UInt8) (messageId messageId' : String)
    (wellRead : WellRead status body) :
    SameResult ((answered status body).result id messageId)
        ((answered status body).result decode messageId') ↔
      (status.code = 220 → body.map decode = body) := by
  by_cases found : status.code = 220
  · cases body with
    | ok raw => simp [result, articleResponse, found, SameResult, Except.map, eq_comm]
    | error e => simp [result, articleResponse, found, SameResult, Except.map]
  · simp only [found, false_implies, iff_true, result]
    unfold articleResponse
    split
    case h_1 => contradiction
    all_goals simp [SameResult, NntpError.ctorIdx]

theorem body_of_unusable (unusable : (answered status body).usable = false) :
    status.code = 220 → body.map decode = body := by
  intro found
  cases body with
  | ok raw => simp [usable, found] at unusable
  | error e => rfl

end Reply

/-! ## What both read -/

section Reads

variable (gunzip : List UInt8 → Option (List UInt8)) {conn : NntpConnection}

theorem receive_eq (conn : NntpConnection) (request : PipelineRequest) :
    (Pipeline.receive conn request).1 =
        (match conn.incoming.readReply.1 with
        | .statusFailed e => .error e
        | answer => .ok (answer.result id request.messageId)) ∧
      (Pipeline.receive conn request).2.incoming = conn.incoming.readReply.2 := by
  rcases read : conn.incoming.readResponseLine with ⟨_ | status, rest⟩
  · simp [Pipeline.receive, Incoming.readReply, read]
  · simp only [Pipeline.receive, Incoming.readReply, read]
    by_cases found : status.code = 220
    · rcases body : rest.readMultilineBody with ⟨_ | raw, left⟩ <;>
        simp [Reply.result, articleResponse, found, Except.map]
    · simp only [found, if_false, Reply.result]
      unfold articleResponse
      split <;> simp_all

theorem fetchArticle_eq (ready : conn.state = .ready) (messageId : String) :
    (conn.fetchArticle gunzip messageId).1 =
        conn.incoming.readReply.1.result (maybeDecompress gunzip conn.compressEnabled)
          (normalizeMessageId messageId) ∧
      (conn.fetchArticle gunzip messageId).2.incoming = conn.incoming.readReply.2 ∧
      (conn.fetchArticle gunzip messageId).2.compressEnabled = conn.compressEnabled ∧
      (conn.fetchArticle gunzip messageId).2.state =
        if conn.incoming.readReply.1.usable then .ready else .error := by
  rcases read : conn.incoming.readResponseLine with ⟨_ | status, rest⟩
  · simp [NntpConnection.fetchArticle, NntpConnection.sendCommand, ready, Incoming.readReply, read,
      Reply.result, Reply.usable]
  · simp only [NntpConnection.fetchArticle, NntpConnection.sendCommand, ready,
      Incoming.readReply, read, ne_eq, not_true, if_false]
    by_cases found : status.code = 220
    · rcases body : rest.readMultilineBody with ⟨_ | raw, left⟩ <;>
        simp [Reply.result, Reply.usable, articleResponse, found, Except.map, notHereCodes]
    · simp only [found, if_false, Reply.result]
      unfold articleResponse
      split <;> simp_all [Reply.usable, notHereCodes]

theorem fetchArticle_of_not_ready (notReady : conn.state ≠ .ready) (messageId : String) :
    (conn.fetchArticle gunzip messageId).2 = conn := by
  simp [NntpConnection.fetchArticle, notReady]

/-- The replies serial fetches read, up to the first that leaves the connection unusable. -/
def serial (compressEnabled : Bool) :
    List String → Incoming → List (Except NntpError NntpResponse) × Incoming
  | [], incoming => ([], incoming)
  | messageId :: rest, incoming =>
      let (reply, left) := incoming.readReply
      let result := reply.result (maybeDecompress gunzip compressEnabled)
        (normalizeMessageId messageId)
      if reply.usable then
        let (results, left) := serial compressEnabled rest left
        (result :: results, left)
      else ([result], left)

theorem fetchAll_of_not_ready (notReady : conn.state ≠ .ready) (messageIds : List String) :
    (conn.fetchAll gunzip messageIds).2 = conn := by
  induction messageIds with
  | nil => rfl
  | cons messageId rest ih =>
      simp only [NntpConnection.fetchAll, fetchArticle_of_not_ready gunzip notReady messageId]
      exact ih

theorem leavesUsable_of_readReply {incoming : Incoming} {decode : List UInt8 → List UInt8}
    {messageId : String} :
    leavesUsable (incoming.readReply.1.result decode messageId) = incoming.readReply.1.usable := by
  rcases read : incoming.readReply with ⟨e | ⟨status, body⟩, rest⟩
  · exact notHere_of_statusFailed (by rw [read])
  · exact Reply.leavesUsable_result _ _ (wellRead_of_readReply read)

theorem fetchAll_eq (conn : NntpConnection) (ready : conn.state = .ready)
    (messageIds : List String) :
    upToUnusable (conn.fetchAll gunzip messageIds).1 =
        (serial gunzip conn.compressEnabled messageIds conn.incoming).1 ∧
      (conn.fetchAll gunzip messageIds).2.incoming =
        (serial gunzip conn.compressEnabled messageIds conn.incoming).2 := by
  induction messageIds generalizing conn with
  | nil => exact ⟨rfl, rfl⟩
  | cons messageId rest ih =>
      rcases fetchArticle_eq gunzip ready messageId with ⟨result, left, compress, state⟩
      simp only [NntpConnection.fetchAll, serial, upToUnusable, result, leavesUsable_of_readReply]
      cases isUsable : conn.incoming.readReply.1.usable with
      | true =>
          rw [isUsable] at state
          rcases ih _ state with ⟨results, after⟩
          rw [left, compress] at results after
          exact ⟨congrArg _ results, after⟩
      | false =>
          have notReady : (conn.fetchArticle gunzip messageId).2.state ≠ .ready := by
            simp [state, isUsable]
          simp [fetchAll_of_not_ready gunzip notReady rest, left]

end Reads

/-- The replies `process_all` reads for the requests in order. -/
def drive : List PipelineRequest → Incoming → Except NntpError (List PipelineResult) × Incoming
  | [], incoming => (.ok [], incoming)
  | request :: rest, incoming =>
      match incoming.readReply with
      | (.statusFailed e, left) => (.error e, left)
      | (answer, left) =>
          let result : PipelineResult :=
            { request := request, result := answer.result id request.messageId }
          if isFatal result.result then (.ok (result :: rest.map Pipeline.aborted), left)
          else
            let (outcome, left) := drive rest left
            (outcome.map fun results => result :: results, left)

namespace Pipeline

variable {pipeline : Pipeline} {conn : NntpConnection}

theorem flushSends_spec (pipeline : Pipeline) (conn : NntpConnection)
    (positive : pipeline.depth ≠ 0) :
    let flushed := pipeline.flushSends conn
    flushed.1.inFlight ++ flushed.1.pending = pipeline.inFlight ++ pipeline.pending ∧
      (flushed.1.inFlight = [] → flushed.1.pending = []) ∧
      flushed.1.depth = pipeline.depth ∧ flushed.2.incoming = conn.incoming := by
  have sends : ∀ inFlight conn pending,
      let flushed := sendPending pipeline.depth inFlight conn pending
      flushed.1.inFlight ++ flushed.1.pending = inFlight ++ pending ∧
        (flushed.1.inFlight = [] → flushed.1.pending = []) ∧
        flushed.1.depth = pipeline.depth ∧ flushed.2.incoming = conn.incoming := by
    intro inFlight conn pending
    induction pending generalizing inFlight conn with
    | nil => simp [sendPending]
    | cons request pending ih =>
        simp only [sendPending]
        split
        · rcases ih (inFlight ++ [request]) (conn.sendCommand (command request)) with
            ⟨order, drained, depth, incoming⟩
          exact ⟨by simpa using order, drained, depth, incoming⟩
        next full =>
          refine ⟨rfl, ?_, rfl, rfl⟩
          rintro rfl
          simp only [List.length_nil] at full
          omega
  exact sends pipeline.inFlight conn pipeline.pending

theorem receiveOne_of_cons (conn : NntpConnection) {request : PipelineRequest}
    {inFlight : List PipelineRequest} (first : pipeline.inFlight = request :: inFlight) :
    (pipeline.receiveOne conn).1 =
        (match conn.incoming.readReply.1 with
        | .statusFailed e => .error e
        | answer =>
          .ok (some { request := request, result := answer.result id request.messageId })) ∧
      (pipeline.receiveOne conn).2.1 = { pipeline with inFlight := inFlight } ∧
      (pipeline.receiveOne conn).2.2.incoming = conn.incoming.readReply.2 := by
  rcases receive_eq conn request with ⟨result, left⟩
  rcases received : receive conn request with ⟨_ | _, after⟩ <;>
    rcases read : conn.incoming.readReply with ⟨_ | ⟨status, body⟩, rest⟩ <;>
    simp_all [receiveOne]

/-- What is left to read after a turn of `process_all`. -/
def driveFrom :
    Except NntpError (Option PipelineResult) × Pipeline × NntpConnection →
      Except NntpError (List PipelineResult) × Incoming
  | (.error e, _, after) => (.error e, after.incoming)
  | (.ok none, _, after) => (.ok [], after.incoming)
  | (.ok (some result), next, after) =>
      let rest := next.inFlight ++ next.pending
      if isFatal result.result then (.ok (result :: rest.map aborted), after.incoming)
      else ((drive rest after.incoming).1.map (result :: ·), (drive rest after.incoming).2)

theorem drive_of_receiveOne (busy : pipeline.inFlight ≠ []) :
    drive (pipeline.inFlight ++ pipeline.pending) conn.incoming =
      driveFrom (pipeline.receiveOne conn) := by
  rcases List.exists_cons_of_ne_nil busy with ⟨request, inFlight, first⟩
  rcases receiveOne_of_cons conn first with ⟨result, next, left⟩
  rcases received : pipeline.receiveOne conn with ⟨outcome, pipeline', after⟩
  simp only [received] at result next left
  subst next
  rw [first, List.cons_append, drive]
  rcases read : conn.incoming.readReply with ⟨_ | ⟨status, body⟩, rest⟩ <;>
    simp_all [driveFrom]

theorem depth_of_receiveOne {outcome : Except NntpError (Option PipelineResult)} {next : Pipeline}
    {after : NntpConnection} (received : pipeline.receiveOne conn = (outcome, next, after)) :
    next.depth = pipeline.depth := by
  simp only [receiveOne] at received
  split at received
  · cases received; rfl
  · split at received <;> cases received <;> rfl

theorem drive_flushSends (positive : pipeline.depth ≠ 0)
    (busy : (pipeline.flushSends conn).1.inFlight ≠ []) :
    drive (pipeline.inFlight ++ pipeline.pending) conn.incoming =
      driveFrom ((pipeline.flushSends conn).1.receiveOne (pipeline.flushSends conn).2) := by
  rcases flushSends_spec pipeline conn positive with ⟨order, _, _, same⟩
  rw [← order, ← same]
  exact drive_of_receiveOne busy

theorem processAll_eq (pipeline : Pipeline) (conn : NntpConnection) (positive : pipeline.depth ≠ 0)
    (results : List PipelineResult) :
    (pipeline.processAll conn results).1 =
        (drive (pipeline.inFlight ++ pipeline.pending) conn.incoming).1.map (results ++ ·) ∧
      (pipeline.processAll conn results).2.2.incoming =
        (drive (pipeline.inFlight ++ pipeline.pending) conn.incoming).2 := by
  fun_induction processAll pipeline conn results
  case case1 pipeline conn results sent sending drained =>
    rcases flushSends_spec pipeline conn positive with ⟨order, empty, _, same⟩
    rw [← order, drained, empty drained]
    exact ⟨by simp [drive, Except.map], same⟩
  case case2 pipeline conn results sent sending busy e next after received =>
    have turn := drive_flushSends positive busy
    rw [received] at turn
    simp [turn, driveFrom, Except.map]
  case case3 pipeline conn results sent sending busy next after received =>
    have turn := drive_flushSends positive busy
    rw [received] at turn
    simp [turn, driveFrom, Except.map]
  case case4 pipeline conn results sent sending busy result next after received more fatal =>
    have turn := drive_flushSends positive busy
    rw [received] at turn
    simp [turn, driveFrom, fatal, more, Except.map]
  case case5 pipeline conn results sent sending busy result next after received more goesOn _ ih =>
    have turn := drive_flushSends positive busy
    rw [received] at turn
    have depth : next.depth ≠ 0 := by
      rwa [depth_of_receiveOne received, (flushSends_spec pipeline conn positive).2.2.1]
    rcases ih depth with ⟨outcome, left⟩
    rw [outcome, left]
    simp only [turn, driveFrom, goesOn, Bool.false_eq_true, if_false, and_true]
    cases (drive (next.inFlight ++ next.pending) after.incoming).1 <;> simp [more, Except.map]

end Pipeline

/-! ## Agreement -/

/-- The results a caller of `process_all` is given. When it fails, that is its error alone. -/
def delivered :
    Except NntpError (List PipelineResult) → List (Except NntpError NntpResponse)
  | .ok results => results.map PipelineResult.result
  | .error e => [.error e]

def Pipeline.ofRequests (depth : ℕ) (requests : List PipelineRequest) : Pipeline :=
  requests.foldl (fun pipeline request => pipeline.submit request.messageId request.tag)
    (Pipeline.new depth)

def NntpConnection.opened (compressEnabled : Bool) (incoming : Incoming) : NntpConnection where
  state := .ready
  compressEnabled := compressEnabled
  incoming := incoming
  sent := []

section Agreement

variable (gunzip : List UInt8 → Option (List UInt8)) (compressEnabled : Bool)

/-- The pipeline gives the requests, in order, the results of serial fetches up to the first that
leaves the connection unusable, and reads the stream no further than these do. -/
structure Agrees (depth : ℕ) (requests : List PipelineRequest) (incoming : Incoming) : Prop where
  sameResults :
    let conn := NntpConnection.opened compressEnabled incoming
    List.Forall₂ SameResult
      (upToUnusable (delivered ((Pipeline.ofRequests depth requests).processAll conn []).1))
      (upToUnusable (conn.fetchAll gunzip (requests.map PipelineRequest.messageId)).1)
  sameStream :
    let conn := NntpConnection.opened compressEnabled incoming
    ((Pipeline.ofRequests depth requests).processAll conn []).2.2.incoming =
      (conn.fetchAll gunzip (requests.map PipelineRequest.messageId)).2.incoming
  inOrder : ∀ results,
    ((Pipeline.ofRequests depth requests).processAll
      (NntpConnection.opened compressEnabled incoming) []).1 = .ok results →
    results.map PipelineResult.request = requests

/-- The first replies on the stream, so many as there are requests, let the pipeline do as serial
fetches: each has a status line, no body needs to be inflated, and the first after which the
connection cannot be used is the last one needed or ends the pipeline. -/
def Steady : ℕ → Incoming → Prop
  | 0, _ => True
  | requests + 1, incoming =>
      match incoming.readReply with
      | (.statusFailed _, _) => False
      | (.answered status body, rest) =>
          if (Reply.answered status body).usable then
            (status.code = 220 → body.map (maybeDecompress gunzip compressEnabled) = body) ∧
              Steady requests rest
          else requests = 0 ∨ Reply.endsPipeline status = true

variable {gunzip compressEnabled}

theorem isFatal_congr {result result' : Except NntpError NntpResponse}
    (same : SameResult result result') : isFatal result = isFatal result' := by
  cases result <;> cases result' <;> simp only [SameResult] at same
  next e e' => cases e <;> cases e' <;> first | rfl | simp [NntpError.ctorIdx] at same
  · rfl

def Matches (driven : Except NntpError (List PipelineResult) × Incoming)
    (fetched : List (Except NntpError NntpResponse) × Incoming) : Prop :=
  ∃ results, driven.1 = .ok results ∧
    List.Forall₂ SameResult (upToUnusable (results.map PipelineResult.result)) fetched.1 ∧
    driven.2 = fetched.2

theorem length_drive_le (requests : List PipelineRequest) (incoming : Incoming) :
    (drive requests incoming).2.bytes.length ≤ incoming.bytes.length := by
  induction requests generalizing incoming with
  | nil => rfl
  | cons request requests ih =>
      have le := length_readReply_le incoming
      rcases read : incoming.readReply with ⟨_ | ⟨status, body⟩, rest⟩ <;>
        simp only [read] at le <;> simp only [drive, read]
      · exact le
      · split
        · exact le
        · exact (ih rest).trans le

theorem drive_reads_on (request : PipelineRequest) (requests : List PipelineRequest)
    (incoming : Incoming) :
    (drive (request :: requests) incoming).2.bytes.length < incoming.bytes.length ∨
      ∃ e, drive (request :: requests) incoming = (.error e, incoming) ∧
        isFatal (.error e) = true := by
  by_cases ended : incoming.bytes = []
  · rcases readReply_of_ended ended with ⟨e, read, fatal⟩
    exact .inr ⟨e, by simp [drive, read], fatal⟩
  · left
    have less := length_readReply_lt ended
    rcases read : incoming.readReply with ⟨_ | ⟨status, body⟩, rest⟩ <;>
      simp only [read] at less <;> simp only [drive, read]
    · exact less
    · split
      · exact less
      · exact (length_drive_le requests rest).trans_lt less

theorem matches_cons_iff {result : PipelineResult} {fetched : Except NntpError NntpResponse}
    {driven : Except NntpError (List PipelineResult) × Incoming}
    {rest : List (Except NntpError NntpResponse) × Incoming}
    (usable : leavesUsable result.result = true) :
    Matches (driven.1.map (result :: ·), driven.2) (fetched :: rest.1, rest.2) ↔
      SameResult result.result fetched ∧ Matches driven rest := by
  rcases driven with ⟨_ | results, left⟩
  · simp [Matches, Except.map]
  · simp [Matches, Except.map, upToUnusable, usable, and_assoc]

theorem matches_of_unusable_iff {result : PipelineResult} {results : List PipelineResult}
    {fetched : Except NntpError NntpResponse} {left : Incoming}
    (unusable : leavesUsable result.result = false) :
    Matches (.ok (result :: results), left) ([fetched], left) ↔
      SameResult result.result fetched := by
  simp [Matches, upToUnusable, unusable]

/-- After a result that `process_all` does not give up at, it agrees only where nothing is left to
ask for. -/
theorem matches_of_one_iff {result : PipelineResult} {fetched : Except NntpError NntpResponse}
    {left : Incoming} (unusable : leavesUsable result.result = false)
    (same : SameResult result.result fetched) (requests : List PipelineRequest) :
    Matches ((drive requests left).1.map (result :: ·), (drive requests left).2)
      ([fetched], left) ↔ requests = [] := by
  constructor
  · rintro ⟨results, isOk, _, sameStream⟩
    cases requests with
    | nil => rfl
    | cons request requests =>
        rcases drive_reads_on request requests left with less | ⟨e, failed, _⟩
        · simp only at sameStream
          rw [sameStream] at less
          exact absurd less (lt_irrefl _)
        · simp [failed, Except.map] at isOk
  · rintro rfl
    exact (matches_of_unusable_iff unusable).mpr same

theorem matches_iff_steady (requests : List PipelineRequest) (incoming : Incoming) :
    Matches (drive requests incoming)
        (serial gunzip compressEnabled (requests.map PipelineRequest.messageId) incoming) ↔
      Steady gunzip compressEnabled requests.length incoming := by
  induction requests generalizing incoming with
  | nil => simp [Matches, drive, serial, Steady, upToUnusable]
  | cons request requests ih =>
      rcases read : incoming.readReply with ⟨_ | ⟨status, body⟩, rest⟩
      · simp [Matches, drive, Steady, read]
      · have wellRead := wellRead_of_readReply read
        have fatal := Reply.isFatal_result id request.messageId wellRead
        have usable := Reply.leavesUsable_result id request.messageId wellRead
        have same := Reply.sameResult_iff (maybeDecompress gunzip compressEnabled) request.messageId
          (normalizeMessageId request.messageId) wellRead
        simp only [drive, serial, Steady, read, List.length_cons, List.map_cons]
        cases isUsable : (Reply.answered status body).usable with
        | true =>
            rw [isUsable] at usable
            simp only [fatal, isUsable, Bool.not_true, Bool.false_and, Bool.false_eq_true, if_false,
              if_true]
            rw [← same, ← ih rest]
            exact matches_cons_iff usable
        | false =>
            rw [isUsable] at usable
            have sameError := same.mpr (Reply.body_of_unusable isUsable)
            simp only [fatal, isUsable, Bool.not_false, Bool.true_and, Bool.false_eq_true, if_false]
            cases ends : Reply.endsPipeline status with
            | true =>
                simp only [if_true, or_true, iff_true]
                exact (matches_of_unusable_iff usable).mpr sameError
            | false =>
                simp only [Bool.false_eq_true, if_false, or_false, List.length_eq_zero_iff]
                exact matches_of_one_iff usable sameError requests

theorem serial_ne_nil {messageId : String} {messageIds : List String} {incoming : Incoming} :
    (serial gunzip compressEnabled (messageId :: messageIds) incoming).1 ≠ [] := by
  simp only [serial]
  split <;> simp

theorem sameResult_of_failed {e : NntpError} (requests : List PipelineRequest) (incoming : Incoming)
    (failed : (drive requests incoming).1 = .error e) :
    let fetched := serial gunzip compressEnabled (requests.map PipelineRequest.messageId) incoming
    List.Forall₂ SameResult [.error e] fetched.1 ∧ (drive requests incoming).2 = fetched.2 ↔
      ∃ e, incoming.readReply.1 = .statusFailed e := by
  cases requests with
  | nil => simp [drive] at failed
  | cons request requests =>
      rcases read : incoming.readReply with ⟨_ | ⟨status, body⟩, rest⟩
      · simp only [drive, read, Except.error.injEq] at failed
        subst failed
        simp [serial, drive, read, Reply.usable, Reply.result, SameResult]
      · have wellRead := wellRead_of_readReply read
        have fatal := Reply.isFatal_result id request.messageId wellRead
        have fatal' := Reply.isFatal_result (maybeDecompress gunzip compressEnabled)
          (normalizeMessageId request.messageId) wellRead
        simp only [drive, read] at failed
        simp only [serial, drive, List.map_cons, read, exists_false, iff_false, reduceCtorEq]
        rintro ⟨sameResults, sameStream⟩
        split at failed
        · simp at failed
        next notFatal =>
          cases requests with
          | nil => simp [drive, Except.map] at failed
          | cons second requests =>
              simp only [notFatal, Bool.false_eq_true, if_false] at sameStream
              cases isUsable : (Reply.answered status body).usable with
              | true =>
                  simp only [isUsable, if_true, List.forall₂_cons] at sameResults
                  exact serial_ne_nil (List.forall₂_nil_left_iff.mp sameResults.2)
              | false =>
                  simp only [isUsable, Bool.false_eq_true, if_false] at sameResults sameStream
                  rcases drive_reads_on second requests rest with less | ⟨e', ended, fatalEnd⟩
                  · rw [sameStream] at less
                    exact absurd less (lt_irrefl _)
                  · simp only [ended, Except.map, Except.error.injEq] at failed
                    subst failed
                    have sameFatal := isFatal_congr (List.forall₂_cons.mp sameResults).1
                    rw [fatalEnd, fatal', ← fatal] at sameFatal
                    exact notFatal sameFatal.symm

theorem requests_of_drive {requests : List PipelineRequest} {incoming : Incoming}
    {results : List PipelineResult} (driven : (drive requests incoming).1 = .ok results) :
    results.map PipelineResult.request = requests := by
  induction requests generalizing incoming results with
  | nil =>
      simp only [drive, Except.ok.injEq] at driven
      simp [← driven]
  | cons request requests ih =>
      have abortedOrder :
          (requests.map Pipeline.aborted).map PipelineResult.request = requests := by
        rw [List.map_map]
        exact List.map_id requests
      rcases read : incoming.readReply with ⟨_ | ⟨status, body⟩, rest⟩
      · simp [drive, read] at driven
      · simp only [drive, read] at driven
        split at driven
        · cases driven
          simp [abortedOrder]
        · rcases outcome : (drive requests rest).1 with _ | tail
          · simp [outcome, Except.map] at driven
          · simp only [outcome, Except.map, Except.ok.injEq] at driven
            subst driven
            simp [ih outcome]

theorem ofRequests_eq (depth : ℕ) (requests : List PipelineRequest) :
    Pipeline.ofRequests depth requests =
      { depth := max depth 1, inFlight := [], pending := requests } := by
  have submits : ∀ pending, requests.foldl
      (fun pipeline request => pipeline.submit request.messageId request.tag)
      ({ depth := max depth 1, inFlight := [], pending := pending } : Pipeline) =
        { depth := max depth 1, inFlight := [], pending := pending ++ requests } := by
    induction requests with
    | nil => simp
    | cons request requests ih =>
        intro pending
        rw [List.foldl_cons, Pipeline.submit, ih]
        simp
  exact submits []

theorem agrees_iff (depth : ℕ) (requests : List PipelineRequest) (incoming : Incoming) :
    Agrees gunzip compressEnabled depth requests incoming ↔
      let driven := drive requests incoming
      let fetched := serial gunzip compressEnabled (requests.map PipelineRequest.messageId) incoming
      List.Forall₂ SameResult (upToUnusable (delivered driven.1)) fetched.1 ∧
        driven.2 = fetched.2 := by
  have processed := (Pipeline.ofRequests depth requests).processAll_eq
    (NntpConnection.opened compressEnabled incoming) (by rw [ofRequests_eq]; simp) []
  have fetched := fetchAll_eq gunzip (NntpConnection.opened compressEnabled incoming) rfl
    (requests.map PipelineRequest.messageId)
  have outcome : ((Pipeline.ofRequests depth requests).processAll
      (NntpConnection.opened compressEnabled incoming) []).1 = (drive requests incoming).1 := by
    rw [processed.1, ofRequests_eq]
    cases driven : (drive requests incoming).1 <;>
      simp [NntpConnection.opened, driven, Except.map]
  have stream := processed.2
  rw [ofRequests_eq] at stream
  constructor
  · rintro ⟨sameResults, sameStream, _⟩
    simp only [outcome, fetched.1] at sameResults
    simp only [fetched.2] at sameStream
    rw [ofRequests_eq, stream] at sameStream
    exact ⟨sameResults, sameStream⟩
  · rintro ⟨sameResults, sameStream⟩
    refine ⟨?_, ?_, ?_⟩
    · simp only [outcome, fetched.1]
      exact sameResults
    · simp only [fetched.2]
      rw [ofRequests_eq, stream]
      exact sameStream
    · intro results isOk
      rw [outcome] at isOk
      exact requests_of_drive isOk

variable (gunzip compressEnabled)

/-- The pipeline agrees with serial fetches exactly on steady streams, and where the first status
line cannot be read. -/
theorem agrees_iff_steady (depth : ℕ) (requests : List PipelineRequest) (incoming : Incoming) :
    Agrees gunzip compressEnabled depth requests incoming ↔
      (requests ≠ [] ∧ ∃ e, incoming.readReply.1 = .statusFailed e) ∨
        Steady gunzip compressEnabled requests.length incoming := by
  rw [agrees_iff, ← matches_iff_steady]
  rcases outcome : (drive requests incoming).1 with e | results
  · have some : requests ≠ [] := by
      rintro rfl
      simp [drive] at outcome
    have noMatch : ¬Matches (drive requests incoming)
        (serial gunzip compressEnabled (requests.map PipelineRequest.messageId) incoming) := by
      rintro ⟨results, isOk, _⟩
      simp [outcome] at isOk
    have single : upToUnusable (delivered (drive requests incoming).1) = [.error e] := by
      simp [outcome, delivered, upToUnusable]
    simp only [some, noMatch, or_false, single, ne_eq, not_false_eq_true, true_and]
    exact sameResult_of_failed requests incoming outcome
  · have noFailure : ¬(requests ≠ [] ∧ ∃ e, incoming.readReply.1 = .statusFailed e) := by
      rintro ⟨some, e, failed⟩
      rcases List.exists_cons_of_ne_nil some with ⟨request, rest, rfl⟩
      rcases read : incoming.readReply with ⟨reply, left⟩
      rw [read] at failed
      simp only at failed
      simp [drive, read, failed] at outcome
    simp [noFailure, Matches, outcome, delivered]

/-- After an unexpected status, the pipeline hands the next request the next reply on the stream. -/
theorem not_agrees_after_unexpected_status : ¬∀ (gunzip : List UInt8 → Option (List UInt8))
    (compressEnabled : Bool) (depth : ℕ) (requests : List PipelineRequest) (incoming : Incoming),
    Agrees gunzip compressEnabled depth requests incoming := by
  intro agrees
  -- The server answers 500 what and then 430 no.
  have two := agrees (fun _ => none) false 2
    [{ messageId := "a", tag := 0 }, { messageId := "b", tag := 1 }]
    { bytes := [53, 48, 48, 32, 119, 104, 97, 116, 13, 10, 52, 51, 48, 32, 110, 111, 13, 10],
      ending := .closed }
  rcases (agrees_iff _ _ _).mp two with ⟨_, sameStream⟩
  revert sameStream
  decide

end Agreement

end Rustnzb.Nntp
