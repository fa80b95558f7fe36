import Rustnzb.Nntp.Wire

/-!
# Fetching articles, one by one and pipelined

`fetch_article` sends one command and reads its response. A `Pipeline` keeps some commands in flight
and reads the responses in order. Writes reach the server, and the library that inflates gzip is a
parameter.
-/

namespace Rustnzb.Nntp

open Dispatch (NntpError unexpectedArticleResponse)

inductive ConnectionState where
  | disconnected
  | connecting
  | authenticating
  | ready
  | busy
  | error
  | peerClosed
  deriving DecidableEq

def ConnectionState.debug : ConnectionState → String
  | .disconnected => "Disconnected"
  | .connecting => "Connecting"
  | .authenticating => "Authenticating"
  | .ready => "Ready"
  | .busy => "Busy"
  | .error => "Error"
  | .peerClosed => "PeerClosed"

structure NntpConnection where
  state : ConnectionState
  compressEnabled : Bool
  incoming : Incoming
  sent : List String

def normalizeMessageId (mid : String) : String :=
  if mid.toList.head? = some '<' && mid.toList.getLast? = some '>' then mid
  else "<" ++ mid ++ ">"

/-- What `read_multiline_body_maybe_decompress` makes of a body. -/
def maybeDecompress (gunzip : List UInt8 → Option (List UInt8)) (compressEnabled : Bool)
    (raw : List UInt8) : List UInt8 :=
  if compressEnabled && [0x1f, 0x8b].isPrefixOf raw then (gunzip raw).getD raw else raw

namespace NntpConnection

def sendCommand (conn : NntpConnection) (command : String) : NntpConnection :=
  { conn with sent := conn.sent ++ [command] }

def fetchArticle (gunzip : List UInt8 → Option (List UInt8)) (conn : NntpConnection)
    (messageId : String) : Except NntpError NntpResponse × NntpConnection :=
  if conn.state ≠ .ready then
    (.error (.protocol ("Cannot fetch article in state " ++ conn.state.debug)), conn)
  else
    let mid := normalizeMessageId messageId
    let conn := { conn with state := .busy }.sendCommand ("ARTICLE " ++ mid)
    match conn.incoming.readResponseLine with
    | (.error e, rest) => (.error e, { conn with incoming := rest, state := .error })
    | (.ok status, rest) =>
        let ready := { conn with incoming := rest, state := .ready }
        let failed := { conn with incoming := rest, state := .error }
        match status.code with
        | 220 =>
            match rest.readMultilineBody with
            | (.error e, rest) => (.error e, { conn with incoming := rest, state := .error })
            | (.ok raw, rest) =>
                (.ok { status with data := some (maybeDecompress gunzip conn.compressEnabled raw) },
                  { conn with incoming := rest, state := .ready })
        | 430 => (.error (.articleNotFound mid), ready)
        | 411 => (.error (.noSuchGroup status.message), ready)
        | 412 | 420 | 423 => (.error (.noArticleSelected status.message), ready)
        | 403 => (.error (.permissionDenied status.message), failed)
        | 480 => (.error (.authRequired status.message), failed)
        | 481 | 482 =>
            (.error (.auth ("ARTICLE rejected (" ++ toString status.code ++ "): " ++
              status.message)), failed)
        | 502 => (.error (.serviceUnavailable status.message), failed)
        | _ => (.error (unexpectedArticleResponse status.code status.message), failed)

def fetchAll (gunzip : List UInt8 → Option (List UInt8)) (conn : NntpConnection) :
    List String → List (Except NntpError NntpResponse) × NntpConnection
  | [] => ([], conn)
  | messageId :: rest =>
      let (result, conn) := conn.fetchArticle gunzip messageId
      let (results, conn) := conn.fetchAll gunzip rest
      (result :: results, conn)

end NntpConnection

structure PipelineRequest where
  messageId : String
  tag : ℕ
  deriving DecidableEq

structure PipelineResult where
  request : PipelineRequest
  result : Except NntpError NntpResponse

structure Pipeline where
  depth : ℕ
  inFlight : List PipelineRequest
  pending : List PipelineRequest

def isFatal : Except NntpError NntpResponse → Bool
  | .error (.auth _) | .error (.authRequired _) | .error (.permissionDenied _)
  | .error (.serviceUnavailable _) | .error (.connection _) | .error (.io _) => true
  | _ => false

namespace Pipeline

def new (depth : ℕ) : Pipeline := { depth := max depth 1, inFlight := [], pending := [] }

def submit (pipeline : Pipeline) (messageId : String) (tag : ℕ) : Pipeline :=
  { pipeline with pending := pipeline.pending ++ [{ messageId := messageId, tag := tag }] }

def command (request : PipelineRequest) : String :=
  "ARTICLE " ++
    if request.messageId.toList.head? = some '<' then request.messageId
    else "<" ++ request.messageId ++ ">"

def sendPending (depth : ℕ) (inFlight : List PipelineRequest) (conn : NntpConnection) :
    List PipelineRequest → Pipeline × NntpConnection
  | [] => ({ depth := depth, inFlight := inFlight, pending := [] }, conn)
  | request :: pending =>
      if inFlight.length < depth then
        sendPending depth (inFlight ++ [request]) (conn.sendCommand (command request)) pending
      else ({ depth := depth, inFlight := inFlight, pending := request :: pending }, conn)

def flushSends (pipeline : Pipeline) (conn : NntpConnection) : Pipeline × NntpConnection :=
  sendPending pipeline.depth pipeline.inFlight conn pipeline.pending

/-- What `receive_one` reads for a request; the outer error is returned with `?`. -/
def receive (conn : NntpConnection) (request : PipelineRequest) :
    Except NntpError (Except NntpError NntpResponse) × NntpConnection :=
  match conn.incoming.readResponseLine with
  | (.error e, rest) => (.error e, { conn with incoming := rest, state := .error })
  | (.ok status, rest) =>
      let conn := { conn with incoming := rest }
      let failed := { conn with state := .error }
      match status.code with
      | 220 =>
          match rest.readMultilineBody with
          | (.error e, rest) => (.ok (.error e), { conn with incoming := rest, state := .error })
          | (.ok raw, rest) =>
              (.ok (.ok { status with data := some raw }), { conn with incoming := rest })
      | 430 => (.ok (.error (.articleNotFound request.messageId)), conn)
      | 411 => (.ok (.error (.noSuchGroup status.message)), conn)
      | 412 | 420 | 423 => (.ok (.error (.noArticleSelected status.message)), conn)
      | 403 => (.ok (.error (.permissionDenied status.message)), failed)
      | 480 => (.ok (.error (.authRequired status.message)), failed)
      | 481 | 482 =>
          (.ok (.error (.auth ("ARTICLE rejected (" ++ toString status.code ++ "): " ++
            status.message))), failed)
      | 502 => (.ok (.error (.serviceUnavailable status.message)), failed)
      | _ => (.ok (.error (unexpectedArticleResponse status.code status.message)), failed)

def receiveOne (pipeline : Pipeline) (conn : NntpConnection) :
    Except NntpError (Option PipelineResult) × Pipeline × NntpConnection :=
  match pipeline.inFlight with
  | [] => (.ok none, pipeline, conn)
  | request :: inFlight =>
      let pipeline := { pipeline with inFlight := inFlight }
      match receive conn request with
      | (.error e, conn) => (.error e, pipeline, conn)
      | (.ok result, conn) => (.ok (some { request := request, result := result }), pipeline, conn)

def outstanding (pipeline : Pipeline) : ℕ :=
  pipeline.inFlight.length + pipeline.pending.length

theorem outstanding_flushSends (pipeline : Pipeline) (conn : NntpConnection) :
    (pipeline.flushSends conn).1.outstanding = pipeline.outstanding := by
  have sends : ∀ inFlight conn pending,
      (sendPending pipeline.depth inFlight conn pending).1.outstanding =
        inFlight.length + pending.length := by
    intro inFlight conn pending
    induction pending generalizing inFlight conn with
    | nil => rfl
    | cons request pending ih =>
        simp only [sendPending]
        split
        · rw [ih]
          simp only [List.length_append, List.length_cons, List.length_nil]
          omega
        · rfl
  exact sends pipeline.inFlight conn pipeline.pending

theorem outstanding_receiveOne {pipeline next : Pipeline} {conn after : NntpConnection}
    {result : PipelineResult}
    (received : pipeline.receiveOne conn = (.ok (some result), next, after)) :
    next.outstanding < pipeline.outstanding := by
  simp only [receiveOne] at received
  split at received
  · simp at received
  next request inFlight isFirst =>
    split at received
    · simp at received
    · cases received
      simp [outstanding, isFirst]

def aborted (request : PipelineRequest) : PipelineResult where
  request := request
  result := .error (.connection "Pipeline aborted due to fatal error")

/-- The loop of `process_all`, with the results so far. -/
def processAll (pipeline : Pipeline) (conn : NntpConnection) (results : List PipelineResult) :
    Except NntpError (List PipelineResult) × Pipeline × NntpConnection :=
  let sent := (pipeline.flushSends conn).1
  let sending := (pipeline.flushSends conn).2
  if sent.inFlight = [] then (.ok results, sent, sending)
  else
    match received : sent.receiveOne sending with
    | (.error e, next, after) => (.error e, next, after)
    | (.ok none, next, after) => (.ok results, next, after)
    | (.ok (some result), next, after) =>
        let results := results ++ [result]
        if isFatal result.result then
          (.ok (results ++ next.inFlight.map aborted ++ next.pending.map aborted),
            { next with inFlight := [], pending := [] }, after)
        else
          have : next.outstanding < pipeline.outstanding := by
            have same : sent.outstanding = pipeline.outstanding :=
              outstanding_flushSends pipeline conn
            have less := outstanding_receiveOne received
            omega
          processAll next after results
termination_by pipeline.outstanding

end Pipeline

end Rustnzb.Nntp
