import Rustnzb.Nntp.Operations

/-!
# Pipelined batches

A batch of ARTICLE commands is a `Pipeline` worked through by `process_all`, a batch of STAT
commands is what a `StatPipeline` executes. Both send several commands before they read; the flush
after them may fail as the last of their writes does.
-/

namespace Rustnzb.Nntp

open Dispatch (NntpError unexpectedArticleResponse)

/-- A `Pipeline` at work, with the answers to come and how much it has sent and read. -/
structure Flight where
  inFlight : List PipelineRequest
  pending : List PipelineRequest
  answers : ℕ → Response
  sends : ℕ
  reads : ℕ

structure StatResult where
  messageId : String
  found : Bool
  deriving DecidableEq

/-- Maximum number of STAT commands to pipeline in a single batch. -/
def statBatchSize : ℕ := 100

namespace Session

variable (script : Script)

def sendPending (depth : ℕ) : List PipelineRequest → Flight → Session →
    Except NntpError Flight × Session
  | [], flight, session => (.ok { flight with pending := [] }, session)
  | request :: pending, flight, session =>
      if flight.inFlight.length < depth then
        match session.sendCommand (Pipeline.command request) flight.answers
            (script.writes flight.sends) with
        | (.error e, session) => (.error e, { session with state := .error })
        | (.ok answers, session) =>
            sendPending depth pending {
              flight with
              inFlight := flight.inFlight ++ [request]
              answers := answers
              sends := flight.sends + 1 } session
      else (.ok { flight with pending := request :: pending }, session)

/-- What `receive_one` reads for a request; the outer error is returned with `?`. -/
def receiveOne (number : ℕ) (request : PipelineRequest) (session : Session) :
    Except NntpError (Except NntpError NntpResponse) × Session :=
  match session.readResponseLine (script.lines number) with
  | (.error e, session) => (.error e, { session with state := .error })
  | (.ok status, session) =>
      let failed := { session with state := .error }
      match status.code with
      | 220 =>
          match session.readMultilineBody (script.blocks number) with
          | (.error e, session) => (.ok (.error e), { session with state := .error })
          | (.ok data, session) => (.ok (.ok (withData status data)), session)
      | 430 => (.ok (.error (.articleNotFound request.messageId)), session)
      | 411 => (.ok (.error (.noSuchGroup status.message)), session)
      | 412 | 420 | 423 => (.ok (.error (.noArticleSelected status.message)), session)
      | 403 => (.ok (.error (.permissionDenied status.message)), failed)
      | 480 => (.ok (.error (.authRequired status.message)), failed)
      | 481 | 482 => (.ok (.error (rejected "ARTICLE" status)), failed)
      | 502 => (.ok (.error (.serviceUnavailable status.message)), failed)
      | _ => (.ok (.error (unexpectedArticleResponse status.code status.message)), failed)

/-- The loop of `process_all`, which answers one request a round. -/
def processRounds (depth : ℕ) : ℕ → Flight → List PipelineResult → Session →
    Except NntpError (List PipelineResult) × Session
  | 0, _, results, session => (.ok results, session)
  | rounds + 1, flight, results, session =>
      match session.sendPending script depth flight.pending flight with
      | (.error e, session) => (.error e, session)
      | (.ok flight, session) =>
          match flight.inFlight with
          | [] => (.ok results, session)
          | request :: inFlight =>
              match session.receiveOne script flight.reads request with
              | (.error e, session) => (.error e, session)
              | (.ok result, session) =>
                  let results := results ++ [{ request := request, result := result }]
                  if isFatal result then
                    (.ok (results ++ inFlight.map Pipeline.aborted ++
                      flight.pending.map Pipeline.aborted), session)
                  else
                    processRounds depth rounds {
                      flight with
                      inFlight := inFlight
                      reads := flight.reads + 1 } results session

def processAll (session : Session) (depth : ℕ) (requests : List PipelineRequest) :
    Except NntpError (List PipelineResult) × Session :=
  session.processRounds script (max depth 1) requests.length {
    inFlight := []
    pending := requests
    answers := script.answers
    sends := 0
    reads := 0 } []

def sendStats : List String → ℕ → (ℕ → Response) → Session →
    Except NntpError (ℕ → Response) × Session
  | [], _, answers, session => (.ok answers, session)
  | mid :: batch, sends, answers, session =>
      match session.sendCommand ("STAT " ++ normalizeMessageId mid) answers
          (script.writes sends) with
      | (.error e, session) => (.error e, { session with state := .error })
      | (.ok answers, session) => sendStats batch (sends + 1) answers session

def readStats : List String → ℕ → List StatResult → Session →
    Except NntpError (List StatResult) × Session
  | [], _, results, session => (.ok results, session)
  | mid :: batch, reads, results, session =>
      match session.readResponseLine (script.lines reads) with
      | (.error e, session) => (.error e, { session with state := .error })
      | (.ok resp, session) =>
          let failed := { session with state := .error }
          match resp.code with
          | 223 =>
              let result : StatResult := { messageId := mid, found := true }
              readStats batch (reads + 1) (results ++ [result]) session
          | 430 =>
              let result : StatResult := { messageId := mid, found := false }
              readStats batch (reads + 1) (results ++ [result]) session
          | 480 => (.error (.authRequired resp.message), failed)
          | 481 | 482 => (.error (rejected "STAT" resp), failed)
          | 502 => (.error (.serviceUnavailable resp.message), failed)
          | _ => (.error (unexpected "STAT" resp), failed)

def executeBatches : List (List String) → ℕ → (ℕ → Response) → List StatResult → Session →
    Except NntpError (List StatResult) × Session
  | [], _, _, results, session => (.ok results, session)
  | batch :: batches, done, answers, results, session =>
      match { session with state := .busy }.sendStats script batch done answers with
      | (.error e, session) => (.error e, session)
      | (.ok answers, session) =>
          match session.readStats script batch done results with
          | (.error e, session) => (.error e, session)
          | (.ok results, session) =>
              executeBatches batches (done + batch.length) answers results
                { session with state := .ready }

def executeStats (session : Session) (ids : List String) :
    Except NntpError (List StatResult) × Session :=
  session.executeBatches script (ids.toChunks statBatchSize) 0 script.answers []

end Session

end Rustnzb.Nntp
