import Rustnzb.Core.NzbParser
import Rustnzb.Nntp.Peer
import Rustnzb.Nntp.Pipeline

/-!
# A connection and its server

A session is an `NntpConnection` whose transport leads to a server. What the server answers and
where the transport fails during one operation is its script. The heartbeat, the reuse of buffers
and the log are left out; gzip is a parameter.
-/

namespace Rustnzb.Nntp

open Dispatch (NntpError)

/-- What a connection knows about its server, as far as an operation looks at it. -/
structure NntpCapabilities where
  reader : Bool := false
  post : Bool := false
  ihave : Bool := false
  hdr : Bool := false
  hasOver : Bool := false
  modeReaderRequired : Bool := false
  haveBody : Bool := false
  haveStat : Bool := false
  haveArticle : Bool := false
  haveHead : Bool := false
  deriving DecidableEq

namespace NntpCapabilities

def defaultAssumed : NntpCapabilities where
  reader := true
  haveBody := true
  haveStat := true
  haveArticle := true
  haveHead := true

def withContentCommands (caps : NntpCapabilities) : NntpCapabilities :=
  { caps with haveArticle := true, haveBody := true, haveHead := true, haveStat := true }

/-- The first words of the lines of a list, in upper case. -/
def labels (body : List UInt8) : List String :=
  let text := (String.fromUTF8? ⟨body.toArray⟩).getD ""
  (text.toList.splitOn '\n').map fun line =>
    String.ofList (((Core.trim line).takeWhile (!Core.isWhitespace ·)).map Char.toUpper)

def parse (body : List UInt8) : NntpCapabilities :=
  let labels := labels body
  let caps : NntpCapabilities := {
    reader := "READER" ∈ labels
    post := "POST" ∈ labels
    ihave := "IHAVE" ∈ labels
    hdr := "HDR" ∈ labels
    hasOver := "OVER" ∈ labels
    modeReaderRequired := "MODE-READER" ∈ labels }
  if caps.reader || caps.modeReaderRequired then caps.withContentCommands
  else if caps.hasOver || caps.hdr || caps.post || caps.ihave then caps.withContentCommands
  else caps

end NntpCapabilities

/-- Where a write fails: the bytes written before, and the error. -/
structure WriteFault where
  written : ℕ
  message : String
  deriving DecidableEq

/-- What the server and the transport do during one operation. -/
structure Script where
  answers : ℕ → Response
  writes : ℕ → Option WriteFault
  lines : ℕ → Cut
  blocks : ℕ → Cut
  /-- The budget of `connect` runs out where the operation fails. -/
  expired : Bool

structure Gzip where
  whole : List UInt8 → Option (List UInt8)
  upTo : ℕ → List UInt8 → Except String (List UInt8)

/-- An `NntpConnection` with the server it is connected to. -/
structure Session where
  state : ConnectionState
  compressEnabled : Bool
  capabilities : NntpCapabilities
  transport : Option Wire
  sent : List String
  deriving DecidableEq

namespace Session

def new : Session where
  state := .disconnected
  compressEnabled := false
  capabilities := .defaultAssumed
  transport := none
  sent := []

def isConnected (session : Session) : Bool :=
  session.transport.isSome && session.state ≠ .disconnected

def writeAll (session : Session) (bytes : List UInt8) (answers : ℕ → Response)
    (fault : Option WriteFault) : Except NntpError (ℕ → Response) × Session :=
  match session.transport with
  | none => (.error (.connection "Not connected"), session)
  | some wire =>
      let (wire, answers) := wire.write answers (fault.map (·.written)) bytes
      let session := { session with transport := some wire }
      match fault with
      | some fault => (.error (.io fault.message), session)
      | none => (.ok answers, session)

/-- `send_command`, or `send_command_no_flush` where the next write is flushed. -/
def sendCommand (session : Session) (command : String) (answers : ℕ → Response)
    (fault : Option WriteFault) : Except NntpError (ℕ → Response) × Session :=
  let (result, session) := session.writeAll (utf8 command ++ crlf) answers fault
  (result, { session with
    sent := if session.transport.isSome then session.sent ++ [command] else session.sent })

def readWith {α : Type} (session : Session) (cut : Cut)
    (reader : Incoming → Except NntpError α × Incoming) : Except NntpError α × Session :=
  match session.transport with
  | none => (.error (.connection "Not connected"), session)
  | some wire =>
      let (result, wire) := wire.read cut reader
      (result, { session with transport := some wire })

def readResponseLine (session : Session) (cut : Cut) : Except NntpError NntpResponse × Session :=
  session.readWith cut Incoming.readResponseLine

def readMultilineBody (session : Session) (cut : Cut) : Except NntpError (List UInt8) × Session :=
  session.readWith cut Incoming.readMultilineBody

variable (gzip : Gzip)

def readMultilineBodyMaybeDecompress (session : Session) (cut : Cut) :
    Except NntpError (List UInt8) × Session :=
  match session.readMultilineBody cut with
  | (.error e, session) => (.error e, session)
  | (.ok raw, session) => (.ok (maybeDecompress gzip.whole session.compressEnabled raw), session)

def decompressBounded (compressEnabled : Bool) (maxBytes : ℕ) (raw : List UInt8) :
    Except NntpError (List UInt8) :=
  if compressEnabled && [0x1f, 0x8b].isPrefixOf raw then
    match gzip.upTo (maxBytes + 1) raw with
    | .error message => .error (.protocol ("gzip HEAD decode failed: " ++ message))
    | .ok data =>
        if maxBytes < data.length then
          .error (.responseTooLarge "decompressed multi-line response exceeds its byte bound")
        else .ok data
  else .ok raw

def readMultilineBodyMaybeDecompressBounded (session : Session) (cut : Cut) (maxBytes : ℕ) :
    Except NntpError (List UInt8) × Session :=
  match session.readWith cut fun incoming => incoming.readMultilineBodyBounded maxBytes with
  | (.error e, session) => (.error e, session)
  | (.ok raw, session) => (decompressBounded gzip session.compressEnabled maxBytes raw, session)

/-- Send a command and read the status line that answers it. -/
def ask (session : Session) (command : String) (script : Script) :
    Except NntpError (NntpResponse × (ℕ → Response)) × Session :=
  match session.sendCommand command script.answers (script.writes 0) with
  | (.error e, session) => (.error e, session)
  | (.ok answers, session) =>
      match session.readResponseLine (script.lines 0) with
      | (.error e, session) => (.error e, session)
      | (.ok status, session) => (.ok (status, answers), session)

end Session

/-- What an operation makes of a status line. -/
inductive Verdict (α : Type) where
  | block (read : Session → Except NntpError α × Session)
  | ready (result : Except NntpError α)
  | failed (e : NntpError)

namespace Session

def whenReady {α : Type} (session : Session) (doing : String)
    (go : Session → Except NntpError α × Session) : Except NntpError α × Session :=
  if session.state ≠ .ready then
    (.error (.protocol ("Cannot " ++ doing ++ " in state " ++ session.state.debug)), session)
  else go session

def request {α : Type} (session : Session) (command : String) (script : Script)
    (verdict : NntpResponse → Verdict α) : Except NntpError α × Session :=
  match { session with state := .busy }.ask command script with
  | (.error e, session) => (.error e, { session with state := .error })
  | (.ok (status, _), session) =>
      match verdict status with
      | .block read => read session
      | .ready result => (result, { session with state := .ready })
      | .failed e => (.error e, { session with state := .error })

def readBlock {α : Type} (gzip : Gzip) (cut : Cut) (maxBytes : Option ℕ)
    (reply : List UInt8 → α) (session : Session) : Except NntpError α × Session :=
  let (result, session) := match maxBytes with
    | some maximum => session.readMultilineBodyMaybeDecompressBounded gzip cut maximum
    | none => session.readMultilineBodyMaybeDecompress gzip cut
  match result with
  | .error e => (.error e, { session with state := .error })
  | .ok data => (.ok (reply data), { session with state := .ready })

end Session

end Rustnzb.Nntp
