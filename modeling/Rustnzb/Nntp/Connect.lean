import Rustnzb.Nntp.Batches

/-!
# Connecting

`connect` reads the greeting, authenticates, asks for the capabilities and sets the connection up.
A step of the set-up that fails is passed over; that the whole of it takes too long is not. How the
socket is opened and encrypted is outside the model.
-/

namespace Rustnzb.Nntp

open Dispatch (NntpError)

structure ServerConfig where
  host : String
  port : ℕ
  username : Option String
  password : Option String
  compress : Bool
  connectTimeoutSecs : ℕ
  deriving DecidableEq

inductive Opening where
  | opened
  | refused (e : NntpError)
  | unusable (e : NntpError)
  | expired

/-- What the server and the transport do in each of the exchanges of `connect`. -/
structure Setup where
  opening : Opening
  greeting : Script
  user : Script
  pass : Script
  capabilities : Script
  reader : Script
  extensions : Script
  compress : Script

/-- Why an exchange of `connect` goes no further. -/
inductive Halt where
  | failed (e : NntpError)
  | expired

/-- A failure where the budget runs out is no failure of its own. -/
def timed {α : Type} (script : Script) (outcome : Except NntpError α × Session) :
    Except Halt α × Session :=
  match outcome with
  | (.ok value, session) => (.ok value, session)
  | (.error e, session) => (.error (if script.expired then .expired else .failed e), session)

def andThen {α β : Type} (outcome : Except Halt α × Session)
    (next : α → Session → Except Halt β × Session) : Except Halt β × Session :=
  match outcome with
  | (.ok value, session) => next value session
  | (.error halt, session) => (.error halt, session)

def tolerate (onFailure : Session → Session) (outcome : Except Halt Unit × Session) :
    Except Halt Unit × Session :=
  match outcome with
  | (.error (.failed _), session) => (.ok (), onFailure session)
  | other => other

/-- Whether one of the lines of a text says XFEATURE COMPRESS GZIP. A line that is not UTF-8 keeps a
replacement character and does not. -/
def advertisesCompression (data : List UInt8) : Bool :=
  (data.splitOn lf).any fun line =>
    match String.fromUTF8? ⟨line.toArray⟩ with
    | some text => (Core.trim text.toList).map Char.toUpper = "XFEATURE COMPRESS GZIP".toList
    | none => false

namespace Session

def converse (session : Session) (command : String) (script : Script) :
    Except Halt NntpResponse × Session :=
  andThen (timed script (session.ask command script)) fun (status, _) session =>
    (.ok status, session)

def failWith (session : Session) (e : NntpError) : Except Halt Unit × Session :=
  (.error (.failed e), { session with state := .error })

def authenticate (config : ServerConfig) (setup : Setup) (session : Session) :
    Except Halt Unit × Session :=
  let session := { session with state := .authenticating }
  match config.username with
  | none => (.error (.failed (.auth "No username configured")), session)
  | some username =>
      andThen (session.converse ("AUTHINFO USER " ++ username) setup.user) fun resp session =>
        match resp.code with
        | 281 => (.ok (), { session with state := .ready })
        | 381 | 480 =>
            match config.password with
            | none =>
                (.error (.failed (.auth "Server requires password but none configured")), session)
            | some password =>
                andThen (session.converse ("AUTHINFO PASS " ++ password) setup.pass)
                  fun resp session =>
                    match resp.code with
                    | 281 => (.ok (), { session with state := .ready })
                    | 481 | 482 => session.failWith (rejected "PASS" resp)
                    | 502 => session.failWith (.serviceUnavailable resp.message)
                    | _ => session.failWith (unexpected "PASS" resp)
        | 481 | 482 => session.failWith (rejected "USER" resp)
        | 502 => session.failWith (.serviceUnavailable resp.message)
        | _ => session.failWith (unexpected "USER" resp)

def queryCapabilities (script : Script) (session : Session) : Except Halt Unit × Session :=
  if session.state ≠ .ready then
    (.error (.failed (.protocol ("Cannot query CAPABILITIES in state " ++ session.state.debug))),
      session)
  else
    andThen (session.converse "CAPABILITIES" script) fun resp session =>
      match resp.code with
      | 101 =>
          andThen (timed script (session.readMultilineBody (script.blocks 0))) fun body session =>
            let caps := NntpCapabilities.parse body
            let none := !caps.haveBody && !caps.haveStat && !caps.haveArticle && !caps.haveHead
            (.ok (), {
              session with
              capabilities := if none then caps.withContentCommands else caps })
      | _ => (.ok (), { session with capabilities := .defaultAssumed })

def enterReaderMode (script : Script) (session : Session) : Except Halt Unit × Session :=
  if session.state ≠ .ready then
    (.error (.failed (.protocol ("Cannot MODE READER in state " ++ session.state.debug))), session)
  else
    andThen (session.converse "MODE READER" script) fun resp session =>
      match resp.code with
      | 200 | 201 =>
          (.ok (), {
            session with
            capabilities := { session.capabilities.withContentCommands with reader := true } })
      | _ => (.error (.failed (unexpected "MODE READER" resp)), session)

def negotiateCompression (extensions compress : Script) (session : Session) :
    Except Halt Unit × Session :=
  andThen (session.converse "LIST EXTENSIONS" extensions) fun resp session =>
    match resp.code with
    | 202 =>
        andThen (timed extensions (session.readMultilineBody (extensions.blocks 0)))
          fun data session =>
            if !advertisesCompression data then (.ok (), session)
            else
              andThen (session.converse "XFEATURE COMPRESS GZIP" compress) fun resp session =>
                match resp.code with
                | 290 => (.ok (), { session with compressEnabled := true })
                | _ => (.ok (), session)
    | _ => (.ok (), session)

/-- What `connect_inner` does with a connection that takes commands. -/
def setUp (config : ServerConfig) (setup : Setup) (session : Session) :
    Except Halt Unit × Session :=
  let assumed session : Session := { session with capabilities := .defaultAssumed }
  andThen (tolerate assumed (session.queryCapabilities setup.capabilities)) fun _ session =>
    andThen
      (if session.capabilities.modeReaderRequired && !session.capabilities.reader then
        tolerate id (session.enterReaderMode setup.reader)
      else (.ok (), session)) fun _ session =>
        if config.compress then
          tolerate id (session.negotiateCompression setup.extensions setup.compress)
        else (.ok (), session)

def connectInner (config : ServerConfig) (setup : Setup) (session : Session) :
    Except Halt Unit × Session :=
  let session := { session with state := .connecting }
  match setup.opening with
  | .refused e => session.failWith e
  | .unusable e => (.error (.failed e), session)
  | .expired => (.error .expired, session)
  | .opened =>
      let session := { session with transport := some (.greeted (setup.greeting.answers 0)) }
      andThen (timed setup.greeting (session.readResponseLine (setup.greeting.lines 0)))
        fun welcome session =>
          match welcome.code with
          | 200 | 201 =>
              andThen
                (if config.username.isSome then session.authenticate config setup
                else (.ok (), { session with state := .ready })) fun _ session =>
                  session.setUp config setup
          | 502 => session.failWith (.serviceUnavailable welcome.message)
          | _ =>
              session.failWith (.protocol ("Unexpected welcome code " ++ toString welcome.code ++
                ": " ++ welcome.message))

def connect (config : ServerConfig) (setup : Setup) (session : Session) :
    Except NntpError Unit × Session :=
  match session.connectInner config setup with
  | (.ok (), session) => (.ok (), session)
  | (.error (.failed e), session) => (.error e, session)
  | (.error .expired, session) =>
      (.error (.timeout ("connect to " ++ config.host ++ ":" ++ toString config.port ++
        " did not complete within " ++ toString config.connectTimeoutSecs ++ "s")),
        { session with state := .error })

end Session

end Rustnzb.Nntp
