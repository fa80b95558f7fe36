import Rustnzb.Nntp.Session

/-!
# The operations of a connection

Each operation sends a command of its own and has its own verdicts on the status codes. The rows
parsed out of a block are left out: an operation that parses returns the block.
-/

namespace Rustnzb.Nntp

open Dispatch (NntpError unexpectedArticleResponse)

def rejected (command : String) (status : NntpResponse) : NntpError :=
  .auth (command ++ " rejected (" ++ toString status.code ++ "): " ++ status.message)

def unexpected (command : String) (status : NntpResponse) : NntpError :=
  .protocol ("Unexpected " ++ command ++ " response " ++ toString status.code ++ ": " ++
    status.message)

def withData (status : NntpResponse) (data : List UInt8) : NntpResponse :=
  { status with data := some data }

def noNewsgroup : NntpError := .noSuchGroup "No newsgroup selected (send GROUP first)"

inductive ArticleRange where
  | range (first last : ℕ)
  | messageId (mid : String)
  deriving DecidableEq

def rangeText (first last : ℕ) : String := toString first ++ "-" ++ toString last

def ArticleRange.toCommandArg : ArticleRange → String
  | .range first last => rangeText first last
  | .messageId mid => normalizeMessageId mid

structure GroupResponse where
  count : ℕ
  first : ℕ
  last : ℕ
  name : String
  deriving DecidableEq

/-- `split_whitespace`. -/
def words (text : String) : List String :=
  ((text.toList.splitOnP Core.isWhitespace).filter (· ≠ [])).map String.ofList

def parseU64 (text : String) : ℕ := (Core.parseUnsigned (2 ^ 64) text).getD 0

/-- The body of an article, which comes after its first empty line. -/
def stripArticleHeaders : List UInt8 → List UInt8
  | first :: second :: rest =>
      if first = cr ∧ second = lf then
        match rest with
        | third :: fourth :: body =>
            if third = cr ∧ fourth = lf then body
            else stripArticleHeaders (second :: third :: fourth :: body)
        | short => stripArticleHeaders (second :: short)
      else if first = lf ∧ second = lf then rest
      else stripArticleHeaders (second :: rest)
  | _ => []

/-- `str::lines`, on the bytes of a text: a CR is taken off before an LF only. -/
def strLines (text : List UInt8) : List (List UInt8) :=
  match found : splitLine text with
  | some (line, rest) =>
      have : rest.length < text.length := length_lt_of_splitLine found
      stripCr line.dropLast :: strLines rest
  | none => if text = [] then [] else [text]
termination_by text.length

/-- Read the first bytes of a block; a connection that holds the rest of it is given up. -/
def Session.readPrefix (cut : Cut) (maxBytes : ℕ) (session : Session) :
    Except NntpError BodyPrefixResponse × Session :=
  match session.readWith cut fun incoming => incoming.readMultilineBodyPrefix maxBytes with
  | (.error e, session) => (.error e, { session with state := .error })
  | (.ok shown, session) =>
      if shown.complete then (.ok shown, { session with state := .ready })
      else
        (.ok shown, {
          session with
          transport := none
          compressEnabled := false
          state := .disconnected })

section Verdicts

variable (gzip : Gzip) (cut : Cut)

def articleVerdict (mid : String) (status : NntpResponse) : Verdict NntpResponse :=
  match status.code with
  | 220 => .block (Session.readBlock gzip cut none (withData status))
  | 430 => .ready (.error (.articleNotFound mid))
  | 411 => .ready (.error (.noSuchGroup status.message))
  | 412 | 420 | 423 => .ready (.error (.noArticleSelected status.message))
  | 403 => .failed (.permissionDenied status.message)
  | 480 => .failed (.authRequired status.message)
  | 481 | 482 => .failed (rejected "ARTICLE" status)
  | 502 => .failed (.serviceUnavailable status.message)
  | _ => .failed (unexpectedArticleResponse status.code status.message)

def headVerdict (articleNumber maxHeaderBytes : ℕ) (status : NntpResponse) : Verdict NntpResponse :=
  match status.code with
  | 221 => .block (Session.readBlock gzip cut (some maxHeaderBytes) (withData status))
  | 423 => .ready (.error (.articleNotFound (toString articleNumber)))
  | 411 => .ready (.error (.noSuchGroup status.message))
  | 412 | 420 => .ready (.error (.noArticleSelected status.message))
  | 403 => .failed (.permissionDenied status.message)
  | 480 => .failed (.authRequired status.message)
  | 481 | 482 => .failed (rejected "HEAD" status)
  | 502 => .failed (.serviceUnavailable status.message)
  | _ => .failed (unexpected "HEAD" status)

def statVerdict (mid : String) (status : NntpResponse) : Verdict NntpResponse :=
  match status.code with
  | 223 => .ready (.ok status)
  | 430 => .ready (.error (.articleNotFound mid))
  | 403 => .failed (.permissionDenied status.message)
  | 502 => .failed (.serviceUnavailable status.message)
  | 480 => .failed (.authRequired status.message)
  | 481 | 482 => .failed (rejected "STAT" status)
  | _ => .failed (unexpected "STAT" status)

def pingVerdict (status : NntpResponse) : Verdict Unit :=
  match status.code with
  | 400 | 403 | 480 | 481 | 482 | 502 =>
      .failed (.connection ("Health check rejected (" ++ toString status.code ++ "): " ++
        status.message))
  | _ => .ready (.ok ())

def groupVerdict (name : String) (status : NntpResponse) : Verdict GroupResponse :=
  match status.code with
  | 211 =>
      match words status.message with
      | count :: first :: last :: rest =>
          .ready (.ok {
            count := parseU64 count
            first := parseU64 first
            last := parseU64 last
            name := rest.headD name })
      | _ => .ready (.error (.protocol ("Malformed GROUP response: " ++ status.message)))
  | 411 => .ready (.error (.noSuchGroup name))
  | 480 => .failed (.authRequired status.message)
  | 481 | 482 => .failed (rejected "GROUP" status)
  | 502 => .failed (.serviceUnavailable status.message)
  | _ => .failed (unexpected "GROUP" status)

def overviewFormatVerdict (status : NntpResponse) : Verdict (List UInt8) :=
  match status.code with
  | 215 => .block (Session.readBlock gzip cut none id)
  | 480 => .failed (.authRequired status.message)
  | 481 | 482 => .failed (rejected "LIST OVERVIEW.FMT" status)
  | 502 => .failed (.serviceUnavailable status.message)
  | _ => .failed (unexpected "LIST OVERVIEW.FMT" status)

def xoverVerdict (maxBytes : Option ℕ) (status : NntpResponse) : Verdict (List UInt8) :=
  match status.code with
  | 224 => .block (Session.readBlock gzip cut maxBytes id)
  | 420 | 423 => .ready (.ok [])
  | 412 => .ready (.error noNewsgroup)
  | 481 | 482 => .failed (rejected "XOVER" status)
  | 502 => .failed (.serviceUnavailable status.message)
  | _ => .failed (unexpected "XOVER" status)

def xhdrVerdict (arg : String) (status : NntpResponse) : Verdict (List UInt8) :=
  match status.code with
  | 221 => .block (Session.readBlock gzip cut none id)
  | 420 | 423 => .ready (.ok [])
  | 412 => .ready (.error noNewsgroup)
  | 430 => .ready (.error (.articleNotFound arg))
  | 481 | 482 => .failed (rejected "XHDR" status)
  | 502 => .failed (.serviceUnavailable status.message)
  | _ => .failed (unexpected "XHDR" status)

def xpatVerdict (maxBytes : Option ℕ) (arg : String) (status : NntpResponse) :
    Verdict (List UInt8) :=
  match status.code with
  | 221 => .block (Session.readBlock gzip cut maxBytes id)
  | 420 | 423 => .ready (.ok [])
  | 412 => .ready (.error noNewsgroup)
  | 430 => .ready (.error (.articleNotFound arg))
  | 481 | 482 => .failed (rejected "XPAT" status)
  | 502 => .failed (.serviceUnavailable status.message)
  | 500 | 501 =>
      .ready (.error (.unsupportedCommand ("XPAT unsupported (" ++ toString status.code ++ "): " ++
        status.message)))
  | _ => .failed (unexpected "XPAT" status)

def bodyVerdict (mid : String) (status : NntpResponse) : Verdict NntpResponse :=
  match status.code with
  | 222 => .block (Session.readBlock gzip cut none (withData status))
  | 430 => .ready (.error (.articleNotFound mid))
  | 412 | 420 | 423 => .ready (.error (.noArticleSelected status.message))
  | 480 => .failed (.authRequired status.message)
  | 481 | 482 => .failed (rejected "BODY" status)
  | 502 => .failed (.serviceUnavailable status.message)
  | _ => .failed (unexpected "BODY" status)

def bodyPrefixVerdict (mid : String) (maxBytes : ℕ) (status : NntpResponse) :
    Verdict BodyPrefixResponse :=
  match status.code with
  | 222 => .block (Session.readPrefix cut maxBytes)
  | 430 => .ready (.error (.articleNotFound mid))
  | 412 | 420 | 423 => .ready (.error (.noArticleSelected status.message))
  | 403 => .failed (.permissionDenied status.message)
  | 480 => .failed (.authRequired status.message)
  | 481 | 482 => .failed (rejected "BODY prefix" status)
  | 500 | 501 => .ready (.error (.unsupportedCommand status.message))
  | 502 => .failed (.serviceUnavailable status.message)
  | _ => .failed (unexpected "BODY prefix" status)

def listActiveVerdict (status : NntpResponse) : Verdict (List UInt8) :=
  match status.code with
  | 215 => .block (Session.readBlock gzip cut none id)
  | 481 | 482 => .failed (rejected "LIST ACTIVE" status)
  | 502 => .failed (.serviceUnavailable status.message)
  | _ => .failed (unexpected "LIST ACTIVE" status)

end Verdicts

namespace Session

variable (gzip : Gzip) (session : Session) (script : Script)

def fetchArticle (messageId : String) : Except NntpError NntpResponse × Session :=
  session.whenReady "fetch article" fun session =>
    let mid := normalizeMessageId messageId
    session.request ("ARTICLE " ++ mid) script (articleVerdict gzip (script.blocks 0) mid)

def fetchHeadNumber (articleNumber maxHeaderBytes : ℕ) : Except NntpError NntpResponse × Session :=
  if !session.capabilities.haveHead then
    (.error (.protocol "Server does not support HEAD"), session)
  else if articleNumber = 0 ∨ maxHeaderBytes = 0 ∨ 64 * 1024 < maxHeaderBytes then
    (.error (.protocol "HEAD request bound is invalid"), session)
  else
    session.whenReady "HEAD" fun session =>
      session.request ("HEAD " ++ toString articleNumber) script
        (headVerdict gzip (script.blocks 0) articleNumber maxHeaderBytes)

def statArticle (messageId : String) : Except NntpError NntpResponse × Session :=
  if !session.capabilities.haveStat then
    (.error (.articleNotFound (normalizeMessageId messageId)), session)
  else
    session.whenReady "STAT" fun session =>
      let mid := normalizeMessageId messageId
      session.request ("STAT " ++ mid) script (statVerdict mid)

def ping : Except NntpError Unit × Session :=
  session.whenReady "ping" fun session =>
    session.request "DATE" script pingVerdict

def group (name : String) : Except NntpError GroupResponse × Session :=
  session.whenReady "GROUP" fun session =>
    session.request ("GROUP " ++ name) script (groupVerdict name)

def overviewFormat : Except NntpError (List UInt8) × Session :=
  session.whenReady "LIST OVERVIEW.FMT" fun session =>
    session.request "LIST OVERVIEW.FMT" script (overviewFormatVerdict gzip (script.blocks 0))

def xoverLosslessWithLimit (first last : ℕ) (maxResponseBytes : Option ℕ) :
    Except NntpError (List UInt8) × Session :=
  session.whenReady "XOVER" fun session =>
    session.request ("XOVER " ++ rangeText first last) script
      (xoverVerdict gzip (script.blocks 0) maxResponseBytes)

def xoverLossless (first last : ℕ) : Except NntpError (List UInt8) × Session :=
  session.xoverLosslessWithLimit gzip script first last none

def xoverLosslessBounded (first last maxResponseBytes : ℕ) :
    Except NntpError (List UInt8) × Session :=
  if maxResponseBytes = 0 ∨ 8 * 1024 * 1024 < maxResponseBytes then
    (.error (.protocol "XOVER response bound is invalid"), session)
  else session.xoverLosslessWithLimit gzip script first last (some maxResponseBytes)

def xover (first last : ℕ) : Except NntpError (List UInt8) × Session :=
  session.whenReady "XOVER" fun session =>
    session.request ("XOVER " ++ rangeText first last) script
      (xoverVerdict gzip (script.blocks 0) none)

def xhdr (header : String) (range : ArticleRange) : Except NntpError (List UInt8) × Session :=
  session.whenReady "XHDR" fun session =>
    let arg := range.toCommandArg
    session.request ("XHDR " ++ header ++ " " ++ arg) script
      (xhdrVerdict gzip (script.blocks 0) arg)

def xpatWithLimit (header : String) (range : ArticleRange) (patterns : List String)
    (maxResponseBytes : Option ℕ) : Except NntpError (List UInt8) × Session :=
  session.whenReady "XPAT" fun session =>
    if patterns = [] then
      (.error (.protocol "XPAT requires at least one pattern"), session)
    else
      let arg := range.toCommandArg
      session.request ("XPAT " ++ header ++ " " ++ arg ++ " " ++ " ".intercalate patterns) script
        (xpatVerdict gzip (script.blocks 0) maxResponseBytes arg)

def xpat (header : String) (range : ArticleRange) (patterns : List String) :
    Except NntpError (List UInt8) × Session :=
  session.xpatWithLimit gzip script header range patterns none

def xpatBounded (header : String) (range : ArticleRange) (patterns : List String)
    (maxResponseBytes : ℕ) : Except NntpError (List UInt8) × Session :=
  if maxResponseBytes = 0 ∨ 8 * 1024 * 1024 < maxResponseBytes then
    (.error (.protocol "XPAT response bound is invalid"), session)
  else session.xpatWithLimit gzip script header range patterns (some maxResponseBytes)

def fetchBody (messageId : String) : Except NntpError NntpResponse × Session :=
  if !session.capabilities.haveBody && session.capabilities.haveArticle then
    match session.fetchArticle gzip script messageId with
    | (.error e, session) => (.error e, session)
    | (.ok resp, session) =>
        (.ok { resp with code := 222, data := resp.data.map stripArticleHeaders }, session)
  else
    session.whenReady "BODY" fun session =>
      let mid := normalizeMessageId messageId
      session.request ("BODY " ++ mid) script (bodyVerdict gzip (script.blocks 0) mid)

def fetchBodyPrefix (messageId : String) (maxBytes : ℕ) :
    Except NntpError BodyPrefixResponse × Session :=
  if maxBytes = 0 ∨ 256 * 1024 < maxBytes then
    (.error (.protocol "BODY prefix request bound is invalid"), session)
  else if session.compressEnabled then
    (.error (.unsupportedCommand
      "BODY prefix requires an uncompressed observation connection"), session)
  else if !session.capabilities.haveBody then
    (.error (.unsupportedCommand "Server does not support BODY prefix observation"), session)
  else
    session.whenReady "BODY prefix" fun session =>
      let mid := normalizeMessageId messageId
      session.request ("BODY " ++ mid) script
        (bodyPrefixVerdict (script.blocks 0) mid maxBytes)

def listActive (wildmat : Option String) : Except NntpError (List UInt8) × Session :=
  session.whenReady "LIST ACTIVE" fun session =>
    let command := match wildmat with
      | some pattern => "LIST ACTIVE " ++ pattern
      | none => "LIST ACTIVE"
    session.request command script (listActiveVerdict gzip (script.blocks 0))

/-- Both ways to post, with what is written after a 340. -/
def post (body : List UInt8) : Except NntpError NntpResponse × Session :=
  session.whenReady "POST" fun session =>
    match { session with state := .busy }.ask "POST" script with
    | (.error e, session) => (.error e, { session with state := .error })
    | (.ok (status, answers), session) =>
        match status.code with
        | 340 =>
            match session.writeAll body answers (script.writes 1) with
            | (.error e, session) => (.error e, { session with state := .error })
            | (.ok _, session) =>
                match session.readResponseLine (script.lines 1) with
                | (.error e, session) => (.error e, { session with state := .error })
                | (.ok result, session) => (.ok result, { session with state := .ready })
        | 440 => (.ok status, { session with state := .ready })
        | _ => (.error (unexpected "POST" status), { session with state := .error })

def postArticle (article : String) : Except NntpError NntpResponse × Session :=
  session.post script ((strLines (utf8 article)).flatMap stuff ++ dot :: crlf)

def postArticleBytes (article : List UInt8) : Except NntpError NntpResponse × Session :=
  session.post script (postBody article)

def quit : Session :=
  let (_, session) := session.ask "QUIT" script
  { session with transport := none, state := .disconnected }

def markPeerClosed : Session := { session with state := .peerClosed }

def disableCompression : Session := { session with compressEnabled := false }

end Session

end Rustnzb.Nntp
