import Rustnzb.Nntp.ConnectSteps

/-!
# Conversations with a server

An operation is asked for with its arguments and with the script of what the server and the
transport do in it. A conversation is a run of operations on one connection, from a new one on. The
pool keeps and hands out connections by their state.
-/

namespace Rustnzb.Nntp

open Lib (Run execute)

inductive Operation where
  | connect (config : ServerConfig) (setup : Setup)
  | fetchArticle (messageId : String) (script : Script)
  | fetchHeadNumber (articleNumber maxHeaderBytes : ℕ) (script : Script)
  | statArticle (messageId : String) (script : Script)
  | ping (script : Script)
  | group (name : String) (script : Script)
  | overviewFormat (script : Script)
  | xoverLossless (first last : ℕ) (script : Script)
  | xoverLosslessBounded (first last maxResponseBytes : ℕ) (script : Script)
  | xover (first last : ℕ) (script : Script)
  | xhdr (header : String) (range : ArticleRange) (script : Script)
  | xpat (header : String) (range : ArticleRange) (patterns : List String) (script : Script)
  | xpatBounded (header : String) (range : ArticleRange) (patterns : List String)
      (maxResponseBytes : ℕ) (script : Script)
  | fetchBody (messageId : String) (script : Script)
  | fetchBodyPrefix (messageId : String) (maxBytes : ℕ) (script : Script)
  | listActive (wildmat : Option String) (script : Script)
  | postArticle (article : String) (script : Script)
  | postArticleBytes (article : List UInt8) (script : Script)
  | processAll (depth : ℕ) (requests : List PipelineRequest) (script : Script)
  | executeStats (ids : List String) (script : Script)
  | markPeerClosed
  | disableCompression
  | quit (script : Script)

namespace Session

def perform (gzip : Gzip) (session : Session) : Operation → Session
  | .connect config setup => (session.connect config setup).2
  | .fetchArticle messageId script => (session.fetchArticle gzip script messageId).2
  | .fetchHeadNumber articleNumber maxHeaderBytes script =>
      (session.fetchHeadNumber gzip script articleNumber maxHeaderBytes).2
  | .statArticle messageId script => (session.statArticle script messageId).2
  | .ping script => (session.ping script).2
  | .group name script => (session.group script name).2
  | .overviewFormat script => (session.overviewFormat gzip script).2
  | .xoverLossless first last script => (session.xoverLossless gzip script first last).2
  | .xoverLosslessBounded first last maxResponseBytes script =>
      (session.xoverLosslessBounded gzip script first last maxResponseBytes).2
  | .xover first last script => (session.xover gzip script first last).2
  | .xhdr header range script => (session.xhdr gzip script header range).2
  | .xpat header range patterns script => (session.xpat gzip script header range patterns).2
  | .xpatBounded header range patterns maxResponseBytes script =>
      (session.xpatBounded gzip script header range patterns maxResponseBytes).2
  | .fetchBody messageId script => (session.fetchBody gzip script messageId).2
  | .fetchBodyPrefix messageId maxBytes script =>
      (session.fetchBodyPrefix script messageId maxBytes).2
  | .listActive wildmat script => (session.listActive gzip script wildmat).2
  | .postArticle article script => (session.postArticle script article).2
  | .postArticleBytes article script => (session.postArticleBytes script article).2
  | .processAll depth requests script => (session.processAll script depth requests).2
  | .executeStats ids script => (session.executeStats script ids).2
  | .markPeerClosed => session.markPeerClosed
  | .disableCompression => session.disableCompression
  | .quit script => session.quit script

def Step (gzip : Gzip) (session : Session) (operation : Operation) (session' : Session) : Prop :=
  session' = session.perform gzip operation

def release (session : Session) : Option Session :=
  if session.state = .ready && session.isConnected then some session else none

/-- What `check_idle` hands out of a parked connection; one that was idle too long is pinged. -/
def checkIdle (session : Session) (stale : Bool) (script : Script) : Option Session :=
  if session.state = .ready && session.isConnected then
    if stale then
      match session.ping script with
      | (.ok (), session) => some session
      | (.error _, _) => none
    else some session
  else none

end Session

def ArticleRange.OneLine : ArticleRange → Prop
  | .range _ _ => True
  | .messageId mid => Nntp.OneLine mid

/-- What an operation needs to keep its connection in step: texts on one line, status lines that
the server does not close the connection in, no block where none is read, a set-up that is answered
in full, and a batch of STAT commands on a connection that is ready. -/
def Careful (session : Session) : Operation → Prop
  | .connect config setup => config.OneLiners ∧ setup.Smooth
  | .fetchArticle messageId script => OneLine messageId ∧ script.Whole 1
  | .fetchHeadNumber _ _ script => script.Whole 1
  | .statArticle messageId script => OneLine messageId ∧ script.Whole 1
  | .ping script => (script.answers 0).hasBlock = false ∧ script.Whole 1
  | .group name script => OneLine name ∧ script.Whole 1
  | .overviewFormat script => script.Whole 1
  | .xoverLossless _ _ script => script.Whole 1
  | .xoverLosslessBounded _ _ _ script => script.Whole 1
  | .xover _ _ script => script.Whole 1
  | .xhdr header range script => OneLine header ∧ range.OneLine ∧ script.Whole 1
  | .xpat header range patterns script =>
      OneLine header ∧ range.OneLine ∧ (∀ pattern ∈ patterns, OneLine pattern) ∧ script.Whole 1
  | .xpatBounded header range patterns _ script =>
      OneLine header ∧ range.OneLine ∧ (∀ pattern ∈ patterns, OneLine pattern) ∧ script.Whole 1
  | .fetchBody messageId script => OneLine messageId ∧ script.Whole 1
  | .fetchBodyPrefix messageId _ script => OneLine messageId ∧ script.Whole 1
  | .listActive wildmat script => (∀ pattern ∈ wildmat, OneLine pattern) ∧ script.Whole 1
  | .postArticle _ script => (script.answers 1).hasBlock = false ∧ script.Whole 2
  | .postArticleBytes _ script => (script.answers 1).hasBlock = false ∧ script.Whole 2
  | .processAll _ requests script =>
      (∀ request ∈ requests, OneLine request.messageId) ∧ script.Whole requests.length
  | .executeStats ids script =>
      session.state = .ready ∧ (∀ mid ∈ ids, OneLine mid) ∧ script.Whole ids.length
  | .markPeerClosed => True
  | .disableCompression => True
  | .quit _ => True

theorem oneLine_rangeText (first last : ℕ) : OneLine (rangeText first last) :=
  ((oneLine_toString first).append (by decide)).append (oneLine_toString last)

theorem oneLine_toCommandArg {range : ArticleRange} (oneLine : range.OneLine) :
    OneLine range.toCommandArg := by
  cases range with
  | range first last => exact oneLine_rangeText first last
  | messageId mid => exact oneLine_normalizeMessageId oneLine

theorem oneLine_intercalate {texts : List String} (lines : ∀ text ∈ texts, OneLine text) :
    OneLine (" ".intercalate texts) := by
  induction texts with
  | nil => decide
  | cons text texts ih =>
      simp only [List.mem_cons, forall_eq_or_imp] at lines
      cases texts with
      | nil => simpa using lines.1
      | cons next rest =>
          rw [String.intercalate_cons_of_ne_nil (by simp)]
          exact (lines.1.append (by decide)).append (ih lines.2)

namespace Session

variable {gzip : Gzip} {session : Session}

variable {script : Script}

theorem inStep_line {α : Type} {doing word rest : String} {verdict : NntpResponse → Verdict α}
    (inStep : InStep session) (plain : Plain word) (oneLine : OneLine rest) (whole : script.Whole 1)
    (sound : ∀ status, (verdict status).Sound status.code) :
    InStep (session.whenReady doing fun session =>
      session.request (word ++ rest) script verdict).2 := by
  apply inStep_whenReady inStep
  intro ready
  exact inStep_request inStep ready (plain.append oneLine) whole fun status _ => sound status

theorem inStep_fetchArticle {messageId : String} (inStep : InStep session)
    (oneLine : OneLine messageId) (whole : script.Whole 1) :
    InStep (session.fetchArticle gzip script messageId).2 :=
  inStep_line inStep ⟨by decide, by decide⟩ (oneLine_normalizeMessageId oneLine) whole
    (sound_articleVerdict gzip _ _)

theorem inStep_ping (inStep : InStep session) (noBlock : (script.answers 0).hasBlock = false)
    (whole : script.Whole 1) : InStep (session.ping script).2 := by
  apply inStep_whenReady inStep
  intro ready
  apply inStep_request inStep ready ⟨by decide, by decide⟩ whole
  intro status code
  apply sound_pingVerdict
  simpa [Response.hasBlock, code] using noBlock

theorem ready_of_ping {session' : Session} (pings : session.ping script = (.ok (), session')) :
    session'.state = .ready := by
  simp only [ping, whenReady, request] at pings
  split at pings
  · cases pings
  · split at pings
    · cases pings
    next status _ _ _ =>
      simp only [pingVerdict] at pings
      split at pings
      next isBlock => split at isBlock <;> cases isBlock
      next isReady => cases pings; rfl
      · cases pings

theorem inStep_xoverLosslessWithLimit (inStep : InStep session) (first last : ℕ)
    (maxResponseBytes : Option ℕ) (whole : script.Whole 1) :
    InStep (session.xoverLosslessWithLimit gzip script first last maxResponseBytes).2 :=
  inStep_line inStep ⟨by decide, by decide⟩ (oneLine_rangeText first last) whole
    (sound_xoverVerdict gzip _ _)

theorem inStep_xpatWithLimit {header : String} {range : ArticleRange} {patterns : List String}
    (inStep : InStep session) (maxResponseBytes : Option ℕ) (oneLine : OneLine header)
    (oneLine' : range.OneLine) (lines : ∀ pattern ∈ patterns, OneLine pattern)
    (whole : script.Whole 1) :
    InStep (session.xpatWithLimit gzip script header range patterns maxResponseBytes).2 := by
  apply inStep_whenReady inStep
  intro ready
  split
  · exact inStep
  · apply inStep_request inStep ready _ whole
    · exact fun status _ => sound_xpatVerdict gzip _ _ _ status
    · have plain : Plain ("XPAT " ++ header) := Plain.append ⟨by decide, by decide⟩ oneLine
      have ranged : Plain ("XPAT " ++ header ++ " " ++ range.toCommandArg) :=
        (plain.append (by decide)).append (oneLine_toCommandArg oneLine')
      exact (ranged.append (by decide)).append (oneLine_intercalate lines)

theorem inStep_quit (inStep : InStep session) (script : Script) : InStep (session.quit script) := by
  simp only [quit]
  generalize asked : session.ask "QUIT" script = outcome
  rcases outcome with ⟨result, final⟩
  have kept := kept_ask (by decide) asked
  exact .of_ne_ready (kept.sentLines inStep.sentLines) nofun

theorem inStep_perform {operation : Operation} (inStep : InStep session)
    (careful : Careful session operation) : InStep (session.perform gzip operation) := by
  cases operation with
  | connect config setup => exact inStep_connect inStep careful.1 careful.2
  | fetchArticle messageId script => exact inStep_fetchArticle inStep careful.1 careful.2
  | fetchHeadNumber articleNumber maxHeaderBytes script =>
      simp only [perform, fetchHeadNumber]
      split
      · exact inStep
      · split
        · exact inStep
        · exact inStep_line inStep ⟨by decide, by decide⟩ (oneLine_toString articleNumber) careful
            (sound_headVerdict gzip _ · articleNumber maxHeaderBytes)
  | statArticle messageId script =>
      simp only [perform, statArticle]
      split
      · exact inStep
      · exact inStep_line inStep ⟨by decide, by decide⟩
          (oneLine_normalizeMessageId careful.1) careful.2 (sound_statVerdict _)
  | ping script => exact inStep_ping inStep careful.1 careful.2
  | group name script =>
      exact inStep_line inStep ⟨by decide, by decide⟩ careful.1 careful.2 (sound_groupVerdict _)
  | overviewFormat script =>
      apply inStep_whenReady inStep
      intro ready
      apply inStep_request inStep ready ⟨by decide, by decide⟩ careful
      exact fun status _ => sound_overviewFormatVerdict gzip _ status
  | xoverLossless first last script =>
      exact inStep_xoverLosslessWithLimit inStep first last none careful
  | xoverLosslessBounded first last maxResponseBytes script =>
      simp only [perform, xoverLosslessBounded]
      split
      · exact inStep
      · exact inStep_xoverLosslessWithLimit inStep first last (some maxResponseBytes) careful
  | xover first last script =>
      exact inStep_line inStep ⟨by decide, by decide⟩ (oneLine_rangeText first last) careful
        (sound_xoverVerdict gzip _ _)
  | xhdr header range script =>
      apply inStep_whenReady inStep
      intro ready
      apply inStep_request inStep ready _ careful.2.2
      · exact fun status _ => sound_xhdrVerdict gzip _ _ status
      · have plain : Plain ("XHDR " ++ header) := Plain.append ⟨by decide, by decide⟩ careful.1
        exact (plain.append (by decide)).append (oneLine_toCommandArg careful.2.1)
  | xpat header range patterns script =>
      exact inStep_xpatWithLimit inStep none careful.1 careful.2.1 careful.2.2.1 careful.2.2.2
  | xpatBounded header range patterns maxResponseBytes script =>
      simp only [perform, xpatBounded]
      split
      · exact inStep
      · exact inStep_xpatWithLimit inStep (some maxResponseBytes) careful.1 careful.2.1
          careful.2.2.1 careful.2.2.2
  | fetchBody messageId script =>
      simp only [perform, fetchBody]
      split
      · have inStep' : InStep (session.fetchArticle gzip script messageId).2 :=
          inStep_fetchArticle inStep careful.1 careful.2
        generalize session.fetchArticle gzip script messageId = outcome at inStep'
        rcases outcome with ⟨result, final⟩
        cases result <;> exact inStep'
      · exact inStep_line inStep ⟨by decide, by decide⟩
          (oneLine_normalizeMessageId careful.1) careful.2 (sound_bodyVerdict gzip _ _)
  | fetchBodyPrefix messageId maxBytes script =>
      simp only [perform, fetchBodyPrefix]
      split
      · exact inStep
      · split
        · exact inStep
        · split
          · exact inStep
          · exact inStep_line inStep ⟨by decide, by decide⟩
              (oneLine_normalizeMessageId careful.1) careful.2
              (sound_bodyPrefixVerdict _ _ · maxBytes)
  | listActive wildmat script =>
      apply inStep_whenReady inStep
      intro ready
      apply inStep_request inStep ready _ careful.2
      · exact fun status _ => sound_listActiveVerdict gzip _ status
      · cases wildmat with
        | none => exact ⟨by decide, by decide⟩
        | some pattern => exact Plain.append ⟨by decide, by decide⟩ (careful.1 pattern rfl)
  | postArticle article script =>
      exact inStep_post inStep (postsLines_strLines _) careful.2 careful.1
  | postArticleBytes article script =>
      exact inStep_post inStep (postsLines_postBody article) careful.2 careful.1
  | processAll depth requests script => exact inStep_processAll inStep careful.2 careful.1
  | executeStats ids script =>
      exact inStep_executeStats inStep careful.1 careful.2.2 careful.2.1
  | markPeerClosed => exact .of_ne_ready inStep.sentLines nofun
  | disableCompression => exact ⟨inStep.sentLines, inStep.quiet⟩
  | quit script => exact inStep_quit inStep script

theorem step_functional (gzip : Gzip) (session : Session) (operation : Operation)
    (next other : Session) (move : Step gzip session operation next)
    (move' : Step gzip session operation other) : next = other :=
  move.trans move'.symm

/-- A ready connection of a careful conversation is in step with its server, and so is every one
that the pool parks or hands out. -/
theorem in_step {operations : List Operation} (run : Run (Step gzip) new operations session)
    (careful : Run.Always (Step gzip) new (fun _ => Careful) operations) :
    InStep session ∧
      (∀ parked, session.release = some parked → ∀ wire ∈ parked.transport, wire.Quiet) ∧
      ∀ stale script handed, (stale = true → Careful session (.ping script)) →
        session.checkIdle stale script = some handed →
          handed.state = .ready ∧ ∀ wire ∈ handed.transport, wire.Quiet := by
  have inStep : InStep session := by
    apply run.invariant_of_steps (fun _ session => InStep session) careful
    · exact .of_ne_ready nofun nofun
    · intro _ session operation _ _ inStep careful move
      rw [move]
      exact inStep_perform inStep careful
  refine ⟨inStep, ?_, ?_⟩
  · intro parked isParked
    simp only [release] at isParked
    split at isParked
    next ready =>
      cases isParked
      simp only [Bool.and_eq_true, decide_eq_true_eq] at ready
      exact inStep.quiet ready.1
    · cases isParked
  · intro stale script handed carefulPing isHanded
    simp only [checkIdle] at isHanded
    split at isHanded
    next ready =>
      simp only [Bool.and_eq_true, decide_eq_true_eq] at ready
      split at isHanded
      next isStale =>
        have isCareful := carefulPing isStale
        have pinged := inStep_ping inStep isCareful.1 isCareful.2
        split at isHanded
        next after ping =>
          cases isHanded
          rw [ping] at pinged
          have isReady := ready_of_ping ping
          exact ⟨isReady, pinged.quiet isReady⟩
        · cases isHanded
      · cases isHanded
        exact ⟨ready.1, inStep.quiet ready.1⟩
    · cases isHanded

def statusLine (text : String) (oneLine : lf ∉ utf8 text) : Response where
  status := utf8 text
  block := []
  oneLine := oneLine
  lines := by simp

def welcome : Response := statusLine "200 welcome\r" (by decide)
def unknown : Response := statusLine "500 unknown command\r" (by decide)
def missing : Response := statusLine "430 no such article\r" (by decide)
def present : Response := statusLine "223 0 there it is\r" (by decide)

def answering (first second : Response) : Script where
  answers number := if number = 0 then first else second
  writes _ := none
  lines _ := { seen := 100, ending := .silent }
  blocks _ := { seen := 100, ending := .silent }
  expired := false

/-- The status line of the first answer does not come in time. -/
def late (answer : Response) : Script :=
  { answering answer answer with lines := fun _ => { seen := 0, ending := .silent } }

def plainConfig : ServerConfig where
  host := "news.example"
  port := 119
  username := none
  password := none
  compress := false
  connectTimeoutSecs := 30

def plainSetup : Setup where
  opening := .opened
  greeting := answering welcome welcome
  user := answering unknown unknown
  pass := answering unknown unknown
  capabilities := answering unknown unknown
  reader := answering unknown unknown
  extensions := answering unknown unknown
  compress := answering unknown unknown

def noGzip : Gzip where
  whole _ := none
  upTo _ data := .ok data

/-- A ready connection with bytes that nobody read. -/
def outOfStep (session : Session) : Bool :=
  session.state = .ready && session.transport.any fun wire => wire.pending ≠ []

theorem not_inStep_of_outOfStep (isOut : session.outOfStep = true) : ¬InStep session := by
  intro inStep
  simp only [outOfStep, Bool.and_eq_true, decide_eq_true_eq, Option.any_eq_true] at isOut
  rcases isOut.2 with ⟨wire, connected, unread⟩
  have quiet := inStep.quiet isOut.1 wire connected
  simp [quiet.2.2] at unread

/-- A message id with a line break is two commands, of which the answer to one is read. -/
def brokenId : Operation := .fetchArticle "a@x>\r\nSTAT <b@y" (answering missing present)

theorem not_in_step : ¬∀ (gzip : Gzip) (operations : List Operation) (session : Session),
    Run (Step gzip) new operations session → InStep session := by
  intro always
  have connected : Run (Step noGzip) new [.connect plainConfig plainSetup]
      (new.perform noGzip (.connect plainConfig plainSetup)) := Run.start.snoc rfl
  have run : Run (Step noGzip) new [.connect plainConfig plainSetup, brokenId]
      ((new.perform noGzip (.connect plainConfig plainSetup)).perform noGzip brokenId) :=
    connected.snoc rfl
  exact not_inStep_of_outOfStep (by decide) (always noGzip _ _ run)

example : outOfStep (new.perform noGzip
    (.connect plainConfig { plainSetup with capabilities := late unknown })) = true := by
  decide

example : outOfStep ([.connect plainConfig plainSetup, .statArticle "a@x" (late missing),
    .executeStats ["b@y"] (answering present present)].foldl (perform noGzip) new) = true := by
  decide

theorem setsUp_answering (expected : Option ℕ) (unexpected : some 500 ≠ expected) :
    (answering unknown unknown).SetsUp expected := by
  have code : ((answering unknown unknown).answers 0).code = some 500 := by decide
  refine ⟨by decide, .inr (by decide), .inr ⟨rfl, by decide, ?_, ?_⟩⟩
  · decide
  · exact fun isExpected => absurd (code.symm.trans isExpected) unexpected

theorem smooth_plainSetup : plainSetup.Smooth where
  greeting := by decide
  user := by decide
  pass := by decide
  setsUp := {
    capabilities := setsUp_answering (some 101) (by decide)
    reader := setsUp_answering none (by decide)
    extensions := setsUp_answering (some 202) (by decide)
    compress := setsUp_answering none (by decide) }

def stats : Operation := .executeStats ["a@x", "b@y"] (answering present missing)
def fetch : Operation := .fetchArticle "b@y" (answering missing missing)

def connectedSession : Session := new.perform noGzip (.connect plainConfig plainSetup)
def askedSession : Session := connectedSession.perform noGzip stats

theorem in_step_stats : InStep (askedSession.perform noGzip fetch) ∧
    (askedSession.perform noGzip fetch).state = .ready := by
  have connected : Run (Step noGzip) new [.connect plainConfig plainSetup] connectedSession :=
    Run.start.snoc rfl
  have asked : Run (Step noGzip) new [.connect plainConfig plainSetup, stats] askedSession :=
    connected.snoc rfl
  have run : Run (Step noGzip) new [.connect plainConfig plainSetup, stats, fetch]
      (askedSession.perform noGzip fetch) := asked.snoc rfl
  have functional := step_functional noGzip
  have first : Careful new (.connect plainConfig plainSetup) :=
    ⟨⟨nofun, nofun⟩, smooth_plainSetup⟩
  have second : Careful connectedSession stats :=
    ⟨by decide, by decide, by decide⟩
  have third : Careful askedSession fetch := ⟨by decide, by decide⟩
  have careful : Run.Always (Step noGzip) new (fun _ => Careful)
      [.connect plainConfig plainSetup] :=
    Run.Always.nil.concat_of_functional functional Run.start first
  have careful' : Run.Always (Step noGzip) new (fun _ => Careful)
      [.connect plainConfig plainSetup, stats, fetch] :=
    (careful.concat_of_functional functional connected second).concat_of_functional functional
      asked third
  exact ⟨(in_step run careful').1, by decide⟩

end Session

end Rustnzb.Nntp
