import Rustnzb.Nntp.BatchSteps

/-!
# A connection that was set up is in step

The set-up goes on after a failed exchange with a connection that is ready. It is in step if no
exchange of the set-up fails before its response was read, or `connect` fails with it.
-/

namespace Rustnzb.Nntp

open Dispatch (NntpError)

def Response.readable (response : Response) : Bool :=
  (parseLineBytes (response.status ++ [lf])).isOk

/-- The command is sent and the response arrives, with its block when it has the expected code. -/
structure Script.Delivers (script : Script) (expected : Option ℕ) : Prop where
  written : script.writes 0 = none
  line : (script.answers 0).status.length < (script.lines 0).seen
  readable : (script.answers 0).readable = true
  block : (script.answers 0).code = expected →
    (script.answers 0).blockBytes.length ≤ (script.blocks 0).seen

/-- An exchange of the set-up is answered in full, or the budget runs out in it; a block comes with
the expected code only. -/
structure Script.SetsUp (script : Script) (expected : Option ℕ) : Prop where
  whole : script.Whole 1
  asked : (script.answers 0).code = expected ∨ (script.answers 0).hasBlock = false
  answered : script.expired = true ∨ script.Delivers expected

structure Setup.SetsUp (setup : Setup) : Prop where
  capabilities : setup.capabilities.SetsUp (some 101)
  reader : setup.reader.SetsUp none
  extensions : setup.extensions.SetsUp (some 202)
  compress : setup.compress.SetsUp none

structure ServerConfig.OneLiners (config : ServerConfig) : Prop where
  username : ∀ username ∈ config.username, OneLine username
  password : ∀ password ∈ config.password, OneLine password

/-- What the whole of `connect` asks of its exchanges. -/
structure Setup.Smooth (setup : Setup) : Prop where
  greeting : setup.greeting.Whole 1
  user : setup.user.Whole 1
  pass : setup.pass.Whole 1
  setsUp : setup.SetsUp

structure Idle (session : Session) : Prop where
  sentLines : SentLines session
  connected : session.transport.isSome = true
  owes : Owes session false []

/-- What an exchange of the set-up leaves, unless the budget ran out in it. -/
structure Settles (outcome : Except Halt Unit × Session) : Prop where
  sentLines : SentLines outcome.2
  idle : outcome.1 ≠ .error .expired → Idle outcome.2

theorem Idle.settles {outcome : Except Halt Unit × Session} (idle : Idle outcome.2) :
    Settles outcome :=
  ⟨idle.sentLines, fun _ => idle⟩

section Settles

variable {outcome : Except Halt Unit × Session}

theorem Settles.andThen {next : Unit → Session → Except Halt Unit × Session}
    (settles : Settles outcome) (goes : ∀ session, Idle session → Settles (next () session)) :
    Settles (Nntp.andThen outcome next) := by
  rcases outcome with ⟨result, session⟩
  cases result with
  | error halt =>
      refine ⟨settles.sentLines, fun notExpired => settles.idle ?_⟩
      simpa [Nntp.andThen] using notExpired
  | ok => exact goes session (settles.idle nofun)

theorem Settles.tolerate {onFailure : Session → Session} (settles : Settles outcome)
    (same : ∀ session, (onFailure session).transport = session.transport ∧
      (onFailure session).sent = session.sent) : Settles (Nntp.tolerate onFailure outcome) := by
  rcases outcome with ⟨result, session⟩
  simp only [Nntp.tolerate]
  split
  next e final isFailed =>
    cases isFailed
    have idle := settles.idle nofun
    have ⟨transport, sent⟩ := same session
    apply Idle.settles
    constructor
    · simpa [SentLines, sent] using idle.sentLines
    · simpa [transport] using idle.connected
    · simpa [Owes, transport] using idle.owes
  · exact settles

end Settles

namespace Session

variable {session session' : Session} {command : String} {script : Script} {expected : Option ℕ}

theorem ask_delivers (owes : Owes session false []) (connected : session.transport.isSome = true)
    (oneLine : OneLine command) (delivers : script.Delivers expected) :
    ∃ reply session', session.ask command script = (.ok reply, session') := by
  rcases Option.isSome_iff_exists.mp connected with ⟨wire, isWire⟩
  have sends : ∃ answers middle,
      session.sendCommand command script.answers (script.writes 0) = (.ok answers, middle) := by
    simp [sendCommand, writeAll, isWire, delivers.written, Wire.write]
  rcases sends with ⟨answers, middle, sends⟩
  rcases sendCommand_ok owes oneLine sends with ⟨_, _, owing⟩
  have kept := kept_sendCommand oneLine sends
  rcases Option.isSome_iff_exists.mp (kept.connected.trans connected) with ⟨wire', isWire'⟩
  have pending : wire'.pending =
      (script.answers 0).status ++ lf :: (script.answers 0).blockBytes := by
    rw [owing wire' isWire']
    rfl
  have arrives : ∃ rest, wire'.pending.take (script.lines 0).seen =
      (script.answers 0).status ++ lf :: rest := by
    have line := delivers.line
    refine ⟨(script.answers 0).blockBytes.take
      ((script.lines 0).seen - (script.answers 0).status.length - 1), ?_⟩
    rw [pending, List.take_append, List.take_of_length_le (by omega)]
    congr 1
    rw [List.take_cons (by omega)]
  rcases arrives with ⟨rest, arrives⟩
  have readable := delivers.readable
  cases parsed : parseLineBytes ((script.answers 0).status ++ [lf]) with
  | error e => simp [Response.readable, parsed, Except.isOk, Except.toBool] at readable
  | ok reply =>
      have reads : ∃ final, middle.readResponseLine (script.lines 0) = (.ok reply, final) := by
        simp only [readResponseLine, readWith, isWire', Wire.read, arrives,
          readResponseLine_of_line (script.answers 0).oneLine rest, parsed]
        exact ⟨_, rfl⟩
      rcases reads with ⟨final, reads⟩
      exact ⟨(reply, answers), final, by simp only [ask, sends, reads]⟩

theorem readMultilineBody_arrives {response : Response} {cut : Cut}
    (owes : Owes session false response.blockBytes) (connected : session.transport.isSome = true)
    (hasBlock : response.hasBlock = true) (arrives : response.blockBytes.length ≤ cut.seen) :
    ∃ data session', session.readMultilineBody cut = (.ok data, session') := by
  rcases Option.isSome_iff_exists.mp connected with ⟨wire, isWire⟩
  have pending : wire.pending.take cut.seen = ended response.block ++ (dot :: crlf ++ []) := by
    rw [owes wire isWire, List.take_of_length_le arrives]
    simp [Response.blockBytes, hasBlock]
  rcases readBodyLoop_of_block response.lines [] [] cut.ending with ⟨data, reads⟩
  simp only [readMultilineBody, readWith, isWire, Wire.read, Incoming.readMultilineBody, pending,
    reads]
  exact ⟨data, _, rfl⟩

theorem settles_converse {next : NntpResponse → Session → Except Halt Unit × Session}
    (idle : Idle session) (plain : Plain command) (setsUp : script.SetsUp expected)
    (goes : ∀ status session', SentLines session' → session'.transport.isSome = true →
      (script.answers 0).code = some status.code →
      Owes session' false (script.answers 0).blockBytes → Settles (next status session')) :
    Settles (andThen (session.converse command script) next) := by
  simp only [converse]
  generalize asked : session.ask command script = outcome
  rcases outcome with ⟨result, final⟩
  have kept := kept_ask plain.oneLine asked
  have lines := kept.sentLines idle.sentLines
  have connected := kept.connected.trans idle.connected
  cases result with
  | error e =>
      refine ⟨lines, fun notExpired => ?_⟩
      rcases setsUp.answered with expired | delivers
      · simp [andThen, timed, expired] at notExpired
      · rcases ask_delivers idle.owes idle.connected plain.oneLine delivers with ⟨_, _, asked'⟩
        rw [asked] at asked'
        cases asked'
  | ok reply =>
      have ⟨code, _, owing⟩ := ask_plain idle.owes plain setsUp.whole asked
      exact goes reply.1 final lines connected code owing

theorem settles_body {next : List UInt8 → Session → Except Halt Unit × Session}
    (sentLines : SentLines session) (connected : session.transport.isSome = true)
    (owes : Owes session false (script.answers 0).blockBytes)
    (hasBlock : (script.answers 0).hasBlock = true)
    (isExpected : (script.answers 0).code = expected) (setsUp : script.SetsUp expected)
    (goes : ∀ data session', Idle session' → Settles (next data session')) :
    Settles (andThen (timed script (session.readMultilineBody (script.blocks 0))) next) := by
  generalize reads : session.readMultilineBody (script.blocks 0) = outcome
  rcases outcome with ⟨result, final⟩
  have kept := kept_readWith reads
  cases result with
  | error e =>
      refine ⟨kept.sentLines sentLines, fun notExpired => ?_⟩
      rcases setsUp.answered with expired | delivers
      · simp [andThen, timed, expired] at notExpired
      · rcases readMultilineBody_arrives owes connected hasBlock (delivers.block isExpected) with
          ⟨_, _, reads'⟩
        rw [reads] at reads'
        cases reads'
  | ok data =>
      rw [← List.append_nil (script.answers 0).blockBytes] at owes
      apply goes data final
      exact ⟨kept.sentLines sentLines, kept.connected.trans connected,
        (readBody_ok hasBlock owes reads).2⟩

/-- An answer with another code than the expected one owes no block. -/
theorem idle_of_code_ne {status : NntpResponse} (setsUp : script.SetsUp expected)
    (lines : SentLines session) (connected : session.transport.isSome = true)
    (code : (script.answers 0).code = some status.code) (other : some status.code ≠ expected)
    (owing : Owes session false (script.answers 0).blockBytes) : Idle session := by
  have noBlock := setsUp.asked.resolve_left (code ▸ other)
  rw [Response.blockBytes_eq_nil noBlock] at owing
  exact ⟨lines, connected, owing⟩

theorem settles_queryCapabilities (idle : Idle session) (setsUp : script.SetsUp (some 101)) :
    Settles (session.queryCapabilities script) := by
  simp only [queryCapabilities]
  split
  · exact idle.settles
  · apply settles_converse idle ⟨by decide, by decide⟩ setsUp
    intro resp middle lines connected code owing
    split
    next isList =>
      have hasBlock : (script.answers 0).hasBlock = true := by
        simp [Response.hasBlock, code, isList, carriesBlock]
      apply settles_body lines connected owing hasBlock (by rw [code, isList]) setsUp
      intro body final idle'
      exact Idle.settles ⟨idle'.sentLines, idle'.connected, idle'.owes⟩
    next notList =>
      have other : some resp.code ≠ some 101 := by simpa using notList
      have owes := (idle_of_code_ne setsUp lines connected code other owing).owes
      exact Idle.settles ⟨lines, connected, owes⟩

theorem settles_enterReaderMode (idle : Idle session) (setsUp : script.SetsUp none) :
    Settles (session.enterReaderMode script) := by
  simp only [enterReaderMode]
  split
  · exact idle.settles
  · apply settles_converse idle ⟨by decide, by decide⟩ setsUp
    intro resp middle lines connected code owing
    have owes := (idle_of_code_ne setsUp lines connected code (Option.some_ne_none _) owing).owes
    split <;> exact Idle.settles ⟨lines, connected, owes⟩

theorem settles_negotiateCompression {extensions compress : Script} (idle : Idle session)
    (setsUp : extensions.SetsUp (some 202)) (setsUp' : compress.SetsUp none) :
    Settles (session.negotiateCompression extensions compress) := by
  simp only [negotiateCompression]
  apply settles_converse idle ⟨by decide, by decide⟩ setsUp
  intro resp middle lines connected code owing
  split
  next isList =>
    have hasBlock : (extensions.answers 0).hasBlock = true := by
      simp [Response.hasBlock, code, isList, carriesBlock]
    apply settles_body lines connected owing hasBlock (by rw [code, isList]) setsUp
    intro data final idle'
    split
    · exact idle'.settles
    · apply settles_converse idle' ⟨by decide, by decide⟩ setsUp'
      intro resp' last lines' connected' code' owing'
      have owes :=
        (idle_of_code_ne setsUp' lines' connected' code' (Option.some_ne_none _) owing').owes
      split <;> exact Idle.settles ⟨lines', connected', owes⟩
  next notList =>
    exact (idle_of_code_ne setsUp lines connected code (by simpa using notList) owing).settles

theorem settles_setUp (config : ServerConfig) {setup : Setup} (idle : Idle session)
    (setsUp : setup.SetsUp) : Settles (session.setUp config setup) := by
  simp only [setUp]
  apply Settles.andThen
  · apply Settles.tolerate (settles_queryCapabilities idle setsUp.capabilities)
    exact fun _ => ⟨rfl, rfl⟩
  intro middle idle'
  apply Settles.andThen
  · split
    · apply Settles.tolerate (settles_enterReaderMode idle' setsUp.reader)
      exact fun _ => ⟨rfl, rfl⟩
    · exact idle'.settles
  intro final idle''
  split
  · apply Settles.tolerate
      (settles_negotiateCompression idle'' setsUp.extensions setsUp.compress)
    exact fun _ => ⟨rfl, rfl⟩
  · exact idle''.settles

/-- What logging in leaves: a connection with nothing owed, or one that is not ready. -/
structure Authenticates (outcome : Except Halt Unit × Session) : Prop where
  sentLines : SentLines outcome.2
  idle : outcome.1 = .ok () → Idle outcome.2
  notReady : outcome.1 ≠ .ok () → outcome.2.state ≠ .ready

theorem authenticates_converse {next : NntpResponse → Session → Except Halt Unit × Session}
    (idle : Idle session) (state : session.state = .authenticating) (plain : Plain command)
    (whole : script.Whole 1)
    (goes : ∀ status session', session'.state = .authenticating → SentLines session' →
      (carriesBlock status.code = false → Idle session') → Authenticates (next status session')) :
    Authenticates (andThen (session.converse command script) next) := by
  simp only [converse]
  generalize asked : session.ask command script = outcome
  rcases outcome with ⟨result, final⟩
  have kept := kept_ask plain.oneLine asked
  have lines := kept.sentLines idle.sentLines
  have state' := kept.state.trans state
  cases result with
  | error e => exact ⟨lines, nofun, fun _ ready => by cases state'.symm.trans ready⟩
  | ok reply =>
      have ⟨code, _, owing⟩ := ask_plain idle.owes plain whole asked
      apply goes reply.1 final state' lines
      intro line
      have noBlock : (script.answers 0).hasBlock = false := by simpa [Response.hasBlock, code]
      rw [Response.blockBytes_eq_nil noBlock] at owing
      exact ⟨lines, kept.connected.trans idle.connected, owing⟩

theorem authenticates_failWith (e : NntpError) (sentLines : SentLines session) :
    Authenticates (session.failWith e) :=
  ⟨sentLines, nofun, nofun⟩

variable {config : ServerConfig}

theorem authenticates_authenticate {setup : Setup} (idle : Idle session) (lines : config.OneLiners)
    (user : setup.user.Whole 1) (pass : setup.pass.Whole 1) :
    Authenticates (session.authenticate config setup) := by
  simp only [authenticate]
  cases name : config.username with
  | none =>
      exact ⟨idle.sentLines, fun isOk => absurd isOk (by simp), fun _ ready =>
        absurd ready (by simp)⟩
  | some username =>
      have plain : Plain ("AUTHINFO USER " ++ username) :=
        Plain.append ⟨by decide, by decide⟩ (lines.username username name)
      apply authenticates_converse _ rfl plain user
      · intro resp middle state sentLines idle'
        split
        next code =>
          have isIdle := idle' (by rw [code]; decide)
          exact ⟨sentLines, fun _ => ⟨sentLines, isIdle.connected, isIdle.owes⟩,
            fun failed => absurd rfl failed⟩
        all_goals try exact authenticates_failWith _ sentLines
        all_goals
          have isIdle := idle' (by simp [*, carriesBlock])
          cases secret : config.password with
          | none =>
              exact ⟨sentLines, fun isOk => absurd isOk (by simp),
                fun _ ready => by cases state.symm.trans ready⟩
          | some password =>
              have plain' : Plain ("AUTHINFO PASS " ++ password) :=
                Plain.append ⟨by decide, by decide⟩ (lines.password password secret)
              apply authenticates_converse isIdle state plain' pass
              intro resp' final state' sentLines' idle''
              split
              next code =>
                have isIdle' := idle'' (by rw [code]; decide)
                exact ⟨sentLines', fun _ => ⟨sentLines', isIdle'.connected, isIdle'.owes⟩,
                  fun failed => absurd rfl failed⟩
              all_goals exact authenticates_failWith _ sentLines'
      · exact ⟨idle.sentLines, idle.connected, idle.owes⟩

structure Connects (outcome : Except Halt Unit × Session) : Prop where
  sentLines : SentLines outcome.2
  inStep : outcome.1 ≠ .error .expired → InStep outcome.2

theorem connects_of_ne_ready {outcome : Except Halt Unit × Session}
    (sentLines : SentLines outcome.2) (notReady : outcome.2.state ≠ .ready) : Connects outcome :=
  ⟨sentLines, fun _ => .of_ne_ready sentLines notReady⟩

theorem connects_of_settles {outcome : Except Halt Unit × Session} (settles : Settles outcome) :
    Connects outcome :=
  ⟨settles.sentLines, fun notExpired =>
    .of_owes settles.sentLines (settles.idle notExpired).owes⟩

theorem connects_loggedIn {setup : Setup} (idle : Idle session) (lines : config.OneLiners)
    (smooth : setup.Smooth) :
    Connects (andThen
      (if config.username.isSome then session.authenticate config setup
      else (.ok (), { session with state := .ready })) fun _ session =>
        session.setUp config setup) := by
  have logIn : Authenticates
      (if config.username.isSome then session.authenticate config setup
      else (.ok (), { session with state := .ready })) := by
    split
    · exact authenticates_authenticate idle lines smooth.user smooth.pass
    · exact ⟨idle.sentLines, fun _ => ⟨idle.sentLines, idle.connected, idle.owes⟩, nofun⟩
  generalize (if config.username.isSome then session.authenticate config setup
      else (.ok (), { session with state := .ready })) = outcome at logIn
  rcases outcome with ⟨result, final⟩
  cases result with
  | error halt => exact connects_of_ne_ready logIn.sentLines (logIn.notReady nofun)
  | ok => exact connects_of_settles (settles_setUp config (logIn.idle rfl) smooth.setsUp)

theorem connects_connectInner {setup : Setup} (sentLines : SentLines session)
    (lines : config.OneLiners) (smooth : setup.Smooth) :
    Connects (session.connectInner config setup) := by
  simp only [connectInner]
  split
  · exact connects_of_ne_ready sentLines nofun
  · exact connects_of_ne_ready sentLines nofun
  · exact ⟨sentLines, fun notExpired => absurd rfl notExpired⟩
  · generalize opened : ({
      session with
      state := .connecting
      transport := some (.greeted (setup.greeting.answers 0)) } : Session) = fresh
    have freshLines : SentLines fresh := opened ▸ sentLines
    have state : fresh.state = .connecting := opened ▸ rfl
    have connected : fresh.transport.isSome = true := opened ▸ rfl
    have owes : Owes fresh false ((setup.greeting.answers 0).bytes ++ []) := by
      rw [← opened]
      rintro wire ⟨⟩
      simp [Wire.greeted]
    generalize reads : fresh.readResponseLine (setup.greeting.lines 0) = outcome
    rcases outcome with ⟨result, greeted⟩
    have kept := kept_readWith reads
    have greetedLines := kept.sentLines freshLines
    have state' := kept.state.trans state
    cases result with
    | error e =>
        exact connects_of_ne_ready greetedLines fun ready => by cases state'.symm.trans ready
    | ok welcome =>
        have ⟨code, _, owing⟩ := readResponseLine_ok owes (smooth.greeting 0 (by omega)) reads
        simp only [timed, andThen]
        split
        all_goals try exact connects_of_ne_ready greetedLines nofun
        all_goals
          have noBlock : (setup.greeting.answers 0).hasBlock = false := by
            simp [Response.hasBlock, *, carriesBlock]
          rw [Response.blockBytes_eq_nil noBlock] at owing
          have idle : Idle greeted := ⟨greetedLines, kept.connected.trans connected, owing⟩
          exact connects_loggedIn idle lines smooth

theorem inStep_connect {setup : Setup} (inStep : InStep session) (lines : config.OneLiners)
    (smooth : setup.Smooth) : InStep (session.connect config setup).2 := by
  have connects := connects_connectInner inStep.sentLines lines smooth
  simp only [connect]
  generalize session.connectInner config setup = outcome at connects
  rcases outcome with ⟨result, final⟩
  cases result with
  | ok => exact connects.inStep nofun
  | error halt =>
      cases halt with
      | failed e => exact connects.inStep nofun
      | expired => exact .of_error connects.sentLines

end Session

end Rustnzb.Nntp
