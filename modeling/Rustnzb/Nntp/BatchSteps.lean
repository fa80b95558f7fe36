import Rustnzb.Nntp.InStep

/-!
# Batches keep a connection in step

While a batch runs, the server owes the answers to what was sent and not read, one after the other.
-/

namespace Rustnzb.Nntp

open Dispatch (NntpError)

/-- So many answers from the first one on are owed, and `answers` are those after them. -/
structure Owing (script : Script) (answers : ℕ → Response) (first count : ℕ) (session : Session) :
    Prop where
  answers : answers = later script.answers (first + count)
  owes : Owes session false (owed script.answers first count)

theorem Owing.send {script : Script} {answers rest : ℕ → Response} {first count : ℕ}
    {session session' : Session} {command : String} {fault : Option WriteFault}
    (owing : Owing script answers first count session) (plain : Plain command)
    (sends : session.sendCommand command answers fault = (.ok rest, session')) :
    Owing script rest first (count + 1) session' := by
  have ⟨isLater, _, owes⟩ := Session.sendCommand_plain owing.owes plain sends
  constructor
  · rw [isLater, owing.answers]
    funext number
    simp only [later]
    congr 1
    omega
  · rw [owed_succ]
    simpa [owing.answers, later] using owes

def Flight.Owing (script : Script) (flight : Flight) (session : Session) : Prop :=
  Nntp.Owing script flight.answers flight.reads flight.inFlight.length session

theorem oneLine_normalizeMessageId {mid : String} (oneLine : OneLine mid) :
    OneLine (normalizeMessageId mid) := by
  simp only [normalizeMessageId]
  split
  · exact oneLine
  · exact (OneLine.append (by decide) oneLine).append (by decide)

theorem plain_command {request : PipelineRequest} (oneLine : OneLine request.messageId) :
    Plain (Pipeline.command request) := by
  apply Plain.append ⟨by decide, by decide⟩
  split
  · exact oneLine
  · exact (OneLine.append (by decide) oneLine).append (by decide)

namespace Session

variable {script : Script} {session session' : Session}

section Pipelined

variable {depth : ℕ} {flight flight' : Flight}

/-- A send that fails leaves an error; the others change neither state nor what was read. -/
theorem sendPending_spec {pending : List PipelineRequest} {result : Except NntpError Flight}
    (lines : ∀ request ∈ pending, OneLine request.messageId) (sentLines : SentLines session)
    (sends : session.sendPending script depth pending flight = (result, session')) :
    SentLines session' ∧ (∀ e, result = .error e → session'.state = .error) ∧
      ∀ flight', result = .ok flight' → session'.state = session.state ∧
        flight'.reads = flight.reads ∧
        flight'.inFlight.length + flight'.pending.length =
          flight.inFlight.length + pending.length ∧
        (∀ request ∈ flight'.pending, request ∈ pending) ∧
        (flight.Owing script session → flight'.Owing script session') := by
  induction pending generalizing session flight with
  | nil =>
      cases sends
      refine ⟨sentLines, nofun, ?_⟩
      rintro flight' ⟨⟩
      exact ⟨rfl, rfl, rfl, by simp, fun owing => ⟨owing.answers, owing.owes⟩⟩
  | cons request pending ih =>
      simp only [List.mem_cons, forall_eq_or_imp] at lines
      simp only [sendPending] at sends
      split at sends
      next room =>
        have plain := plain_command lines.1
        split at sends
        next e middle sending =>
          cases sends
          have kept := kept_sendCommand plain.oneLine sending
          exact ⟨kept.sentLines sentLines, fun _ _ => rfl, nofun⟩
        next answers middle sending =>
          have kept := kept_sendCommand plain.oneLine sending
          rcases ih lines.2 (kept.sentLines sentLines) sends with ⟨sent, failed, went⟩
          refine ⟨sent, failed, fun flight' isOk => ?_⟩
          rcases went flight' isOk with ⟨state, reads, count, left, owing⟩
          simp only [List.length_append, List.length_cons, List.length_nil] at count
          refine ⟨state.trans kept.state, reads, by simp only [List.length_cons]; omega,
            fun other mem => List.mem_cons_of_mem _ (left other mem), fun before => owing ?_⟩
          simpa [Flight.Owing] using before.send plain sending
      · cases sends
        refine ⟨sentLines, nofun, ?_⟩
        rintro flight' ⟨⟩
        exact ⟨rfl, rfl, rfl, by simp, fun owing => ⟨owing.answers, owing.owes⟩⟩

theorem receiveOne_spec {number : ℕ} {request : PipelineRequest}
    {result : Except NntpError (Except NntpError NntpResponse)} (sentLines : SentLines session)
    (receives : session.receiveOne script number request = (result, session')) :
    SentLines session' ∧ (session'.state = session.state ∨ session'.state = .error) ∧
      (∀ e, result = .error e → session'.state = .error) ∧
      ∀ reply, result = .ok reply → isFatal reply = true → session'.state = .error := by
  simp only [receiveOne] at receives
  split at receives
  next e middle reads =>
    cases receives
    exact ⟨(kept_readWith reads).sentLines sentLines, .inr rfl, fun _ _ => rfl, nofun⟩
  next status middle reads =>
    have kept := kept_readWith reads
    have lines := kept.sentLines sentLines
    split at receives
    · split at receives
      next e final bodyReads =>
        cases receives
        exact ⟨(kept_readWith bodyReads).sentLines lines, .inr rfl, nofun, fun _ _ _ => rfl⟩
      next data final bodyReads =>
        cases receives
        have kept' := kept_readWith bodyReads
        refine ⟨kept'.sentLines lines, .inl (kept'.state.trans kept.state), nofun, ?_⟩
        rintro reply ⟨⟩ fatal
        cases fatal
    all_goals
      cases receives
      first
        | exact ⟨lines, .inr rfl, nofun, fun _ _ _ => rfl⟩
        | refine ⟨lines, .inl kept.state, nofun, ?_⟩
          rintro reply ⟨⟩ fatal
          cases fatal

theorem receiveOne_ok {number : ℕ} {request : PipelineRequest} {more : List UInt8}
    {reply : Except NntpError NntpResponse} {count : ℕ} (whole : script.Whole count)
    (below : number < count) (owes : Owes session false ((script.answers number).bytes ++ more))
    (receives : session.receiveOne script number request = (.ok reply, session'))
    (ready : session'.state = .ready) : Owes session' false more := by
  simp only [receiveOne] at receives
  split at receives
  · cases receives
  next status middle reads =>
    have ⟨code, _, owing⟩ := readResponseLine_ok owes (whole number below) reads
    have hasBlock : (script.answers number).hasBlock = carriesBlock status.code := by
      simp [Response.hasBlock, code]
    have noBlock (line : carriesBlock status.code = false) : Owes middle false more := by
      rw [Response.blockBytes_eq_nil (hasBlock.trans line)] at owing
      exact owing
    split at receives
    next isArticle =>
      rw [isArticle] at hasBlock
      split at receives
      · cases receives
        cases ready
      next data final bodyReads =>
        cases receives
        exact (readBody_ok hasBlock owing bodyReads).2
    all_goals
      cases receives
      first
        | cases ready
        | apply noBlock
          simp [*, carriesBlock]

/-- The rounds of a pipelined batch, each of which takes one answer off what is owed. -/
theorem inStep_processRounds {count : ℕ} (whole : script.Whole count) {rounds : ℕ}
    (outstanding : flight.inFlight.length + flight.pending.length = rounds)
    (below : flight.reads + rounds ≤ count)
    (lines : ∀ request ∈ flight.pending, OneLine request.messageId) (sentLines : SentLines session)
    (owing : session.state = .ready → flight.Owing script session) (results : List PipelineResult) :
    InStep (session.processRounds script depth rounds flight results).2 := by
  induction rounds generalizing flight session results with
  | zero =>
      refine ⟨sentLines, fun ready wire connected => quiet_iff.mpr ?_⟩
      have none : flight.inFlight.length = 0 := by omega
      have owes := (owing ready).owes
      rw [none] at owes
      exact owes wire connected
  | succ rounds ih =>
      simp only [processRounds]
      generalize sends : session.sendPending script depth flight.pending flight = sending
      rcases sending with ⟨result, middle⟩
      rcases sendPending_spec lines sentLines sends with ⟨sent, failed, went⟩
      cases result with
      | error e => exact .of_ne_ready sent (by rw [failed e rfl]; nofun)
      | ok flight' =>
          rcases went flight' rfl with ⟨state, reads, same, left, owing'⟩
          have isOwing (ready : middle.state = .ready) : flight'.Owing script middle :=
            owing' (owing (state ▸ ready))
          dsimp only
          cases inFlight : flight'.inFlight with
          | nil =>
              refine ⟨sent, fun ready wire connected => quiet_iff.mpr ?_⟩
              have owes := (isOwing ready).owes
              rw [inFlight] at owes
              exact owes wire connected
          | cons request rest =>
              dsimp only
              generalize receives : middle.receiveOne script flight'.reads request = receiving
              rcases receiving with ⟨result, final⟩
              rcases receiveOne_spec sent receives with ⟨sent', keeps, failed, fatal⟩
              cases result with
              | error e => exact .of_ne_ready sent' (by rw [failed e rfl]; nofun)
              | ok reply =>
                  dsimp only
                  split
                  next isFatal => exact .of_ne_ready sent' (by rw [fatal reply rfl isFatal]; nofun)
                  · simp only [inFlight, List.length_cons] at same
                    apply ih
                    · dsimp only
                      omega
                    · dsimp only
                      omega
                    · exact fun other mem => lines other (left other mem)
                    · exact sent'
                    · intro ready
                      have before : middle.state = .ready := by
                        rcases keeps with kept | isError
                        · rw [← kept, ready]
                        · rw [isError] at ready
                          cases ready
                      have ⟨answers, owes⟩ := isOwing before
                      simp only [inFlight, List.length_cons, owed] at answers owes
                      refine ⟨?_, receiveOne_ok whole (by omega) owes receives ready⟩
                      rw [answers]
                      congr 1
                      dsimp only
                      omega

theorem inStep_processAll {requests : List PipelineRequest} (inStep : InStep session)
    (whole : script.Whole requests.length)
    (lines : ∀ request ∈ requests, OneLine request.messageId) :
    InStep (session.processAll script depth requests).2 :=
  inStep_processRounds whole (Nat.zero_add _) (Nat.zero_add _).le lines inStep.sentLines (by
    intro ready
    exact { answers := rfl, owes := inStep.owes ready }) []

end Pipelined

theorem sendStats_spec {batch : List String} {sends first count : ℕ} {answers : ℕ → Response}
    {result : Except NntpError (ℕ → Response)} (lines : ∀ mid ∈ batch, OneLine mid)
    (sentLines : SentLines session)
    (sent : session.sendStats script batch sends answers = (result, session')) :
    SentLines session' ∧ (∀ e, result = .error e → session'.state = .error) ∧
      ∀ rest, result = .ok rest → Owing script answers first count session →
        Owing script rest first (count + batch.length) session' := by
  induction batch generalizing session sends answers count with
  | nil =>
      cases sent
      refine ⟨sentLines, nofun, ?_⟩
      rintro rest ⟨⟩ owing
      exact owing
  | cons mid batch ih =>
      simp only [List.mem_cons, forall_eq_or_imp] at lines
      have plain : Plain ("STAT " ++ normalizeMessageId mid) :=
        Plain.append ⟨by decide, by decide⟩ (oneLine_normalizeMessageId lines.1)
      simp only [sendStats] at sent
      split at sent
      next e middle sending =>
        cases sent
        exact ⟨(kept_sendCommand plain.oneLine sending).sentLines sentLines, fun _ _ => rfl, nofun⟩
      next answers' middle sending =>
        have kept := kept_sendCommand plain.oneLine sending
        rcases ih lines.2 (kept.sentLines sentLines) sent with ⟨sentLines', failed, went⟩
        refine ⟨sentLines', failed, fun rest isOk owing => ?_⟩
        have length : count + (mid :: batch).length = count + 1 + batch.length := by
          simp only [List.length_cons]
          omega
        rw [length]
        exact went rest isOk (owing.send plain sending)

theorem readStats_spec {batch : List String} {reads count : ℕ} {results : List StatResult}
    {result : Except NntpError (List StatResult)} (whole : script.Whole count)
    (below : reads + batch.length ≤ count) (sentLines : SentLines session)
    (owes : Owes session false (owed script.answers reads batch.length))
    (read : session.readStats script batch reads results = (result, session')) :
    SentLines session' ∧ (∀ e, result = .error e → session'.state = .error) ∧
      ((∃ results', result = .ok results') → Owes session' false []) := by
  induction batch generalizing session reads results with
  | nil =>
      cases read
      exact ⟨sentLines, (by rintro _ ⟨⟩), fun _ => owes⟩
  | cons mid batch ih =>
      simp only [List.length_cons] at below
      simp only [readStats] at read
      split at read
      next e middle reading =>
        cases read
        exact ⟨(kept_readWith reading).sentLines sentLines, fun _ _ => rfl, (by rintro ⟨_, ⟨⟩⟩)⟩
      next resp middle reading =>
        have lines := (kept_readWith reading).sentLines sentLines
        rcases readResponseLine_ok owes (whole reads (by omega)) reading with ⟨code, _, owing⟩
        have hasBlock : (script.answers reads).hasBlock = carriesBlock resp.code := by
          simp [Response.hasBlock, code]
        have noBlock (line : carriesBlock resp.code = false) :
            Owes middle false (owed script.answers (reads + 1) batch.length) := by
          rw [Response.blockBytes_eq_nil (hasBlock.trans line)] at owing
          exact owing
        split at read
        next isThere => exact ih (by omega) lines (noBlock (by rw [isThere]; decide)) read
        next isMissing => exact ih (by omega) lines (noBlock (by rw [isMissing]; decide)) read
        all_goals
          cases read
          exact ⟨lines, fun _ _ => rfl, (by rintro ⟨_, ⟨⟩⟩)⟩

theorem inStep_executeBatches {batches : List (List String)} {done count : ℕ}
    {answers : ℕ → Response} (whole : script.Whole count)
    (below : done + batches.flatten.length ≤ count)
    (lines : ∀ batch ∈ batches, ∀ mid ∈ batch, OneLine mid) (sentLines : SentLines session)
    (owing : Owing script answers done 0 session) (results : List StatResult) :
    InStep (session.executeBatches script batches done answers results).2 := by
  induction batches generalizing session done answers results with
  | nil => exact .of_owes sentLines owing.owes
  | cons batch batches ih =>
      simp only [List.flatten_cons, List.length_append] at below
      simp only [List.mem_cons, forall_eq_or_imp] at lines
      simp only [executeBatches]
      generalize isBusy : { session with state := .busy } = busy
      have isOwing : Owing script answers done 0 busy := isBusy ▸ ⟨owing.answers, owing.owes⟩
      have busyLines : SentLines busy := isBusy ▸ sentLines
      generalize sends : busy.sendStats script batch done answers = sending
      rcases sending with ⟨result, middle⟩
      rcases sendStats_spec lines.1 busyLines sends with ⟨sent, failed, went⟩
      cases result with
      | error e => exact .of_ne_ready sent (by rw [failed e rfl]; nofun)
      | ok rest =>
          have after := went rest rfl isOwing
          rw [Nat.zero_add] at after
          dsimp only
          generalize reads : middle.readStats script batch done results = reading
          rcases reading with ⟨result, final⟩
          rcases readStats_spec whole (by omega) sent after.owes reads with ⟨sent', failed, took⟩
          cases result with
          | error e => exact .of_ne_ready sent' (by rw [failed e rfl]; nofun)
          | ok results' =>
              dsimp only
              apply ih _ lines.2
              · exact sent'
              · exact { answers := after.answers, owes := took ⟨results', rfl⟩ }
              · omega

theorem flatten_go (size : ℕ) (ids : List String) (batch : Array String)
    (batches : Array (List String)) :
    (List.toChunks.go size ids batch batches).flatten =
      batches.toList.flatten ++ batch.toList ++ ids := by
  induction ids generalizing batch batches with
  | nil => simp [List.toChunks.go]
  | cons mid ids ih =>
      rw [List.toChunks.go]
      split <;> simp [ih]

theorem flatten_toChunks (size : ℕ) (ids : List String) :
    (ids.toChunks (size + 1)).flatten = ids := by
  cases ids with
  | nil => rfl
  | cons mid ids => simp [List.toChunks, flatten_go]

theorem inStep_executeStats {ids : List String} (inStep : InStep session)
    (ready : session.state = .ready) (whole : script.Whole ids.length)
    (lines : ∀ mid ∈ ids, OneLine mid) : InStep (session.executeStats script ids).2 := by
  have flatten : (ids.toChunks statBatchSize).flatten = ids := flatten_toChunks 99 ids
  apply inStep_executeBatches whole
  · rw [flatten]
    omega
  · intro batch batchMem mid mem
    apply lines
    rw [← flatten]
    exact List.mem_flatten.mpr ⟨batch, batchMem, mem⟩
  · exact inStep.sentLines
  · exact { answers := rfl, owes := inStep.owes ready }

end Session

end Rustnzb.Nntp
