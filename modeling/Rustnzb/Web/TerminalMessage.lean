import Rustnzb.Web.QueueRun

/-!
# The terminal message in the progress channel

One job between the engine and its handler. The channel has any capacity; the handler takes the
updates at its own pace and ends with the terminal one. A graceful shutdown closes the channel and
lets the handler take what is left in it.
-/

namespace Rustnzb.Web

open Lib (Run execute)
open Dispatch (NzbJob ServerId JobRun JobEvent JobContext Task Activity Terminal IterationOrder
  Performed)

namespace ProgressUpdate

def isTerminal : ProgressUpdate → Bool
  | .jobFinished .. | .jobAborted .. => true
  | _ => false

end ProgressUpdate

/-- A job in the engine, its channel and its handler. -/
structure Progress where
  engine : JobRun
  channel : List ProgressUpdate
  closed : Bool
  taken : List ProgressUpdate
  status : JobStatus

inductive ProgressEvent where
  | engine (event : JobEvent) (decodedBytes : ℕ)
  | sendOther
  /-- The handler takes an update; `unrepairable` when `parity_diagnosis` finds a reason. -/
  | take (unrepairable : Bool)
  | close
  | setStatus (status : JobStatus)

namespace ProgressEvent

def isTake : ProgressEvent → Bool
  | .take _ => true
  | _ => false

end ProgressEvent

namespace Progress

variable (capacity : ℕ)

def submitted (engine : JobRun) : Progress where
  engine := engine
  channel := []
  closed := false
  taken := []
  status := .downloading

def trySend (state : Progress) (update : ProgressUpdate) : Progress :=
  if state.closed || capacity ≤ state.channel.length then state
  else { state with channel := state.channel ++ [update] }

def ended (state : Progress) : Bool := state.taken.any ProgressUpdate.isTerminal

def statusAfter (state : Progress) (unrepairable : Bool) : ProgressUpdate → JobStatus
  | .jobFinished .. => if unrepairable then .failed else .postProcessing
  | .jobAborted .. => .failed
  | .articleComplete .. | .articleFailed .. | .other => state.status

def step (state : Progress) : ProgressEvent → Option Progress
  | .engine event decodedBytes =>
      (state.engine.step event).map fun next =>
        { (World.updates state.engine event decodedBytes next).foldl (trySend capacity) state with
          engine := next }
  | .sendOther => some (state.trySend capacity .other)
  | .take unrepairable =>
      match state.channel with
      | [] => none
      | update :: rest =>
          if state.ended then none
          else
            some { state with
              channel := rest
              closed := state.closed || update.isTerminal
              taken := state.taken ++ [update]
              status := state.statusAfter unrepairable update }
  | .close => some { state with closed := true }
  | .setStatus status =>
      if status = .postProcessing || status = .failed || state.ended then none
      else some { state with status := status }

def Step (state : Progress) (event : ProgressEvent) (next : Progress) : Prop :=
  state.step capacity event = some next

def emitted (state : Progress) : Prop := state.engine.ctx.sent ≠ []

/-- Once `emit_terminal` has run, the handler takes exactly one terminal message before it has
taken as many as are in the channel, whatever else happens, and can always go on until then; and the
job is never left behind as downloading. -/
structure Delivered (state : Progress) : Prop where
  atMostOnce : state.taken.countP ProgressUpdate.isTerminal ≤ 1
  eventually : state.emitted → ∀ events next, Run (Step capacity) state events next →
    next.taken.countP ProgressUpdate.isTerminal = 1 ∨
      next.channel ≠ [] ∧ events.countP ProgressEvent.isTake < state.channel.length
  noneStuck : state.emitted → state.channel = [] →
    (∀ update ∈ state.taken, update.isTerminal = false) → state.status ≠ .downloading

/-- When `emit_terminal` sends, the channel is open and has room. -/
def Room (state : Progress) : ProgressEvent → Prop
  | .engine (.act index .advance) _ => ∀ task ∈ state.engine.tasks[index]?, ∀ reason,
      task.activity = .sending reason → state.closed = false ∧ state.channel.length < capacity
  | _ => True

/-! ## Where the terminal message is -/

variable {capacity} {state next : Progress} {event : ProgressEvent}

def terminals (state : Progress) : ℕ :=
  (state.taken ++ state.channel).countP ProgressUpdate.isTerminal

@[simp]
theorem isTerminal_ofTerminal (message : Terminal) :
    (ProgressUpdate.ofTerminal message).isTerminal = true := by
  cases message <;> rfl

theorem foldl_trySend (capacity : ℕ) (state : Progress) (updates : List ProgressUpdate) :
    ∃ added, added.Sublist updates ∧
    updates.foldl (trySend capacity) state = { state with channel := state.channel ++ added } := by
  induction updates generalizing state with
  | nil => exact ⟨[], List.Sublist.slnil, by simp⟩
  | cons update updates ih =>
      rw [List.foldl_cons, trySend]
      split
      · rcases ih state with ⟨added, isSub, folded⟩
        exact ⟨added, isSub.cons update, folded⟩
      · rcases ih { state with channel := state.channel ++ [update] } with
          ⟨added, isSub, folded⟩
        refine ⟨update :: added, isSub.cons_cons update, ?_⟩
        rw [folded, List.append_assoc, List.singleton_append]

theorem countP_eq_zero {updates added : List ProgressUpdate} (isSub : added.Sublist updates)
    (none : ∀ update ∈ updates, update.isTerminal = false) :
    added.countP ProgressUpdate.isTerminal = 0 := by
  rw [List.countP_eq_zero]
  intro update mem
  simp [none update (isSub.subset mem)]

inductive Moves (capacity : ℕ) (state next : Progress) (event : ProgressEvent) : Prop
  | delivers (message : Terminal) (room : Room capacity state event)
      (sent : next.engine.ctx.sent = state.engine.ctx.sent ++ [message])
      (terminals : next.terminals = state.terminals + 1)
  | loses (message : Terminal) (noRoom : ¬Room capacity state event)
      (sent : next.engine.ctx.sent = state.engine.ctx.sent ++ [message])
      (terminals : next.terminals = state.terminals)
  | keeps (room : Room capacity state event)
      (sent : next.engine.ctx.sent = state.engine.ctx.sent)
      (terminals : next.terminals = state.terminals)

theorem moves_engine {event : JobEvent} {decodedBytes : ℕ} {engine : JobRun}
    (move : JobRun.Step state.engine event engine) :
    Moves capacity state
      { (World.updates state.engine event decodedBytes engine).foldl (trySend capacity) state with
        engine := engine } (.engine event decodedBytes) := by
  rcases JobRun.sent_cases move with
    ⟨index, task, reason, rfl, isTask, isSending, sent, noArrival, noFailure⟩ | ⟨same, notSending⟩
  · have updates : World.updates state.engine (.act index .advance) decodedBytes engine =
        [.ofTerminal (state.engine.ctx.message reason)] := by
      simp [World.updates, noArrival, noFailure, sent]
    have roomIff : Room capacity state (.engine (.act index .advance) decodedBytes) ↔
        state.closed = false ∧ state.channel.length < capacity := by
      constructor
      · intro room
        exact room task isTask reason isSending
      · intro room _ _ _ _
        exact room
    rw [updates, List.foldl_cons, List.foldl_nil, trySend]
    split
    next full =>
      apply Moves.loses (state.engine.ctx.message reason)
      · rw [roomIff]
        simp only [Bool.or_eq_true, decide_eq_true_eq] at full
        rintro ⟨isOpen, room⟩
        rcases full with closed | full
        · simp [isOpen] at closed
        · omega
      · exact sent
      · rfl
    next fits =>
      apply Moves.delivers (state.engine.ctx.message reason)
      · rw [roomIff]
        simpa using fits
      · exact sent
      · simp only [terminals, List.countP_append, List.countP_singleton, isTerminal_ofTerminal,
          if_true]
        omega
  · have none : ∀ update ∈ World.updates state.engine event decodedBytes engine,
        update.isTerminal = false := by
      intro update mem
      simp only [World.updates, same, List.drop_length, List.map_nil, List.append_nil,
        List.mem_append, List.mem_map] at mem
      rcases mem with ⟨report, -, rfl⟩ | ⟨item, -, rfl⟩
      · rfl
      · rfl
    rcases foldl_trySend capacity state
      (World.updates state.engine event decodedBytes engine) with ⟨added, isSub, folded⟩
    rw [folded]
    apply Moves.keeps
    · cases event with
      | act index action =>
          cases action with
          | advance =>
              intro task isTask reason isSending
              exact absurd isSending (notSending index task reason rfl isTask)
          | _ => trivial
      | _ => trivial
    · exact same
    · simp only [terminals, List.countP_append, countP_eq_zero isSub none]
      omega

theorem moves (move : Step capacity state event next) : Moves capacity state next event := by
  cases event with
  | engine event decodedBytes =>
      rcases Option.map_eq_some_iff.mp move with ⟨engine, engineMove, rfl⟩
      exact moves_engine engineMove
  | sendOther =>
      cases move
      apply Moves.keeps
      · trivial
      · simp only [trySend]
        split <;> rfl
      · simp only [trySend]
        split
        · rfl
        · simp [terminals, ProgressUpdate.isTerminal]
  | take unrepairable =>
      simp only [Step, step] at move
      split at move
      · cases move
      next update rest channel =>
        split at move
        · cases move
        · cases move
          apply Moves.keeps
          · trivial
          · rfl
          · simp [terminals, channel]
  | close =>
      cases move
      exact .keeps trivial rfl rfl
  | setStatus status =>
      rcases Option.ite_none_left_eq_some.mp move with ⟨-, ⟨⟩⟩
      exact .keeps trivial rfl rfl

theorem step_functional (capacity : ℕ) (state : Progress) (event : ProgressEvent)
    (next other : Progress) (move : Step capacity state event next)
    (move' : Step capacity state event other) : next = other :=
  Option.some.inj (move.symm.trans move')

/-- The engine settles, and no terminal message appears from nowhere. -/
structure Carried (state : Progress) : Prop where
  settling : state.engine.Settling
  terminals : state.terminals ≤ state.engine.ctx.sent.length

namespace Carried

theorem atMostOnce (carried : Carried state) : state.engine.ctx.sent.length ≤ 1 := by
  have once := carried.settling.once
  have atMost := Bool.toNat_le state.engine.ctx.finished
  omega

theorem step (carried : Carried state) (move : Step capacity state event next) : Carried next := by
  constructor
  case settling =>
    cases event with
    | engine event decodedBytes =>
        rcases Option.map_eq_some_iff.mp move with ⟨engine, engineMove, rfl⟩
        exact carried.settling.step engineMove
    | sendOther =>
        cases move
        simp only [trySend]
        split
        · exact carried.settling
        · exact carried.settling
    | take unrepairable =>
        simp only [Step, Progress.step] at move
        split at move
        · cases move
        next update rest channel =>
          rcases Option.ite_none_left_eq_some.mp move with ⟨-, ⟨⟩⟩
          exact carried.settling
    | close =>
        cases move
        exact carried.settling
    | setStatus status =>
        rcases Option.ite_none_left_eq_some.mp move with ⟨-, ⟨⟩⟩
        exact carried.settling
  case terminals =>
    have before := carried.terminals
    cases moves move with
    | delivers message room sent terminals =>
        simp only [terminals, sent, List.length_append, List.length_singleton]
        omega
    | loses message noRoom sent terminals =>
        simp only [terminals, sent, List.length_append, List.length_singleton]
        omega
    | keeps room sent terminals =>
        rw [terminals, sent]
        exact before

theorem stays_lost (carried : Carried state) (move : Step capacity state event next)
    (emitted : state.emitted) (lost : state.terminals = 0) : next.emitted ∧ next.terminals = 0 := by
  have atMost := (carried.step move).atMostOnce
  have sentBefore := List.length_pos_of_ne_nil emitted
  cases moves move with
  | keeps room sent terminals => exact ⟨by rwa [Progress.emitted, sent], terminals.trans lost⟩
  | delivers message room sent | loses message noRoom sent =>
      simp only [sent, List.length_append, List.length_singleton] at atMost
      omega

end Carried

theorem channel_of_step (move : Step capacity state event next) :
    (event.isTake = false ∧ next.taken = state.taken ∧
        ∃ added, next.channel = state.channel ++ added) ∨
      event.isTake = true ∧ ∃ update, state.channel = update :: next.channel ∧
        next.taken = state.taken ++ [update] := by
  cases event with
  | engine event decodedBytes =>
      rcases Option.map_eq_some_iff.mp move with ⟨engine, -, rfl⟩
      rcases foldl_trySend capacity state
        (World.updates state.engine event decodedBytes engine) with ⟨added, -, folded⟩
      rw [folded]
      exact .inl ⟨rfl, rfl, added, rfl⟩
  | sendOther =>
      cases move
      left
      simp only [trySend]
      split
      · exact ⟨rfl, rfl, [], by simp⟩
      · exact ⟨rfl, rfl, [.other], rfl⟩
  | take unrepairable =>
      simp only [Step, step] at move
      split at move
      · cases move
      next update rest channel =>
        rcases Option.ite_none_left_eq_some.mp move with ⟨-, ⟨⟩⟩
        exact .inr ⟨rfl, update, channel, rfl⟩
  | close =>
      cases move
      exact .inl ⟨rfl, rfl, [], by simp⟩
  | setStatus status =>
      rcases Option.ite_none_left_eq_some.mp move with ⟨-, ⟨⟩⟩
      exact .inl ⟨rfl, rfl, [], by simp⟩

/-- The terminal message has been taken, or it stands in the channel at a place below `places`. -/
def Within (places : ℕ) (state : Progress) : Prop :=
  0 < state.taken.countP ProgressUpdate.isTerminal ∨ ∃ before message after,
    state.channel = before ++ message :: after ∧ message.isTerminal = true ∧ before.length < places

theorem within_of_terminals (one : state.terminals = 1) : Within state.channel.length state := by
  rw [terminals, List.countP_append] at one
  rcases Nat.eq_zero_or_pos (state.taken.countP ProgressUpdate.isTerminal) with none | some
  · right
    have inChannel : 0 < state.channel.countP ProgressUpdate.isTerminal := by omega
    rcases List.countP_pos_iff.mp inChannel with ⟨message, mem, isTerminal⟩
    rcases List.append_of_mem mem with ⟨before, after, split⟩
    refine ⟨before, message, after, split, isTerminal, ?_⟩
    rw [split, List.length_append, List.length_cons]
    omega
  · exact .inl some

theorem Within.step {places : ℕ} (within : Within places state)
    (move : Step capacity state event next) : Within (places - event.isTake.toNat) next := by
  rcases channel_of_step move with
    ⟨noTake, taken, added, channel⟩ | ⟨isTake, update, channel, taken⟩
  · rcases within with already | ⟨before, message, after, split, isTerminal, below⟩
    · exact .inl (taken ▸ already)
    · refine .inr ⟨before, message, after ++ added, ?_, isTerminal, by simpa [noTake]⟩
      rw [channel, split, List.append_assoc, List.cons_append]
  · rw [Within, taken, List.countP_append]
    rcases within with already | ⟨before, message, after, split, isTerminal, below⟩
    · left
      omega
    · rcases before with _ | ⟨first, before⟩
      · left
        rw [channel] at split
        cases split
        simp [isTerminal]
      · right
        rw [channel, List.cons_append, List.cons.injEq] at split
        refine ⟨before, message, after, split.2, isTerminal, ?_⟩
        simp only [List.length_cons] at below
        simp only [isTake, Bool.toNat_true]
        omega

theorem Within.run {places : ℕ} (within : Within places state) {events : List ProgressEvent}
    (run : Run (Step capacity) state events next) :
    Within (places - events.countP ProgressEvent.isTake) next := by
  apply run.invariant (fun events next => Within (places - events.countP ProgressEvent.isTake) next)
  · exact within
  · intro events middle event next _ within move
    have after := within.step move
    rw [List.countP_append, List.countP_singleton, ← Nat.sub_sub]
    rcases isTake : event.isTake with _ | _
    · simpa [isTake] using after
    · simpa [isTake] using after

theorem Carried.run (carried : Carried state) {events : List ProgressEvent}
    (run : Run (Step capacity) state events next) : Carried next := by
  apply run.invariant (fun _ state => Carried state) carried
  intro _ _ _ _ _ carried move
  exact carried.step move

theorem Carried.delivered (carried : Carried state)
    (terminals : state.terminals = state.engine.ctx.sent.length) : Delivered capacity state := by
  have atMost := carried.atMostOnce
  have one : state.emitted → state.terminals = 1 := by
    intro emitted
    have sent := List.length_pos_of_ne_nil emitted
    omega
  constructor
  case atMostOnce =>
    rw [Progress.terminals, List.countP_append] at terminals
    omega
  case eventually =>
    intro emitted events next run
    have after := carried.run run
    have few := after.terminals.trans after.atMostOnce
    rw [Progress.terminals, List.countP_append] at few
    rcases (within_of_terminals (one emitted)).run run with
      already | ⟨before, message, rest, split, isTerminal, below⟩
    · left
      omega
    · right
      refine ⟨by simp [split], ?_⟩
      omega
  case noneStuck =>
    intro emitted empty noneTaken
    have one := one emitted
    rw [Progress.terminals, empty, List.append_nil,
      List.countP_eq_zero.mpr (by simpa using noneTaken)]
      at one
    cases one

theorem exists_drained (capacity : ℕ) {state : Progress} (none : state.terminals = 0) :
    ∃ events next,
    Run (Step capacity) state events next ∧ next.channel = [] ∧ next.terminals = 0 := by
  suffices drained : ∃ next, execute (step capacity) state
      (List.replicate state.channel.length (.take false)) = some next ∧ next.channel = [] ∧
        next.terminals = 0 by
    rcases drained with ⟨next, executed, empty⟩
    exact ⟨_, next, Run.of_execute (fun _ _ _ move => move) .start executed, empty⟩
  induction channel : state.channel generalizing state with
  | nil => exact ⟨state, rfl, channel, none⟩
  | cons update rest ih =>
      have notEnded : state.ended = false := by
        rw [terminals, List.countP_append] at none
        have noneTaken := List.countP_eq_zero.mp (Nat.eq_zero_of_add_eq_zero_right none)
        simpa [ended] using noneTaken
      have taken : state.step capacity (.take false) = some { state with
          channel := rest
          closed := state.closed || update.isTerminal
          taken := state.taken ++ [update]
          status := state.statusAfter false update } := by
        simp [step, channel, notEnded]
      have rest := @ih { state with
          channel := rest
          closed := state.closed || update.isTerminal
          taken := state.taken ++ [update]
          status := state.statusAfter false update }
        (by simpa [terminals, channel] using none) rfl
      rcases rest with ⟨next, executed, empty⟩
      refine ⟨next, ?_, empty⟩
      rw [List.length_cons, List.replicate_succ, execute, taken]
      exact executed

theorem not_delivered (emitted : state.emitted) (none : state.terminals = 0) :
    ¬Delivered capacity state := by
  intro delivered
  rcases exists_drained capacity none with ⟨events, next, run, drained, noneThen⟩
  rcases delivered.eventually emitted events next run with taken | ⟨waiting, -⟩
  · rw [terminals, List.countP_append, taken] at noneThen
    omega
  · exact waiting drained

/-- The terminal message is delivered exactly when the channel is open and has room when it is
sent. -/
theorem delivered_iff {job : NzbJob} {enabledServerIds : List ServerId} {deferVolumes : Bool}
    {order : IterationOrder} {incompleteNzb : Option String} {damageHint : ℕ} {damage : Option ℕ}
    {events : List ProgressEvent}
    (run : Run (Step capacity) (submitted (JobRun.submitted job enabledServerIds deferVolumes order
      incompleteNzb damageHint damage)) events state) :
    Delivered capacity state ↔ Run.Always (Step capacity) (submitted (JobRun.submitted job
      enabledServerIds deferVolumes order incompleteNzb damageHint damage))
        (fun _ => Room capacity) events := by
  have unsent : (submitted (JobRun.submitted job enabledServerIds deferVolumes order incompleteNzb
      damageHint damage)).engine.ctx.sent = [] :=
    (JobRun.start_frame job deferVolumes order _ (Dispatch.buildWorkItems job enabledServerIds)).2.2
  have carriedInit : Carried (submitted (JobRun.submitted job enabledServerIds deferVolumes order
      incompleteNzb damageHint damage)) :=
    ⟨JobRun.settling_submitted job enabledServerIds deferVolumes order incompleteNzb damageHint
      damage, by simp [terminals, submitted]⟩
  generalize submitted (JobRun.submitted job enabledServerIds deferVolumes order incompleteNzb
    damageHint damage) = init at run unsent carriedInit ⊢
  constructor
  · intro delivered
    by_contra notAlways
    simp only [Run.Always, not_forall] at notAlways
    rcases notAlways with ⟨before, event, after, middle, rfl, upTo, noRoom⟩
    rcases run.exists_step with ⟨other, next, upToOther, move, upToNext⟩
    cases Run.unique (step_functional capacity) upTo upToOther
    have lost : next.emitted ∧ next.terminals = 0 := by
      have carried := carriedInit.run upTo
      have atMost := (carried.step move).atMostOnce
      have few := carried.terminals
      cases moves move with
      | delivers message room sent terminals => exact absurd room noRoom
      | keeps room sent terminals => exact absurd room noRoom
      | loses message noRoom sent terminals =>
          rw [sent, List.length_append, List.length_singleton] at atMost
          constructor
          · simp [emitted, sent]
          · omega
    rw [List.append_cons] at run
    have rest := run.of_append_of_functional (step_functional capacity) upToNext
    have lostThen : Carried state ∧ state.emitted ∧ state.terminals = 0 := by
      apply rest.invariant (fun _ state => Carried state ∧ state.emitted ∧ state.terminals = 0)
      · exact ⟨carriedInit.run upToNext, lost⟩
      · intro _ _ _ _ _ ⟨carried, emitted, lost⟩ move
        exact ⟨carried.step move, carried.stays_lost move emitted lost⟩
    exact not_delivered lostThen.2.1 lostThen.2.2 delivered
  · intro always
    have terminals : state.terminals = state.engine.ctx.sent.length := by
      apply run.invariant_of_steps
        (fun _ state => state.terminals = state.engine.ctx.sent.length) always
      · rw [unsent]
        have few := carriedInit.terminals
        rw [unsent, List.length_nil] at few
        exact Nat.le_zero.mp few
      · intro _ _ _ _ _ same room move
        cases moves move with
        | delivers message room sent terminals =>
            rw [terminals, sent, same, List.length_append, List.length_singleton]
        | loses message noRoom sent terminals => exact absurd room noRoom
        | keeps room sent terminals => rw [terminals, sent, same]
    exact (carriedInit.run run).delivered terminals

/-- The article arrives, and the engine gets as far as having read that there is no abort reason. -/
def arrives : List ProgressEvent :=
  JobRun.deliveredEvents.map fun event => .engine event 700

theorem delivered_iff_one_article : ∃ state, state.engine.ctx.sent.length = 1 ∧
    (Delivered 1 state ↔ Run.Always (Step 1) (submitted JobRun.oneArticle) (fun _ => Room 1)
      (arrives ++ [.take false, .engine (.act 0 .advance) 0])) := by
  have executed : (execute (step 1) (submitted JobRun.oneArticle)
      (arrives ++ [.take false, .engine (.act 0 .advance) 0])).map
        (fun state => state.engine.ctx.sent.length) = some 1 := by
    decide
  rcases Option.map_eq_some_iff.mp executed with ⟨state, executed, sent⟩
  have run := Run.of_execute (fun _ _ _ move => move) .start executed
  exact ⟨state, sent, delivered_iff run⟩

/-- The handler has not taken the article's update when the engine sends the terminal message. -/
theorem not_delivered_of_full : ¬∀ (capacity : ℕ) (job : NzbJob) (enabledServerIds : List ServerId)
    (deferVolumes : Bool) (order : IterationOrder) (incompleteNzb : Option String)
    (damageHint : ℕ) (damage : Option ℕ) (events : List ProgressEvent) (state : Progress),
    0 < capacity → Run (Step capacity) (submitted (JobRun.submitted job enabledServerIds
      deferVolumes order incompleteNzb damageHint damage)) events state →
        Delivered capacity state := by
  intro delivers
  have executed : (execute (step 1) (submitted JobRun.oneArticle)
      (arrives ++ [.engine (.act 0 .advance) 0, .take false])).map (fun state =>
        (state.engine.ctx.sent.length, state.channel.length,
          state.taken.map ProgressUpdate.isTerminal, state.status)) =
            some (1, 0, [false], .downloading) := by
    decide
  rcases Option.map_eq_some_iff.mp executed with ⟨state, executed, facts⟩
  simp only [Prod.mk.injEq, List.map_eq_singleton_iff] at facts
  rcases facts with ⟨sent, channel, ⟨update, taken, notTerminal⟩, status⟩
  have delivered := delivers 1 _ _ _ _ _ _ _ _ _ Nat.one_pos
    (Run.of_execute (fun _ _ _ move => move) .start executed)
  refine delivered.noneStuck ?_ (List.length_eq_zero_iff.mp channel) ?_ status
  · exact List.ne_nil_of_length_pos (by omega)
  · simpa [taken] using notTerminal

end Progress

end Rustnzb.Web
