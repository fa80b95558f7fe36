import Rustnzb.Dispatch.JobDelivery

/-!
# Deferred recovery volumes over a run

`hold` puts the articles of a job's recovery volumes aside, and each call of `release_for` takes a
prefix of what is left. Nothing is taken twice and nothing disappears, in every order of events. The
blocks of a volume count when it is released. They are enough for the damage as long as the released
volumes that lose an article carry no more blocks than the margin.
-/

namespace Rustnzb.Dispatch

open Lib

namespace ReleaseCall

def items (call : ReleaseCall) : List WorkItem :=
  ((call.before.releaseFor call.need).1).getD []

end ReleaseCall

/-- The calls of `release_for`, one after the other, lead from `first` to `last`. -/
inductive Calls (first : HeldVolumes) : List ReleaseCall → HeldVolumes → Prop
  | none : Calls first [] first
  | call {calls : List ReleaseCall} {before : HeldVolumes} (need : Option ℕ)
      (earlier : Calls first calls before) :
      Calls first
        (calls ++ [{ need := need, before := before, after := (before.releaseFor need).2 }])
        (before.releaseFor need).2

namespace Calls

theorem volumes_spec (before : HeldVolumes) (need : Option ℕ) :
    let call : ReleaseCall := { need, before, after := (before.releaseFor need).2 }
    SmallestPrefix need before.releasedBlocks before.held call.volumes call.after.held ∧
      call.after.releasedBlocks = before.releasedBlocks + blocksOf call.volumes ∧
      call.items = itemsOf call.volumes := by
  intro call
  rcases releaseFor_spec before need with ⟨volumes, smallest, blocks, items⟩
  have same : call.volumes = volumes := by
    simp [call, ReleaseCall.volumes, smallest.append_eq]
  rw [same]
  exact ⟨smallest, blocks, items⟩

variable {first last : HeldVolumes} {calls : List ReleaseCall}

theorem account (made : Calls first calls last) :
    calls.flatMap ReleaseCall.volumes ++ last.held = first.held ∧
      last.releasedBlocks =
        first.releasedBlocks + blocksOf (calls.flatMap ReleaseCall.volumes) ∧
      calls.flatMap ReleaseCall.items = itemsOf (calls.flatMap ReleaseCall.volumes) := by
  induction made with
  | none => simp [blocksOf, itemsOf]
  | call need _ ih =>
      rcases ih with ⟨held, blocks, items⟩
      rcases volumes_spec _ need with ⟨smallest, more, returned⟩
      simp only [List.flatMap_append, List.flatMap_singleton, List.append_assoc]
      refine ⟨?_, ?_, ?_⟩
      · rw [← smallest.append_eq, held]
      · rw [more, blocks]
        simp [blocksOf, add_assoc]
      · rw [items, returned]
        simp [itemsOf]

theorem smallest (made : Calls first calls last) :
    ∀ before call after, calls = before ++ call :: after →
      SmallestPrefix call.need
        (first.releasedBlocks + blocksOf (before.flatMap ReleaseCall.volumes))
        call.before.held call.volumes call.after.held := by
  induction made with
  | none =>
      intro before call after split
      simp at split
  | call need made ih =>
      intro before call after split
      rcases List.eq_nil_or_concat after with rfl | ⟨rest, final, rfl⟩
      · rcases List.append_inj' split rfl with ⟨rfl, same⟩
        cases same
        rw [← made.account.2.1]
        exact (volumes_spec _ need).1
      · rw [List.concat_eq_append, ← List.cons_append, ← List.append_assoc] at split
        exact ih before call rest (List.append_inj' split rfl).1

end Calls

namespace JobRun

def releasedVolumes (run : JobRun) : List HeldVolume :=
  run.ctx.releases.flatMap ReleaseCall.volumes

def lostBlocks (run : JobRun) : ℕ :=
  blocksOf (run.releasedVolumes.filter fun volume => volume.fileId ∈ run.ctx.lost)

def Arrived (job : NzbJob) (written : List (FileId × ℕ)) (volume : HeldVolume) : Prop :=
  ∀ file ∈ job.files, file.id = volume.fileId → ∀ article ∈ file.articles,
    article.downloaded = true ∨ (file.id, article.segmentNumber) ∈ written

instance (job : NzbJob) (written : List (FileId × ℕ)) (volume : HeldVolume) :
    Decidable (Arrived job written volume) :=
  inferInstanceAs (Decidable (∀ file ∈ job.files, file.id = volume.fileId →
    ∀ article ∈ file.articles,
      article.downloaded = true ∨ (file.id, article.segmentNumber) ∈ written))

/-- The recovery blocks of the released volumes all of whose articles have arrived. -/
def arrivedBlocks (run : JobRun) (job : NzbJob) (written : List (FileId × ℕ)) : ℕ :=
  blocksOf (run.releasedVolumes.filter fun volume => Arrived job written volume)

def delivered (run : JobRun) : List JobEvent → List (FileId × ℕ)
  | [] => []
  | event :: events =>
      (run.arrival event).toList.map WorkItem.key ++
        match run.step event with
        | some next => next.delivered events
        | none => []

/-- Where the items given to `hold` are, and what the calls of `release_for` took. -/
structure Deferred (job : NzbJob) (enabledServerIds : List ServerId) (order : IterationOrder)
    (run : JobRun) : Prop where
  conserved : ((split job (buildWorkItems job enabledServerIds) true order).1 ++
    run.ctx.releases.flatMap ReleaseCall.items ++ run.ctx.held.items).Perm
      (buildWorkItems job enabledServerIds)
  ordered : (run.releasedVolumes ++ run.ctx.held.held).Pairwise fun left right =>
    left.firstExponent ≤ right.firstExponent
  smallest : ∀ before call after, run.ctx.releases = before ++ call :: after →
    SmallestPrefix call.need (blocksOf (before.flatMap ReleaseCall.volumes)) call.before.held
      call.volumes call.after.held

/-- `JobFinished` with volumes held back: what arrived covers the damage of the final map. -/
def Enough (job : NzbJob) (written : List (FileId × ℕ)) (run : JobRun) : Prop :=
  ∀ success articlesFailed damage,
    Terminal.jobFinished success articlesFailed damage ∈ run.ctx.sent →
      run.ctx.held.isEmpty = false →
        ∃ needed, damage = some needed ∧ needed ≤ run.arrivedBlocks job written

section Submitted

variable (job : NzbJob) (enabledServerIds : List ServerId) (deferVolumes : Bool)
  (order : IterationOrder) (incompleteNzb : Option String) (damageHint : ℕ) (damage : Option ℕ)

theorem split_nil : split job [] deferVolumes order = ([], .new) := by
  have empty : order.list [] = [] := List.Perm.eq_nil (order.perm [])
  simp only [split]
  split
  · simp [HeldVolumes.hold, splitVolumes, empty, HeldVolumes.new]
  · rfl

theorem held_submitted :
    (submitted job enabledServerIds deferVolumes order incompleteNzb damageHint damage).ctx.held =
        (split job (buildWorkItems job enabledServerIds) deferVolumes order).2 ∧
      (submitted job enabledServerIds deferVolumes order incompleteNzb damageHint
        damage).ctx.releases = [] := by
  simp only [submitted, start]
  split
  next empty =>
    rw [List.isEmpty_iff.mp empty, split_nil]
    exact ⟨rfl, rfl⟩
  · split
    · exact ⟨rfl, rfl⟩
    · exact ⟨rfl, rfl⟩

theorem split_spec (items : List WorkItem) :
    ((split job items deferVolumes order).1 ++
        (split job items deferVolumes order).2.items).Perm items ∧
      ((split job items deferVolumes order).2.held.Pairwise fun left right =>
        left.firstExponent ≤ right.firstExponent) ∧
      ByFile (split job items deferVolumes order).2.held ∧
      (split job items deferVolumes order).2.releasedBlocks = 0 := by
  simp only [split]
  split
  · exact ⟨hold_perm order .new items _, hold_sorted order .new items _,
      hold_byFile order .new items _, rfl⟩
  · exact ⟨by simp [HeldVolumes.new, HeldVolumes.items], by simp [HeldVolumes.new],
      ⟨by simp [HeldVolumes.new], by simp [HeldVolumes.new]⟩, rfl⟩

end Submitted

section Step

variable {run next : JobRun} {event : JobEvent} {first : HeldVolumes}

theorem calls_of_performed {ctx after : JobContext} {task other : Task}
    (performed : Performed ctx task after other)
    (filled : ∀ volume ∈ ctx.held.held, volume.items ≠ [])
    (made : Calls first ctx.releases ctx.held) : Calls first after.releases after.held := by
  cases performed with
  | choseNothing site need held isChoosing nothing =>
      rw [(releaseFor_none filled nothing).1]
      exact made
  | chose site need items held isChoosing something =>
      have called := made.call need
      rw [something] at called
      exact called
  | _ => exact made

theorem calls_of_step (settling : run.Settling) (made : Calls first run.ctx.releases run.ctx.held)
    (move : Step run event next) : Calls first next.ctx.releases next.ctx.held := by
  rcases step_cases move with
    ⟨index, action, task, ctx, after, rfl, isTask, moved, rfl⟩ | ⟨-, -, aside⟩
  · exact calls_of_performed (perform_performed moved) settling.filled made
  · rw [aside.releases, aside.held]
    exact made

theorem damage_of_performed {ctx after : JobContext} {task other : Task}
    (performed : Performed ctx task after other) : after.damage = ctx.damage := by
  cases performed <;> rfl

/-- `JobFinished` was sent with the map as it still is. -/
def Reported (run : JobRun) : Prop :=
  ∀ success articlesFailed damage,
    Terminal.jobFinished success articlesFailed damage ∈ run.ctx.sent → damage = run.ctx.damage

theorem Reported.step (reported : run.Reported) (settling : run.Settling)
    (move : Step run event next) : next.Reported := by
  intro success articlesFailed damage sent
  rcases step_cases move with
    ⟨index, action, task, ctx, after, rfl, isTask, moved, rfl⟩ | ⟨-, -, aside⟩
  · have performed := perform_performed moved
    dsimp only at sent ⊢
    rw [damage_of_performed performed]
    rcases message_of_performed performed sent with before | ⟨reason, now⟩
    · exact reported success articlesFailed damage before
    · rcases reason with _ | reason
      · simp only [JobContext.message, Terminal.jobFinished.injEq] at now
        exact now.2.2
      · simp [JobContext.message] at now
  · rw [aside.sent] at sent
    rcases aside.damage with same | ⟨task, mem, working⟩
    · rw [same]
      exact reported success articlesFailed damage sent
    · -- nobody holds an article any more once the message is sent
      have atZero := (settling.final _ sent rfl).1
      have owesNothing := settling.owesNothing atZero mem
      have := List.length_pos_iff.mpr working
      simp only [Task.owed] at owesNothing
      omega

structure Deferring (first : HeldVolumes) (items : List WorkItem) (written : List (FileId × ℕ))
    (run : JobRun) : Prop where
  settling : run.Settling
  located : run.Located items written
  made : Calls first run.ctx.releases run.ctx.held
  reported : run.Reported

theorem Deferring.step {items : List WorkItem} {written : List (FileId × ℕ)}
    (deferring : run.Deferring first items written) (move : Step run event next) :
    next.Deferring first items (written ++ (run.arrival event).toList.map WorkItem.key) where
  settling := deferring.settling.step move
  located := deferring.located.step move
  made := calls_of_step deferring.settling deferring.made move
  reported := deferring.reported.step deferring.settling move

end Step

theorem delivered_append_singleton {init run : JobRun} {events : List JobEvent}
    (isRun : Run Step init events run) (event : JobEvent) :
    init.delivered (events ++ [event]) =
      init.delivered events ++ (run.arrival event).toList.map WorkItem.key := by
  have executed := isRun.execute_eq (fun _ _ _ move => move)
  clear isRun
  induction events generalizing init with
  | nil =>
      cases executed
      simp only [List.nil_append, delivered]
      split <;> simp
  | cons other events ih =>
      rcases Option.bind_eq_some_iff.mp executed with ⟨middle, move, rest⟩
      simp only [List.cons_append, delivered, move, List.append_assoc]
      rw [ih rest]

section Run

variable {job : NzbJob} {enabledServerIds : List ServerId} {order : IterationOrder}
  {incompleteNzb : Option String} {damageHint : ℕ} {damage : Option ℕ} {events : List JobEvent}
  {run : JobRun}

theorem deferring_of_run
    (isRun : Run Step (submitted job enabledServerIds true order incompleteNzb damageHint damage)
      events run) :
    run.Deferring (split job (buildWorkItems job enabledServerIds) true order).2
      (unfinishedItems job)
      ((submitted job enabledServerIds true order incompleteNzb damageHint damage).delivered
        events) := by
  apply isRun.invariant (fun events run => run.Deferring
    (split job (buildWorkItems job enabledServerIds) true order).2 (unfinishedItems job)
    ((submitted job enabledServerIds true order incompleteNzb damageHint damage).delivered events))
  · rcases held_submitted job enabledServerIds true order incompleteNzb damageHint damage with
      ⟨held, releases⟩
    rcases start_frame job true order
      (context job enabledServerIds incompleteNzb damageHint damage)
      (buildWorkItems job enabledServerIds) with ⟨-, -, sent⟩
    constructor
    case settling => exact settling_submitted ..
    case located =>
      exact located_submitted job enabledServerIds true order incompleteNzb damageHint damage
    case made =>
      rw [held, releases]
      exact .none
    case reported =>
      intro success articlesFailed damage mem
      rw [submitted, sent] at mem
      simp [context] at mem
  · intro events run event next isRun deferring move
    rw [delivered_append_singleton isRun]
    exact deferring.step move

theorem deferred_of_run
    (isRun : Run Step (submitted job enabledServerIds true order incompleteNzb damageHint damage)
      events run) : run.Deferred job enabledServerIds order := by
  rcases split_spec job true order (buildWorkItems job enabledServerIds) with
    ⟨perm, sorted, -, noneYet⟩
  have made := (deferring_of_run isRun).made
  rcases made.account with ⟨held, -, items⟩
  constructor
  case conserved =>
    rw [items, List.append_assoc]
    refine List.Perm.trans ?_ perm
    apply List.Perm.append_left
    simp only [HeldVolumes.items, ← held, itemsOf, List.flatMap_append]
    exact List.Perm.refl _
  case ordered =>
    rw [releasedVolumes, held]
    exact sorted
  case smallest =>
    intro before call after split
    have smallest := made.smallest before call after split
    rwa [noneYet, Nat.zero_add] at smallest

theorem blocksOf_le_add {volumes : List HeldVolume} {test other : HeldVolume → Bool}
    (covers : ∀ volume ∈ volumes, test volume = true ∨ other volume = true) :
    blocksOf volumes ≤ blocksOf (volumes.filter test) + blocksOf (volumes.filter other) := by
  induction volumes with
  | nil => simp [blocksOf]
  | cons volume volumes ih =>
      rw [List.forall_mem_cons] at covers
      have rest := ih covers.2
      simp only [blocksOf] at rest ⊢
      simp only [List.filter_cons, List.map_cons, List.sum_cons]
      rcases covers.1 with passes | passes
      · rw [if_pos passes, List.map_cons, List.sum_cons]
        split
        · rw [List.map_cons, List.sum_cons]
          omega
        · omega
      · rw [if_pos passes, List.map_cons, List.sum_cons]
        split
        · rw [List.map_cons, List.sum_cons]
          omega
        · omega

theorem arrived_of_notMem
    (isRun : Run Step (submitted job enabledServerIds true order incompleteNzb damageHint damage)
      events run) {message : Terminal} (sent : message ∈ run.ctx.sent)
    (isFinished : message.isFinished = true) {volume : HeldVolume}
    (released : volume ∈ run.releasedVolumes) (notLost : volume.fileId ∉ run.ctx.lost) :
    Arrived job ((submitted job enabledServerIds true order incompleteNzb damageHint
      damage).delivered events) volume := by
  have deferring := deferring_of_run isRun
  rcases split_spec job true order (buildWorkItems job enabledServerIds) with ⟨-, -, byFile, -⟩
  rw [← deferring.made.account.1] at byFile
  intro file fileMem own article articleMem
  by_cases done : article.downloaded = true
  · exact .inl done
  · right
    have mem : workItemOf job file article ∈ unfinishedItems job :=
      mem_unfinishedItems.mpr ⟨file, fileMem, article, articleMem, by simpa using done, rfl⟩
    have notLost : (workItemOf job file article).fileId ∉ run.ctx.lost := by
      simpa [workItemOf, own] using notLost
    rcases deferring.located.written_of_notMem deferring.settling sent isFinished mem notLost with
      isWritten | ⟨other, held, key⟩
    · exact isWritten
    · -- the file's volume would be released and held
      rcases List.mem_flatMap.mp held with ⟨holder, holderMem, otherMem⟩
      have same : holder.fileId = volume.fileId := by
        rw [← byFile.own holder (List.mem_append_right _ holderMem) other otherMem,
          (Prod.mk.inj key).1, ← own]
        rfl
      have unique := byFile.unique
      rw [List.map_append, List.nodup_append] at unique
      exact absurd same.symm (unique.2.2 _ (List.mem_map_of_mem released) _
        (List.mem_map_of_mem holderMem))

theorem enough_of_run
    (isRun : Run Step (submitted job enabledServerIds true order incompleteNzb damageHint damage)
      events run) (few : run.lostBlocks ≤ repairMargin) :
    run.Enough job ((submitted job enabledServerIds true order incompleteNzb damageHint
      damage).delivered events) := by
  intro success articlesFailed damage sent someHeld
  have deferring := deferring_of_run isRun
  have reported := deferring.reported success articlesFailed damage sent
  rcases deferring.settling.final _ sent rfl with ⟨-, -, noneHeld | undamaged | covered⟩
  · simp [someHeld] at noneHeld
  · exact ⟨0, reported.trans undamaged, Nat.zero_le _⟩
  · rcases covered with ⟨needed, measured, fits⟩
    refine ⟨needed, reported.trans measured, ?_⟩
    have blocks := deferring.made.account.2.1
    rw [(split_spec job true order (buildWorkItems job enabledServerIds)).2.2.2,
      Nat.zero_add] at blocks
    have covers : blocksOf run.releasedVolumes ≤ run.lostBlocks + run.arrivedBlocks job _ :=
      blocksOf_le_add fun volume released => by
        by_cases lost : volume.fileId ∈ run.ctx.lost
        · exact .inl (decide_eq_true lost)
        · exact .inr (decide_eq_true (arrived_of_notMem isRun sent rfl released lost))
    simp only [releasedVolumes] at covers
    omega

end Run

def deferredFile (name : String) (volume : Option (ℕ × ℕ)) : NzbFile where
  id := name
  filename := name
  par2Vol := volume.map Prod.fst
  par2Blocks := volume.map Prod.snd
  articles := [{
    messageId := name, segmentNumber := 1, downloaded := false, dataBegin := none
    dataSize := none, triedServers := [] }]

/-- An index, a data file, and two recovery volumes of nine blocks and of one. -/
def twoVolumes : NzbJob where
  id := "j"
  files := [deferredFile "a.par2" none, deferredFile "a.bin" none,
    deferredFile "a.vol0+9.par2" (some (0, 9)), deferredFile "a.vol9+1.par2" (some (9, 1))]

/-- The data file turns out to have a damaged slice, and the article of the volume of nine blocks is
refused three times. -/
def lostVolumeEvents : List JobEvent :=
  ([.spawn false, .act 0 (.take 0), .act 0 (.take 0), .progress 1 (some 1),
    .act 0 (.answer 0 false oneProvider "A" .present)] : List JobEvent) ++
    (List.replicate 6 (.act 0 .advance) : List JobEvent) ++
    ([.act 0 (.take 0), .act 0 (.answer 0 false oneProvider "A" .present)] : List JobEvent) ++
    (List.replicate 4 (.act 0 .advance) : List JobEvent) ++
    ([.act 0 (.answer 0 false oneProvider "A" (.error (.articleNotFound ""))),
      .wake 0, .act 0 (.take 0),
      .act 0 (.answer 0 false oneProvider "A" (.error (.articleNotFound ""))),
      .wake 0, .act 0 (.take 0),
      .act 0 (.answer 0 false oneProvider "A" (.error (.articleNotFound "")))] : List JobEvent) ++
    (List.replicate 10 (.act 0 .advance) : List JobEvent)

theorem exists_lostVolume : ∃ run,
    Run Step (submitted twoVolumes ["A"] true Engine.listedAsIs none 0 none) lostVolumeEvents run ∧
      run.ctx.sent = [.jobFinished false 1 (some 1)] ∧ run.ctx.held.isEmpty = false ∧
        run.lostBlocks = 9 ∧ run.arrivedBlocks twoVolumes
          ((submitted twoVolumes ["A"] true Engine.listedAsIs none 0 none).delivered
            lostVolumeEvents) = 0 := by
  have executed : (execute step
      (submitted twoVolumes ["A"] true Engine.listedAsIs none 0 none) lostVolumeEvents).any
        (fun run => run.ctx.sent = [.jobFinished false 1 (some 1)] ∧
          run.ctx.held.isEmpty = false ∧ run.lostBlocks = 9 ∧ run.arrivedBlocks twoVolumes
            ((submitted twoVolumes ["A"] true Engine.listedAsIs none 0 none).delivered
              lostVolumeEvents) = 0) = true := by
    decide +kernel
  rcases (Option.any_eq_true _ _).mp executed with ⟨run, isRun, finished⟩
  exact ⟨run, run_of_execute isRun, of_decide_eq_true finished⟩

/-- The articles that `hold` gets are enqueued, held or released once, lowest exponent first and as
few volumes as needed. When the job finishes with volumes held, what arrived of the others covers
the damage if those that lost an article carry at most the margin, and no larger bound would do. -/
theorem deferred_volumes_iff (bound : ℕ) :
    (∀ (job : NzbJob) (enabledServerIds : List ServerId) (order : IterationOrder)
      (incompleteNzb : Option String) (damageHint : ℕ) (damage : Option ℕ)
      (events : List JobEvent) (run : JobRun),
      Run Step (submitted job enabledServerIds true order incompleteNzb damageHint damage)
          events run →
        run.Deferred job enabledServerIds order ∧
          (run.lostBlocks ≤ bound →
            run.Enough job ((submitted job enabledServerIds true order incompleteNzb damageHint
              damage).delivered events))) ↔
      bound ≤ repairMargin := by
  constructor
  · intro holds
    by_contra more
    rcases exists_lostVolume with ⟨run, isRun, sent, someHeld, lost, arrived⟩
    have few : run.lostBlocks ≤ bound := by
      simp only [repairMargin] at more
      omega
    have enough := (holds _ _ _ _ _ _ _ _ isRun).2 few
    rcases enough false 1 (some 1) (by simp [sent]) someHeld with ⟨needed, isSome, covered⟩
    cases isSome
    omega
  · intro within job enabledServerIds order incompleteNzb damageHint damage events run isRun
    exact ⟨deferred_of_run isRun, fun few => enough_of_run isRun (few.trans within)⟩

/-- A volume of nine blocks that does not arrive is not made up for. -/
theorem not_enough_of_lostVolume : ¬∀ (job : NzbJob) (enabledServerIds : List ServerId)
    (order : IterationOrder) (incompleteNzb : Option String) (damageHint : ℕ)
    (damage : Option ℕ) (events : List JobEvent) (run : JobRun),
    Run Step (submitted job enabledServerIds true order incompleteNzb damageHint damage)
        events run →
      run.Enough job ((submitted job enabledServerIds true order incompleteNzb damageHint
        damage).delivered events) := by
  intro holds
  rcases exists_lostVolume with ⟨run, isRun, sent, someHeld, -, arrived⟩
  rcases holds _ _ _ _ _ _ _ _ isRun false 1 (some 1) (by simp [sent]) someHeld with
    ⟨needed, isSome, covered⟩
  cases isSome
  omega

end JobRun

end Rustnzb.Dispatch
