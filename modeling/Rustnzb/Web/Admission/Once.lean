import Rustnzb.Web.Admission.Calls

/-!
# A key admits one job

A key is bound in the transaction that inserts the row, so that whatever the calls do, it is bound
once and the job with it. What they leave behind is another matter: the directory is made before
the transaction, and is removed again only by a call that finds the same payload under its key.

Each call keeps what its phase says about its own job, which no other call touches: the ids of the
jobs differ.
-/

namespace Rustnzb.Web.Admission

open Dispatch (JobId)
open Lib (Registry Run execute)

variable {config : Config} {manager manager' : QueueManager} {store store' : Store}
  {id other : CallId} {call : Call}

namespace Answer

/-- The caller is told that a job of its own is in the queue. -/
def IsAccepted : Answer → Prop
  | inserted _ | added => True
  | _ => False

end Answer

def Store.Absent (store : Store) (id : JobId) : Prop :=
  id ∉ store.dirs ∧ id ∉ store.rows ∧ id ∉ store.jobs

namespace QueueManager

structure AdmitsOnce (config : Config) (manager : QueueManager) : Prop where
  bound : ∀ key admission, (key, admission) ∈ manager.bindings ↔
    manager.admissions.lookup key = some admission
  once : (manager.bindings.map Prod.fst).Nodup
  activated : (manager.activated.map Prod.fst).Nodup
  ofKey : ∀ key id, (key, id) ∈ manager.activated →
    ∃ admission, (key, admission) ∈ manager.bindings ∧ admission.jobId = id
  answered : ∀ call answer, (call, answer) ∈ manager.answers →
    ∀ key payloadDigest admission, call.kind = .idempotent key payloadDigest →
      call.known = some admission →
        answer = answerBound payloadDigest admission ∨ call.failed = true ∧ answer = .error
  queued : ∀ swept next, Step config manager (.restart true swept) next →
    ∀ key admission, (key, admission) ∈ manager.bindings →
      admission.jobId ∈ next.jobs ∨ admission.jobId ∈ manager.departed
  left : ∀ call answer, (call, answer) ∈ manager.answers → ¬answer.IsAccepted →
    manager.Absent call.id
  checked : ∀ call answer, (call, answer) ∈ manager.answers → answer.IsAccepted →
    config.admits call.job = true

/-- From a call that makes its directory, the row follows: the transaction goes through, and a key
that is bound by then is bound to the same payload. The job of a key passes the checks. The unused
directory can be removed. And a row of the queue is removed at the end of its job only if there is
one in the history. -/
def Careful (config : Config) (manager : QueueManager) : Label → Prop
  | .admitJob id read refused made committed =>
      ∀ call, manager.calls.lookup id = some call → read = true →
        manager.isRefused call refused = false → made = true →
          (call.ownsDir = true → committed = true) ∧
            ∀ key payloadDigest, call.kind = .idempotent key payloadDigest →
              match manager.admissions.lookup key with
              | some admission => admission.payloadDigest = payloadDigest
              | none => config.admits call.job = true
  | .removeDir _ removed => removed = true
  | .finish id inserted removed _ => removed = true → id ∈ manager.history ∨ inserted = true
  | _ => True

end QueueManager

def KeyAnswer (store : Store) (call : Call) (key payloadDigest : String) : Answer → Prop
  | .inserted admission => call.known = none ∧ (key, admission) ∈ store.bindings
  | .existing admission =>
      (key, admission) ∈ store.bindings ∧ admission.payloadDigest = payloadDigest
  | .conflict =>
      ∃ admission, (key, admission) ∈ store.bindings ∧ admission.payloadDigest ≠ payloadDigest
  | .added => False
  | .error => call.known = none ∨ call.failed = true

def Answered (store : Store) (call : Call) (answer : Answer) : Prop :=
  ∀ key payloadDigest, call.kind = .idempotent key payloadDigest →
    KeyAnswer store call key payloadDigest answer

structure Returned (config : Config) (store : Store) (call : Call) (answer : Answer) :
    Prop where
  answered : Answered store call answer
  left : ¬answer.IsAccepted → store.Absent call.id
  checked : answer.IsAccepted → config.admits call.job = true

def AtPhase (config : Config) (store : Store) (call : Call) : Phase → Prop
  | .entering => store.Absent call.id
  | .admitting =>
      store.Absent call.id ∧
        (∀ key payloadDigest, call.kind = .idempotent key payloadDigest → call.known = none) ∧
        ((∀ key payloadDigest, call.kind ≠ .idempotent key payloadDigest) →
          config.admits call.job = true)
  | .activating admission =>
      call.id ∉ store.jobs ∧ config.admits call.job = true ∧
        ∀ key payloadDigest, call.kind = .idempotent key payloadDigest →
          admission = some ⟨payloadDigest, call.id⟩ ∧ call.known = none ∧
            (key, ⟨payloadDigest, call.id⟩) ∈ store.bindings ∧
            key ∉ store.activated.map Prod.fst
  | .unused admission =>
      call.id ∉ store.rows ∧ call.id ∉ store.jobs ∧
        Answered store call (.existing admission)
  | .returning answer => Returned config store call answer

structure CallSound (config : Config) (store : Store) (call : Call) : Prop where
  issued : call.id ∈ store.issued
  known : ∀ key payloadDigest admission, call.kind = .idempotent key payloadDigest →
    call.known = some admission → (key, admission) ∈ store.bindings
  phase : AtPhase config store call call.phase

structure Shared (store : Store) : Prop where
  issued : ∀ id, ¬store.Absent id → id ∈ store.issued
  bound : ∀ key admission, (key, admission) ∈ store.bindings ↔
    store.admissions.lookup key = some admission
  once : (store.bindings.map Prod.fst).Nodup
  bindings : ∀ key admission, (key, admission) ∈ store.bindings →
    admission.jobId ∈ store.issued ∧
      (admission.jobId ∈ store.rows ∨ admission.jobId ∈ store.departed)
  activated : (store.activated.map Prod.fst).Nodup
  ofKey : ∀ key id, (key, id) ∈ store.activated →
    ∃ admission, (key, admission) ∈ store.bindings ∧ admission.jobId = id

structure Past (config : Config) (store : Store) (call : Call) (answer : Answer) : Prop where
  issued : call.id ∈ store.issued
  known : ∀ key payloadDigest admission, call.kind = .idempotent key payloadDigest →
    call.known = some admission → (key, admission) ∈ store.bindings
  returned : Returned config store call answer

structure Sound (config : Config) (manager : QueueManager) : Prop extends
    Shared manager.toStore where
  calls : ∀ id call, manager.calls.lookup id = some call → CallSound config manager.toStore call
  apart : ∀ id other call call', manager.calls.lookup id = some call →
    manager.calls.lookup other = some call' → call.id = call'.id → id = other
  past : ∀ call answer, (call, answer) ∈ manager.answers →
    Past config manager.toStore call answer ∧
      ∀ id other, manager.calls.lookup id = some other → other.id ≠ call.id

section Frames

/-- No binding goes, and nothing comes of a job that is not touched. -/
structure Extends (store store' : Store) (touched : JobId → Prop) : Prop where
  issued : ∀ id ∈ store.issued, id ∈ store'.issued
  bindings : ∀ binding ∈ store.bindings, binding ∈ store'.bindings
  dirs : ∀ id, ¬touched id → id ∈ store'.dirs → id ∈ store.dirs
  rows : ∀ id, ¬touched id → id ∈ store'.rows → id ∈ store.rows
  jobs : ∀ id, ¬touched id → id ∈ store'.jobs → id ∈ store.jobs

variable {touched : JobId → Prop}

theorem Extends.absent {other : JobId} (extends_ : Extends store store' touched)
    (differs : ¬touched other) (absent : store.Absent other) : store'.Absent other :=
  ⟨fun isDir => absent.1 (extends_.dirs other differs isDir),
    fun isRow => absent.2.1 (extends_.rows other differs isRow),
    fun isJob => absent.2.2 (extends_.jobs other differs isJob)⟩

theorem Answered.mono {answer : Answer} (answered : Answered store call answer)
    (bindings : ∀ binding ∈ store.bindings, binding ∈ store'.bindings) :
    Answered store' call answer := by
  intro key payloadDigest isKind
  have answered := answered key payloadDigest isKind
  cases answer with
  | inserted admission => exact ⟨answered.1, bindings _ answered.2⟩
  | existing admission => exact ⟨bindings _ answered.1, answered.2⟩
  | added => exact answered
  | conflict =>
      rcases answered with ⟨admission, isBound, differs⟩
      exact ⟨admission, bindings _ isBound, differs⟩
  | error => exact answered

theorem Returned.extends {answer : Answer}
    (returned : Returned config store call answer) (extends_ : Extends store store' touched)
    (differs : ¬touched call.id) : Returned config store' call answer where
  answered := returned.answered.mono extends_.bindings
  left refused := extends_.absent differs (returned.left refused)
  checked := returned.checked

theorem CallSound.extends (sound : CallSound config store call)
    (extends_ : Extends store store' touched) (differs : ¬touched call.id)
    (activated : ∀ key payloadDigest, call.kind = .idempotent key payloadDigest →
      (key, ⟨payloadDigest, call.id⟩) ∈ store.bindings →
        key ∉ store.activated.map Prod.fst → key ∉ store'.activated.map Prod.fst) :
    CallSound config store' call where
  issued := extends_.issued call.id sound.issued
  known key payloadDigest admission isKind isKnown :=
    extends_.bindings _ (sound.known key payloadDigest admission isKind isKnown)
  phase := by
    have atPhase := sound.phase
    cases isPhase : call.phase with
    | entering =>
        rw [isPhase] at atPhase
        exact extends_.absent differs atPhase
    | admitting =>
        rw [isPhase] at atPhase
        exact ⟨extends_.absent differs atPhase.1, atPhase.2⟩
    | activating admission =>
        rw [isPhase] at atPhase
        rcases atPhase with ⟨absent, checked, rest⟩
        refine ⟨fun isJob => absent (extends_.jobs call.id differs isJob), checked, ?_⟩
        intro key payloadDigest isKind
        rcases rest key payloadDigest isKind with ⟨same, unknown, isBound, fresh⟩
        exact ⟨same, unknown, extends_.bindings _ isBound,
          activated key payloadDigest isKind isBound fresh⟩
    | unused admission =>
        rw [isPhase] at atPhase
        exact ⟨fun isRow => atPhase.1 (extends_.rows call.id differs isRow),
          fun isJob => atPhase.2.1 (extends_.jobs call.id differs isJob),
          atPhase.2.2.mono extends_.bindings⟩
    | returning answer =>
        rw [isPhase] at atPhase
        exact Returned.extends atPhase extends_ differs

theorem Past.extends {answer : Answer} (past : Past config store call answer)
    (extends_ : Extends store store' touched) (differs : ¬touched call.id) :
    Past config store' call answer where
  issued := extends_.issued call.id past.issued
  known key payloadDigest admission isKind isKnown :=
    extends_.bindings _ (past.known key payloadDigest admission isKind isKnown)
  returned := past.returned.extends extends_ differs

theorem Sound.set (sound : Sound config manager) (isCall : manager.calls.lookup id = some call)
    (base : QueueManager) (next : Call) (calls : base.calls = manager.calls)
    (answers : base.answers = manager.answers) (shared : Shared base.toStore)
    (extends_ : Extends manager.toStore base.toStore (· = call.id))
    (activated : ∀ key admission, (key, admission) ∈ manager.bindings →
      admission.jobId ≠ call.id → key ∉ manager.activated.map Prod.fst →
        key ∉ base.activated.map Prod.fst)
    (same : next.id = call.id) (isSound : CallSound config base.toStore next) :
    Sound config (base.setCall id next) where
  toShared := shared
  calls other found isFound := by
    rw [QueueManager.setCall, calls] at isFound
    by_cases isOther : other = id
    · subst isOther
      rw [AList.lookup_insert] at isFound
      cases isFound
      exact isSound
    · rw [AList.lookup_insert_ne isOther] at isFound
      have differs : found.id ≠ call.id := fun same =>
        isOther (sound.apart other id found call isFound isCall same)
      exact (sound.calls other found isFound).extends extends_ differs
        fun key payloadDigest _ isBound fresh => activated key _ isBound differs fresh
  apart first second one two isOne isTwo sameId := by
    rw [QueueManager.setCall, calls] at isOne isTwo
    by_cases isFirst : first = id
    · subst isFirst
      by_cases isSecond : second = first
      · exact isSecond.symm
      · rw [AList.lookup_insert] at isOne
        rw [AList.lookup_insert_ne isSecond] at isTwo
        cases isOne
        exact sound.apart first second call two isCall isTwo (same.symm.trans sameId)
    · rw [AList.lookup_insert_ne isFirst] at isOne
      by_cases isSecond : second = id
      · subst isSecond
        rw [AList.lookup_insert] at isTwo
        cases isTwo
        exact sound.apart first second one call isOne isCall (sameId.trans same)
      · rw [AList.lookup_insert_ne isSecond] at isTwo
        exact sound.apart first second one two isOne isTwo sameId
  past returned answer isPast := by
    rw [QueueManager.setCall, answers] at isPast
    rcases sound.past returned answer isPast with ⟨past, apart⟩
    refine ⟨past.extends extends_ fun isId => apart id call isCall isId.symm, ?_⟩
    intro other found isFound
    rw [QueueManager.setCall, calls] at isFound
    by_cases isOther : other = id
    · subst isOther
      rw [AList.lookup_insert] at isFound
      cases isFound
      rw [same]
      exact apart other call isCall
    · rw [AList.lookup_insert_ne isOther] at isFound
      exact apart other found isFound

theorem Extends.refl : Extends store store touched :=
  ⟨fun _ isIssued => isIssued, fun _ isBound => isBound, fun _ _ isDir => isDir,
    fun _ _ isRow => isRow, fun _ _ isJob => isJob⟩

theorem Sound.goOn (sound : Sound config manager) (isCall : manager.calls.lookup id = some call)
    (next : Call) (same : next.id = call.id) (isSound : CallSound config manager.toStore next) :
    Sound config (manager.setCall id next) :=
  sound.set isCall manager next rfl rfl sound.toShared Extends.refl (fun _ _ _ _ fresh => fresh)
    same isSound

end Frames

theorem CallSound.next (sound : CallSound config store call) (store' : Store) (phase : Phase)
    (issued : ∀ id ∈ store.issued, id ∈ store'.issued)
    (bindings : ∀ binding ∈ store.bindings, binding ∈ store'.bindings)
    (atPhase : AtPhase config store' (call.enter phase) phase) :
    CallSound config store' (call.enter phase) where
  issued := issued call.id sound.issued
  known key payloadDigest admission isKind isKnown :=
    bindings _ (sound.known key payloadDigest admission isKind isKnown)
  phase := atPhase

theorem CallSound.enter (sound : CallSound config store call) {phase : Phase}
    (atPhase : AtPhase config store (call.enter phase) phase) :
    CallSound config store (call.enter phase) :=
  sound.next store phase (fun _ isIssued => isIssued) (fun _ isBound => isBound) atPhase

theorem CallSound.fail (sound : CallSound config store call) (absent : store.Absent call.id) :
    CallSound config store call.fail where
  issued := sound.issued
  known := sound.known
  phase := ⟨fun _ _ _ => .inr rfl, fun _ => absent, fun accepted => accepted.elim⟩

theorem Shared.returned_answerBound (shared : Shared store) (absent : store.Absent call.id)
    {key payloadDigest : String} (isKind : call.kind = .idempotent key payloadDigest)
    {admission : QueueAdmission} (isBound : store.admissions.lookup key = some admission)
    (phase : Phase) : Returned config store (call.enter phase)
      (QueueManager.answerBound payloadDigest admission) := by
  rw [QueueManager.answerBound]
  split
  next differs =>
    refine ⟨fun key' digest' isKind' => ?_, fun _ => absent, fun accepted => accepted.elim⟩
    cases isKind.symm.trans isKind'
    exact ⟨admission, (shared.bound key admission).mpr isBound, differs⟩
  next same =>
    refine ⟨fun key' digest' isKind' => ?_, fun _ => absent, fun accepted => accepted.elim⟩
    cases isKind.symm.trans isKind'
    exact ⟨(shared.bound key admission).mpr isBound, not_not.mp same⟩

theorem CallSound.known_eq_none (sound : CallSound config store call) (shared : Shared store)
    {key payloadDigest : String} (isKind : call.kind = .idempotent key payloadDigest)
    (unbound : store.admissions.lookup key = none) : call.known = none := by
  cases isKnown : call.known with
  | none => rfl
  | some admission =>
      have isBound := sound.known key payloadDigest admission isKind isKnown
      cases unbound.symm.trans ((shared.bound key admission).mp isBound)

theorem Sound.enter (sound : Sound config manager) (isCall : manager.calls.lookup id = some call)
    (isPhase : call.phase = .entering) (read : Bool) :
    Sound config (manager.enter config id call read) := by
  have callSound := sound.calls id call isCall
  have absent : manager.Absent call.id := by
    have atPhase := callSound.phase
    rwa [isPhase] at atPhase
  unfold QueueManager.enter
  split
  next key payloadDigest isKind =>
    split
    · split
      next admission isBound =>
        exact sound.goOn isCall (call.enter _) rfl
          (callSound.enter (sound.returned_answerBound absent isKind isBound _))
      next unbound =>
        refine sound.goOn isCall (call.enter .admitting) rfl
          (callSound.enter ⟨absent, fun _ _ _ => ?_, fun unkeyed => ?_⟩)
        · exact callSound.known_eq_none sound.toShared isKind unbound
        · exact absurd isKind (unkeyed key payloadDigest)
    · exact sound.goOn isCall call.fail rfl (callSound.fail absent)
  next unkeyed =>
    split
    next passes =>
      refine sound.goOn isCall (call.enter .admitting) rfl
        (callSound.enter ⟨absent, fun _ _ isKind => ?_, fun _ => passes⟩)
      exact absurd isKind (unkeyed _ _)
    · refine sound.goOn isCall (call.enter (.returning .error)) rfl
        (callSound.enter ⟨fun _ _ isKind => ?_, fun _ => absent, fun accepted => accepted.elim⟩)
      exact absurd isKind (unkeyed _ _)

theorem extends_makeDir :
    Extends manager.toStore (manager.makeDir call).toStore (· = call.id) where
  issued _ isIssued := isIssued
  bindings _ isBound := isBound
  dirs other differs isDir := by
    rw [QueueManager.makeDir] at isDir
    split at isDir
    · exact (List.mem_insert_iff.mp isDir).resolve_left differs
    · exact isDir
  rows _ _ isRow := isRow
  jobs _ _ isJob := isJob

theorem Extends.issued_of (extends_ : Extends store store' touched) (shared : Shared store)
    (issued : ∀ id, touched id → id ∈ store'.issued) (id : JobId) (present : ¬store'.Absent id) :
    id ∈ store'.issued := by
  by_cases isTouched : touched id
  · exact issued id isTouched
  · apply extends_.issued
    apply shared.issued
    exact fun absent => present (extends_.absent isTouched absent)

theorem Shared.makeDir (shared : Shared manager.toStore) (issued : call.id ∈ manager.issued) :
    Shared (manager.makeDir call).toStore where
  issued := extends_makeDir.issued_of shared fun _ same => same ▸ issued
  bound := shared.bound
  once := shared.once
  bindings := shared.bindings
  activated := shared.activated
  ofKey := shared.ofKey

theorem extends_insertRow :
    Extends manager.toStore (manager.insertRow call).toStore (· = call.id) where
  issued _ isIssued := isIssued
  bindings _ isBound := isBound
  dirs _ _ isDir := isDir
  rows _ differs isRow := (AList.mem_insert _).mp isRow |>.resolve_left differs
  jobs _ _ isJob := isJob

theorem Shared.insertRow (shared : Shared manager.toStore) (issued : call.id ∈ manager.issued) :
    Shared (manager.insertRow call).toStore where
  issued := extends_insertRow.issued_of shared fun _ same => same ▸ issued
  bound := shared.bound
  once := shared.once
  bindings key admission isBound := by
    rcases shared.bindings key admission isBound with ⟨isIssued, isRow | hasDeparted⟩
    · exact ⟨isIssued, .inl ((AList.mem_insert _).mpr (.inr isRow))⟩
    · exact ⟨isIssued, .inr hasDeparted⟩
  activated := shared.activated
  ofKey := shared.ofKey

theorem Shared.bind (shared : Shared manager.toStore) {key : String} {admission : QueueAdmission}
    (unbound : manager.admissions.lookup key = none) (issued : admission.jobId ∈ manager.issued)
    (isRow : admission.jobId ∈ manager.rows) : Shared (manager.bind key admission).toStore where
  issued := shared.issued
  bound key' admission' := by
    rw [QueueManager.bind]
    dsimp only
    rw [List.mem_append, List.mem_singleton, shared.bound, Prod.mk.injEq]
    by_cases same : key' = key
    · subst same
      rw [AList.lookup_insert, unbound]
      simp [eq_comm]
    · rw [AList.lookup_insert_ne same]
      simp [same]
  once := by
    rw [QueueManager.bind, List.map_append, List.nodup_append]
    refine ⟨shared.once, List.nodup_singleton _, fun key' isKey other isOther => ?_⟩
    rintro rfl
    rcases List.mem_map.mp isKey with ⟨⟨_, admission'⟩, isBound, rfl⟩
    rw [List.map_singleton, List.mem_singleton] at isOther
    dsimp only at isOther isBound
    rw [isOther] at isBound
    cases unbound.symm.trans ((shared.bound key admission').mp isBound)
  bindings key' admission' isBound := by
    rcases List.mem_append.mp isBound with isOld | isNew
    · exact shared.bindings key' admission' isOld
    · cases List.mem_singleton.mp isNew
      exact ⟨issued, .inl isRow⟩
  activated := shared.activated
  ofKey key' id isActivated := by
    rcases shared.ofKey key' id isActivated with ⟨admission', isBound, same⟩
    exact ⟨admission', List.mem_append_left _ isBound, same⟩

theorem Extends.trans {store'' : Store} (first : Extends store store' touched)
    (second : Extends store' store'' touched) : Extends store store'' touched where
  issued id isIssued := second.issued id (first.issued id isIssued)
  bindings binding isBound := second.bindings binding (first.bindings binding isBound)
  dirs id differs isDir := first.dirs id differs (second.dirs id differs isDir)
  rows id differs isRow := first.rows id differs (second.rows id differs isRow)
  jobs id differs isJob := first.jobs id differs (second.jobs id differs isJob)

theorem Sound.commit (sound : Sound config manager) (isCall : manager.calls.lookup id = some call)
    (isPhase : call.phase = .admitting)
    (careful : ∀ key payloadDigest, call.kind = .idempotent key payloadDigest →
      match manager.admissions.lookup key with
      | some admission => admission.payloadDigest = payloadDigest
      | none => config.admits call.job = true) :
    Sound config ((manager.makeDir call).commit id call) := by
  have callSound := sound.calls id call isCall
  have atPhase := callSound.phase
  rw [isPhase] at atPhase
  rcases atPhase with ⟨absent, unknown, checked⟩
  have made : Shared (manager.makeDir call).toStore := sound.toShared.makeDir callSound.issued
  have inserted : Shared ((manager.makeDir call).insertRow call).toStore :=
    made.insertRow callSound.issued
  have extended : Extends manager.toStore ((manager.makeDir call).insertRow call).toStore
      (· = call.id) := extends_makeDir.trans extends_insertRow
  unfold QueueManager.commit
  split
  next key payloadDigest isKind =>
    have payload := careful key payloadDigest isKind
    split
    next admission isBound =>
      have isBound : manager.admissions.lookup key = some admission := isBound
      rw [isBound] at payload
      split
      next differs => exact absurd payload differs
      · have answered : Answered (manager.makeDir call).toStore (call.enter (.unused admission))
            (.existing admission) := by
          intro key' digest' isKind'
          cases isKind.symm.trans isKind'
          exact ⟨(sound.bound key admission).mpr isBound, payload⟩
        have next : CallSound config (manager.makeDir call).toStore
            (call.enter (.unused admission)) :=
          callSound.next _ _ (fun _ isIssued => isIssued) (fun _ isBound => isBound)
            ⟨absent.2.1, absent.2.2, answered⟩
        exact sound.set isCall (manager.makeDir call) _ rfl rfl made extends_makeDir
          (fun _ _ _ _ fresh => fresh) rfl next
    next unbound =>
      have unbound : manager.admissions.lookup key = none := unbound
      rw [unbound] at payload
      have bound : Shared (((manager.makeDir call).insertRow call).bind key
          ⟨payloadDigest, call.id⟩).toStore :=
        inserted.bind unbound callSound.issued ((AList.mem_insert _).mpr (.inl rfl))
      have kept : ∀ binding ∈ manager.bindings,
          binding ∈ manager.bindings ++ [(key, ⟨payloadDigest, call.id⟩)] :=
        fun _ isBound => List.mem_append_left _ isBound
      have fresh : key ∉ manager.activated.map Prod.fst := by
        intro isActivated
        rcases List.mem_map.mp isActivated with ⟨⟨_, job⟩, isPair, rfl⟩
        rcases sound.ofKey _ job isPair with ⟨admission, isBound, -⟩
        cases unbound.symm.trans ((sound.bound _ admission).mp isBound)
      have next : CallSound config (((manager.makeDir call).insertRow call).bind key
          ⟨payloadDigest, call.id⟩).toStore
            (call.enter (.activating (some ⟨payloadDigest, call.id⟩))) := by
        apply callSound.next (((manager.makeDir call).insertRow call).bind key
          ⟨payloadDigest, call.id⟩).toStore _ (fun _ isIssued => isIssued) kept
        refine ⟨absent.2.2, payload, fun key' digest' isKind' => ?_⟩
        cases isKind.symm.trans isKind'
        exact ⟨rfl, unknown key payloadDigest isKind,
          List.mem_append_right _ (List.mem_singleton.mpr rfl), fresh⟩
      exact sound.set isCall (((manager.makeDir call).insertRow call).bind key
        ⟨payloadDigest, call.id⟩) _ rfl rfl bound ⟨extended.issued, kept, extended.dirs,
          extended.rows, extended.jobs⟩ (fun _ _ _ _ fresh => fresh) rfl next
  next unkeyed =>
    refine sound.set isCall ((manager.makeDir call).insertRow call)
      (call.enter (.activating none)) rfl rfl inserted extended
      (fun _ _ _ _ fresh => fresh) rfl (callSound.next _ _ extended.issued extended.bindings
        ⟨absent.2.2, checked unkeyed, ?_⟩)
    exact fun key payloadDigest isKind => absurd isKind (unkeyed key payloadDigest)

theorem Sound.admitJob (sound : Sound config manager) (isCall : manager.calls.lookup id = some call)
    (isPhase : call.phase = .admitting) {read refused made committed : Bool}
    (careful : manager.Careful config (.admitJob id read refused made committed)) :
    Sound config (manager.admitJob id call read refused made committed) := by
  have callSound := sound.calls id call isCall
  have atPhase := callSound.phase
  rw [isPhase] at atPhase
  rcases atPhase with ⟨absent, unknown, -⟩
  have failed := sound.goOn isCall call.fail rfl (callSound.fail absent)
  rw [QueueManager.admitJob]
  split
  · exact failed
  next isRead =>
    rw [Bool.not_eq_true', Bool.not_eq_false] at isRead
    split
    · refine sound.goOn isCall (call.enter (.returning .error)) rfl
        (callSound.enter ⟨fun key payloadDigest isKind => ?_, fun _ => absent,
          fun accepted => accepted.elim⟩)
      exact .inl (unknown key payloadDigest isKind)
    next admitted =>
      rw [Bool.not_eq_true] at admitted
      split
      · exact failed
      next isMade =>
        rw [Bool.not_eq_true', Bool.not_eq_false] at isMade
        rcases careful call isCall isRead admitted isMade with ⟨committed, payload⟩
        split
        · exact sound.commit isCall isPhase payload
        next aborted =>
          have adopts : call.ownsDir = false := by
            by_contra owns
            exact aborted (committed (Bool.not_eq_false _ |>.mp owns))
          have same : manager.makeDir call = manager := by
            rw [QueueManager.makeDir, adopts]
            rfl
          rw [same]
          exact failed

variable {job : JobId}

theorem mem_activation {key : String} :
    (key, job) ∈ call.activation ↔
      job = call.id ∧ ∃ payloadDigest, call.kind = .idempotent key payloadDigest := by
  rw [Call.activation]
  split
  next key' payloadDigest isKind => simp [isKind, and_comm, eq_comm]
  next unkeyed =>
    simp only [List.not_mem_nil, false_iff, not_and, not_exists]
    exact fun _ payloadDigest isKind => unkeyed key payloadDigest isKind

theorem nodup_activation : (call.activation.map Prod.fst).Nodup := by
  rw [Call.activation]
  split
  · exact List.nodup_singleton _
  · exact List.nodup_nil

theorem extends_insertJob :
    Extends manager.toStore (manager.insertJob call).toStore (· = call.id) where
  issued _ isIssued := isIssued
  bindings _ isBound := isBound
  dirs _ _ isDir := isDir
  rows _ _ isRow := isRow
  jobs _ differs isJob := ((AList.mem_insert _).mp isJob).resolve_left differs

theorem Shared.insertJob (shared : Shared manager.toStore) (issued : call.id ∈ manager.issued)
    (keyed : ∀ key payloadDigest, call.kind = .idempotent key payloadDigest →
      (key, ⟨payloadDigest, call.id⟩) ∈ manager.bindings ∧
        key ∉ manager.activated.map Prod.fst) : Shared (manager.insertJob call).toStore where
  issued := extends_insertJob.issued_of shared fun _ same => same ▸ issued
  bound := shared.bound
  once := shared.once
  bindings := shared.bindings
  activated := by
    rw [QueueManager.insertJob, List.map_append, List.nodup_append]
    refine ⟨shared.activated, nodup_activation, fun key isKey other isOther same => ?_⟩
    subst same
    rcases List.mem_map.mp isOther with ⟨⟨_, job⟩, isPair, rfl⟩
    rcases mem_activation.mp isPair with ⟨-, payloadDigest, isKind⟩
    exact (keyed _ payloadDigest isKind).2 isKey
  ofKey key job isActivated := by
    rcases List.mem_append.mp isActivated with isOld | isNew
    · exact shared.ofKey key job isOld
    · rcases mem_activation.mp isNew with ⟨rfl, payloadDigest, isKind⟩
      exact ⟨_, (keyed key payloadDigest isKind).1, rfl⟩

theorem Sound.activate (sound : Sound config manager) (isCall : manager.calls.lookup id = some call)
    {admission : Option QueueAdmission} (isPhase : call.phase = .activating admission) :
    Sound config (manager.activate id call admission) := by
  have callSound := sound.calls id call isCall
  have atPhase := callSound.phase
  rw [isPhase] at atPhase
  rcases atPhase with ⟨-, checked, keyed⟩
  have shared : Shared (manager.insertJob call).toStore :=
    sound.toShared.insertJob callSound.issued fun key payloadDigest isKind =>
      (keyed key payloadDigest isKind).2.2
  have accepted : (Answer.ofAdmission admission).IsAccepted := by
    cases admission <;> trivial
  have answered : Answered (manager.insertJob call).toStore
      (call.enter (.returning (.ofAdmission admission))) (.ofAdmission admission) := by
    intro key payloadDigest isKind
    rcases keyed key payloadDigest isKind with ⟨rfl, unknown, isBound, -⟩
    exact ⟨unknown, isBound⟩
  have next : CallSound config (manager.insertJob call).toStore
      (call.enter (.returning (.ofAdmission admission))) :=
    callSound.next _ _ (fun _ isIssued => isIssued) (fun _ isBound => isBound)
      ⟨answered, fun refused => absurd accepted refused, fun _ => checked⟩
  refine sound.set isCall (manager.insertJob call) _ rfl rfl shared extends_insertJob ?_ rfl next
  intro key admission isBound differs isFresh isActivated
  rcases List.mem_map.mp isActivated with ⟨⟨_, job⟩, isPair, rfl⟩
  rcases List.mem_append.mp isPair with isOld | isNew
  · exact isFresh (List.mem_map.mpr ⟨_, isOld, rfl⟩)
  · rcases mem_activation.mp isNew with ⟨rfl, payloadDigest, isKind⟩
    rcases keyed _ payloadDigest isKind with ⟨-, -, isBound', -⟩
    have same := ((sound.bound _ _).mp isBound).symm.trans ((sound.bound _ _).mp isBound')
    cases same
    exact differs rfl

theorem extends_dropDir (removed : Bool) :
    Extends manager.toStore (manager.dropDir job removed).toStore touched where
  issued _ isIssued := isIssued
  bindings _ isBound := isBound
  dirs _ _ isDir := by
    rw [QueueManager.dropDir] at isDir
    split at isDir
    · exact (List.mem_filter.mp isDir).1
    · exact isDir
  rows _ _ isRow := isRow
  jobs _ _ isJob := isJob

theorem Shared.dropDir (shared : Shared manager.toStore) (job : JobId) (removed : Bool) :
    Shared (manager.dropDir job removed).toStore where
  issued := by
    have extends_ : Extends manager.toStore (manager.dropDir job removed).toStore fun _ => False :=
      extends_dropDir removed
    exact extends_.issued_of shared fun _ none => none.elim
  bound := shared.bound
  once := shared.once
  bindings := shared.bindings
  activated := shared.activated
  ofKey := shared.ofKey

theorem Sound.removeDir (sound : Sound config manager)
    (isCall : manager.calls.lookup id = some call) {admission : QueueAdmission}
    (isPhase : call.phase = .unused admission) :
    Sound config (manager.removeDir id call admission true) := by
  have callSound := sound.calls id call isCall
  have atPhase := callSound.phase
  rw [isPhase] at atPhase
  rcases atPhase with ⟨noRow, noJob, answered⟩
  have next : CallSound config (manager.dropDir call.id true).toStore
      (call.enter (.returning (.existing admission))) := by
    apply callSound.next (manager.dropDir call.id true).toStore _ (fun _ isIssued => isIssued)
      (fun _ isBound => isBound)
    refine ⟨answered, fun _ => ⟨fun isDir => ?_, noRow, noJob⟩, fun accepted => accepted.elim⟩
    have isDir : call.id ∈ manager.dirs.filter (· ≠ call.id) := isDir
    simp at isDir
  exact sound.set isCall (manager.dropDir call.id true) _ rfl rfl
    (sound.toShared.dropDir call.id true) (extends_dropDir true) (fun _ _ _ _ fresh => fresh) rfl
    next

theorem Sound.answer (sound : Sound config manager) (isCall : manager.calls.lookup id = some call)
    {answer : Answer} (isPhase : call.phase = .returning answer) :
    Sound config (manager.answer id call answer) where
  toShared := sound.toShared
  calls other found isFound := sound.calls other found (Registry.lookup_of_lookup_erase isFound)
  apart first second one two isOne isTwo :=
    sound.apart first second one two (Registry.lookup_of_lookup_erase isOne)
      (Registry.lookup_of_lookup_erase isTwo)
  past returned answer' isPast := by
    rcases List.mem_append.mp isPast with isOld | isNew
    · rcases sound.past returned answer' isOld with ⟨past, apart⟩
      exact ⟨past, fun other found isFound =>
        apart other found (Registry.lookup_of_lookup_erase isFound)⟩
    · cases List.mem_singleton.mp isNew
      have callSound := sound.calls id call isCall
      have atPhase := callSound.phase
      rw [isPhase] at atPhase
      refine ⟨⟨callSound.issued, callSound.known, atPhase⟩, fun other found isFound same => ?_⟩
      have isOld := Registry.lookup_of_lookup_erase isFound
      have isOther := sound.apart other id found call isOld isCall same
      subst isOther
      rw [QueueManager.answer, AList.lookup_erase] at isFound
      cases isFound

theorem Shared.begin (shared : Shared manager.toStore) (job : JobId) (kind : Kind) (nzb : NzbJob) :
    Shared (manager.begin id kind job nzb).toStore where
  issued other present := List.mem_cons_of_mem _ (shared.issued other present)
  bound := shared.bound
  once := shared.once
  bindings key admission isBound :=
    ⟨List.mem_cons_of_mem _ (shared.bindings key admission isBound).1,
      (shared.bindings key admission isBound).2⟩
  activated := shared.activated
  ofKey := shared.ofKey

theorem extends_begin {kind : Kind} {nzb : NzbJob} :
    Extends manager.toStore (manager.begin id kind job nzb).toStore fun _ => False where
  issued _ isIssued := List.mem_cons_of_mem _ isIssued
  bindings _ isBound := isBound
  dirs _ _ isDir := isDir
  rows _ _ isRow := isRow
  jobs _ _ isJob := isJob

theorem Sound.begin (sound : Sound config manager) (absent : id ∉ manager.calls)
    (fresh : job ∉ manager.issued) (kind : Kind) (nzb : NzbJob) :
    Sound config (manager.begin id kind job nzb) where
  toShared := sound.toShared.begin job kind nzb
  calls other found isFound := by
    rw [QueueManager.begin] at isFound
    by_cases isOther : other = id
    · subst isOther
      rw [AList.lookup_insert] at isFound
      cases isFound
      refine ⟨List.mem_cons_self, fun key payloadDigest admission isKind isKnown => ?_, ?_⟩
      · dsimp only at isKind isKnown
        rw [isKind] at isKnown
        exact (sound.bound key admission).mpr isKnown
      · by_contra present
        exact fresh (sound.issued job present)
    · rw [AList.lookup_insert_ne isOther] at isFound
      exact (sound.calls other found isFound).extends extends_begin not_false
        fun _ _ _ _ unactivated => unactivated
  apart first second one two isOne isTwo same := by
    have older : ∀ other found, manager.calls.lookup other = some found → found.id ≠ job := by
      rintro other found isFound rfl
      exact fresh (sound.calls other found isFound).issued
    rw [QueueManager.begin] at isOne isTwo
    by_cases isFirst : first = id
    · subst isFirst
      by_cases isSecond : second = first
      · exact isSecond.symm
      · rw [AList.lookup_insert] at isOne
        rw [AList.lookup_insert_ne isSecond] at isTwo
        cases isOne
        exact absurd same.symm (older second two isTwo)
    · rw [AList.lookup_insert_ne isFirst] at isOne
      by_cases isSecond : second = id
      · subst isSecond
        rw [AList.lookup_insert] at isTwo
        cases isTwo
        exact absurd same (older first one isOne)
      · rw [AList.lookup_insert_ne isSecond] at isTwo
        exact sound.apart first second one two isOne isTwo same
  past returned answer isPast := by
    rcases sound.past returned answer isPast with ⟨past, apart⟩
    refine ⟨past.extends extends_begin not_false, fun other found isFound => ?_⟩
    rw [QueueManager.begin] at isFound
    by_cases isOther : other = id
    · subst isOther
      rw [AList.lookup_insert] at isFound
      cases isFound
      rintro rfl
      exact fresh past.issued
    · rw [AList.lookup_insert_ne isOther] at isFound
      exact apart other found isFound

/-- Nothing is done for a call, and the jobs of keys that lose their rows have departed. -/
structure Shrinks (store store' : Store) : Prop where
  extends_ : Extends store store' fun _ => False
  bindings : store'.bindings = store.bindings
  admissions : store'.admissions = store.admissions
  activated : store'.activated = store.activated
  departed : ∀ id ∈ store.departed, id ∈ store'.departed
  rows : ∀ id ∈ store.rows, id ∈ store'.rows ∨ id ∈ store'.departed

theorem Shrinks.shared (shrinks : Shrinks store store') (shared : Shared store) :
    Shared store' where
  issued := shrinks.extends_.issued_of shared fun _ none => none.elim
  bound := by
    rw [shrinks.bindings, shrinks.admissions]
    exact shared.bound
  once := by
    rw [shrinks.bindings]
    exact shared.once
  bindings key admission isBound := by
    rw [shrinks.bindings] at isBound
    rcases shared.bindings key admission isBound with ⟨isIssued, isRow | hasDeparted⟩
    · exact ⟨shrinks.extends_.issued _ isIssued, shrinks.rows _ isRow⟩
    · exact ⟨shrinks.extends_.issued _ isIssued, .inr (shrinks.departed _ hasDeparted)⟩
  activated := by
    rw [shrinks.activated]
    exact shared.activated
  ofKey := by
    rw [shrinks.activated, shrinks.bindings]
    exact shared.ofKey

theorem Sound.shrink (sound : Sound config manager)
    (shrinks : Shrinks manager.toStore manager'.toStore) (calls : manager'.calls = manager.calls)
    (answers : manager'.answers = manager.answers) : Sound config manager' where
  toShared := shrinks.shared sound.toShared
  calls id call isCall := by
    rw [calls] at isCall
    apply (sound.calls id call isCall).extends shrinks.extends_ not_false
    intro key payloadDigest _ _ fresh
    rw [shrinks.activated]
    exact fresh
  apart id other call call' isCall isCall' := by
    rw [calls] at isCall isCall'
    exact sound.apart id other call call' isCall isCall'
  past call answer isPast := by
    rw [answers] at isPast
    rw [calls]
    rcases sound.past call answer isPast with ⟨past, apart⟩
    exact ⟨past.extends shrinks.extends_ not_false, apart⟩

theorem mem_rows_dropRow {other : JobId} {removed : Bool} :
    other ∈ (manager.dropRow job removed).rows ↔
      other ∈ manager.rows ∧ (removed = true → other ≠ job) := by
  rw [QueueManager.dropRow]
  split
  next isRemoved => simp [isRemoved, AList.mem_erase, and_comm]
  next isKept => simp [isKept]

theorem mem_departed_recordHistory {other : JobId} {inserted : Bool} :
    other ∈ (manager.recordHistory job inserted).departed ↔
      inserted = true ∧ other = job ∨ other ∈ manager.departed := by
  rw [QueueManager.recordHistory]
  split
  next isInserted => simp [isInserted]
  next isLost => simp [isLost]

theorem mem_dirs_dropDir {other : JobId} {removed : Bool}
    (isDir : other ∈ (manager.dropDir job removed).dirs) : other ∈ manager.dirs := by
  rw [QueueManager.dropDir] at isDir
  split at isDir
  · exact (List.mem_filter.mp isDir).1
  · exact isDir

theorem extends_drop (job : JobId) (inserted removed dirRemoved : Bool) :
    Extends manager.toStore (((manager.recordHistory job inserted).dropRow job removed).dropDir job
      dirRemoved).toStore fun _ => False where
  issued _ isIssued := isIssued
  bindings _ isBound := isBound
  dirs _ _ isDir := mem_dirs_dropDir isDir
  rows _ _ isRow := (mem_rows_dropRow.mp isRow).1
  jobs _ _ isJob := isJob

theorem Sound.finish (sound : Sound config manager) {inserted removed : Bool}
    (careful : removed = true → job ∈ manager.history ∨ inserted = true) (dirRemoved : Bool) :
    Sound config (manager.finish job inserted removed dirRemoved) := by
  refine sound.shrink ⟨extends_drop job _ removed _, rfl, rfl, rfl,
    fun other hasDeparted => ?_, fun other isRow => ?_⟩ rfl rfl
  · exact mem_departed_recordHistory.mpr (.inr hasDeparted)
  · by_cases stays : removed = true → other ≠ job
    · exact .inl (mem_rows_dropRow.mpr ⟨isRow, stays⟩)
    · push Not at stays
      refine .inr (mem_departed_recordHistory.mpr (.inl ⟨?_, stays.2⟩))
      rw [Bool.or_eq_true, decide_eq_true_eq]
      exact careful stays.1

theorem shrinks_leave (job : JobId) : Shrinks manager.toStore (manager.leave job).toStore where
  extends_ := ⟨fun _ isIssued => isIssued, fun _ isBound => isBound, fun _ _ isDir => isDir,
    fun _ _ isRow => isRow, fun _ _ isJob => ((AList.mem_erase).mp isJob).2⟩
  bindings := rfl
  admissions := rfl
  activated := rfl
  departed _ hasDeparted := hasDeparted
  rows _ isRow := .inl isRow

section

variable (sound : Sound config manager)

include sound

theorem Sound.leave (job : JobId) : Sound config (manager.leave job) :=
  sound.shrink (shrinks_leave job) rfl rfl

theorem Sound.removeJob (job : JobId) (read inserted removed dirRemoved : Bool) :
    Sound config (manager.removeJob job read inserted removed dirRemoved) := by
  have gone : Extends manager.toStore (manager.leave job).toStore fun _ => False :=
    (shrinks_leave job).extends_
  have ended := gone.trans (extends_drop job inserted removed dirRemoved)
  rw [QueueManager.removeJob]
  split
  · split
    next isRemoved =>
      refine sound.shrink ⟨⟨ended.issued, ended.bindings, ended.dirs, ended.rows, ended.jobs⟩,
        rfl, rfl, rfl, fun other hasDeparted => ?_, fun other isRow => ?_⟩ rfl rfl
      · exact List.mem_cons_of_mem _ (mem_departed_recordHistory.mpr (.inr hasDeparted))
      · by_cases same : other = job
        · subst same
          exact .inr List.mem_cons_self
        · exact .inl (mem_rows_dropRow.mpr ⟨isRow, fun _ => same⟩)
    next isKept =>
      refine sound.shrink ⟨⟨ended.issued, ended.bindings, ended.dirs, ended.rows, ended.jobs⟩,
        rfl, rfl, rfl, fun other hasDeparted => ?_, fun other isRow => ?_⟩ rfl rfl
      · exact mem_departed_recordHistory.mpr (.inr hasDeparted)
      · exact .inl (mem_rows_dropRow.mpr ⟨isRow, fun isRemoved => absurd isRemoved isKept⟩)
  · exact sound.leave job

theorem Sound.forget (ids : List JobId) : Sound config (manager.forget ids) :=
  sound.shrink ⟨⟨fun _ isIssued => isIssued, fun _ isBound => isBound, fun _ _ isDir => isDir,
    fun _ _ isRow => isRow, fun _ _ isJob => isJob⟩, rfl, rfl, rfl,
    fun _ hasDeparted => hasDeparted, fun _ isRow => .inl isRow⟩ rfl rfl

theorem Sound.restoreFromDb (listed : Bool) (swept : List JobId) :
    Sound config (manager.restoreFromDb listed swept) := by
  have absent : ∀ job, manager.Absent job → (manager.restoreFromDb listed swept).Absent job := by
    rintro job ⟨noDir, noRow, -⟩
    refine ⟨fun isDir => noDir (List.mem_filter.mp isDir).1, noRow, fun isJob => ?_⟩
    rw [QueueManager.restoreFromDb] at isJob
    dsimp only at isJob
    split at isJob
    · exact noRow isJob
    · exact AList.notMem_empty job isJob
  exact {
    issued := fun job present => sound.issued job (mt (absent job) present)
    bound := sound.bound
    once := sound.once
    bindings := sound.bindings
    activated := sound.activated
    ofKey := sound.ofKey
    calls := fun _ _ isCall => by cases isCall
    apart := fun _ _ _ _ isCall => by cases isCall
    past := by
      intro call answer isPast
      rcases sound.past call answer isPast with ⟨⟨isIssued, known, answered, left, checked⟩, -⟩
      exact ⟨⟨isIssued, known, answered, fun refused => absent call.id (left refused), checked⟩,
        fun _ _ isCall => by cases isCall⟩ }

theorem Sound.keep {label : Label} (careful : manager.Careful config label)
    (move : QueueManager.Step config manager label manager') : Sound config manager' := by
  rw [QueueManager.Step] at move
  cases label with
  | begin call kind job nzb =>
      rw [QueueManager.next] at move
      split at move
      · cases move
      next fresh =>
        rw [not_or] at fresh
        cases move
        exact sound.begin fresh.1 fresh.2 kind nzb
  | enter id read =>
      rcases Option.bind_eq_some_iff.mp move with ⟨call, isCall, move⟩
      split at move
      next isPhase =>
        cases move
        exact sound.enter isCall isPhase read
      · cases move
  | admitJob id read refused made committed =>
      rcases Option.bind_eq_some_iff.mp move with ⟨call, isCall, move⟩
      split at move
      next isPhase =>
        cases move
        exact sound.admitJob isCall isPhase careful
      · cases move
  | activate id =>
      rcases Option.bind_eq_some_iff.mp move with ⟨call, isCall, move⟩
      split at move
      next admission isPhase =>
        cases move
        exact sound.activate isCall isPhase
      · cases move
  | removeDir id removed =>
      rcases Option.bind_eq_some_iff.mp move with ⟨call, isCall, move⟩
      split at move
      next admission isPhase =>
        cases move
        rw [show removed = true from careful]
        exact sound.removeDir isCall isPhase
      · cases move
  | «return» id =>
      rcases Option.bind_eq_some_iff.mp move with ⟨call, isCall, move⟩
      split at move
      next answer isPhase =>
        cases move
        exact sound.answer isCall isPhase
      · cases move
  | finish id inserted removed dirRemoved =>
      rw [QueueManager.next] at move
      split at move
      · cases move
        exact sound.finish careful dirRemoved
      · cases move
  | leave id =>
      cases move
      exact sound.leave id
  | removeJob id read inserted removed dirRemoved =>
      rw [QueueManager.next] at move
      split at move
      · cases move
        exact sound.removeJob id read inserted removed dirRemoved
      · cases move
  | forget ids =>
      cases move
      exact sound.forget ids
  | restart listed swept =>
      cases move
      exact sound.restoreFromDb listed swept

end

theorem sound_init : Sound config QueueManager.init where
  issued id present := by
    refine absurd ⟨List.not_mem_nil, ?_, ?_⟩ present
    · exact AList.notMem_empty id
    · exact AList.notMem_empty id
  bound _ _ := iff_of_false List.not_mem_nil (by rintro ⟨⟩)
  once := List.nodup_nil
  bindings _ _ isBound := by cases isBound
  activated := List.nodup_nil
  ofKey _ _ isActivated := by cases isActivated
  calls _ _ isCall := by cases isCall
  apart _ _ _ _ isCall := by cases isCall
  past _ _ isPast := by cases isPast

theorem Past.eq_answerBound {answer : Answer} (past : Past config store call answer)
    (shared : Shared store) {key payloadDigest : String} {admission : QueueAdmission}
    (isKind : call.kind = .idempotent key payloadDigest) (isKnown : call.known = some admission) :
    answer = QueueManager.answerBound payloadDigest admission ∨
      call.failed = true ∧ answer = .error := by
  have isBound := past.known key payloadDigest admission isKind isKnown
  have unique : ∀ other, (key, other) ∈ store.bindings → other = admission := by
    intro other isOther
    have found := (shared.bound key other).mp isOther
    rw [(shared.bound key admission).mp isBound] at found
    exact (Option.some_inj.mp found).symm
  have answered := past.returned.answered key payloadDigest isKind
  rw [QueueManager.answerBound]
  cases answer with
  | inserted other => cases isKnown.symm.trans answered.1
  | existing other =>
      rcases answered with ⟨isOther, same⟩
      cases unique other isOther
      exact .inl (if_neg (not_not.mpr same)).symm
  | added => exact answered.elim
  | conflict =>
      rcases answered with ⟨other, isOther, differs⟩
      cases unique other isOther
      exact .inl (if_pos differs).symm
  | error =>
      rcases answered with unknown | failed
      · cases isKnown.symm.trans unknown
      · exact .inr ⟨failed, rfl⟩

theorem Sound.admitsOnce (sound : Sound config manager) : manager.AdmitsOnce config where
  bound := sound.bound
  once := sound.once
  activated := sound.activated
  ofKey := sound.ofKey
  answered call answer isPast _ _ _ isKind isKnown :=
    (sound.past call answer isPast).1.eq_answerBound sound.toShared isKind isKnown
  queued swept next move key admission isBound := by
    cases move
    exact (sound.bindings key admission isBound).2
  left call answer isPast := (sound.past call answer isPast).1.returned.left
  checked call answer isPast := (sound.past call answer isPast).1.returned.checked

namespace QueueManager

theorem admits_once {labels : List Label} (run : Run (Step config) init labels manager)
    (careful : Run.Always (Step config) init (fun _ manager label => manager.Careful config label)
      labels) : manager.AdmitsOnce config := by
  have sound := run.invariant_of_steps (fun _ manager => Sound config manager) careful
    sound_init fun _ _ _ _ _ sound careful move => sound.keep careful move
  exact sound.admitsOnce

def isCareful (config : Config) (manager : QueueManager) : Label → Bool
  | .admitJob id read refused made committed =>
      (manager.calls.lookup id).all fun call =>
        !read || manager.isRefused call refused || !made ||
          (!call.ownsDir || committed) &&
            match call.kind with
            | .idempotent key payloadDigest =>
                match manager.admissions.lookup key with
                | some admission => admission.payloadDigest = payloadDigest
                | none => config.admits call.job
            | _ => true
  | .removeDir _ removed => removed
  | .finish id inserted removed _ => !removed || decide (id ∈ manager.history) || inserted
  | _ => true

theorem careful_of_isCareful {label : Label} (isCareful : manager.isCareful config label = true) :
    manager.Careful config label := by
  cases label with
  | admitJob id read refused made committed =>
      intro call isCall isRead admitted isMade
      simp only [QueueManager.isCareful, isCall, Option.all_some, isRead, admitted, isMade,
        Bool.not_true, Bool.false_or, Bool.and_eq_true, Bool.or_eq_true,
        Bool.not_eq_true'] at isCareful
      refine ⟨fun owns => ?_, fun key payloadDigest isKind => ?_⟩
      · rcases isCareful.1 with adopts | isCommitted
        · cases owns.symm.trans adopts
        · exact isCommitted
      · have payload := isCareful.2
        rw [isKind] at payload
        dsimp only at payload
        split at payload
        · exact of_decide_eq_true payload
        · exact payload
  | removeDir _ removed => exact isCareful
  | finish id inserted removed _ =>
      intro isRemoved
      simpa [QueueManager.isCareful, isRemoved] using isCareful
  | _ => trivial

def carefulNext (config : Config) (manager : QueueManager) (label : Label) : Option QueueManager :=
  if manager.isCareful config label then manager.next config label else none

theorem of_carefulNext {label : Label} (moved : manager.carefulNext config label = some manager') :
    Step config manager label manager' ∧ manager.Careful config label := by
  rw [carefulNext] at moved
  split at moved
  next isCareful => exact ⟨moved, careful_of_isCareful isCareful⟩
  · cases moved

theorem exists_run {labels : List Label} {goal : QueueManager → Prop}
    (executed : ∃ manager ∈ execute (next config) init labels, goal manager) :
    ∃ manager, Run (Step config) init labels manager ∧ goal manager := by
  rcases executed with ⟨manager, isManager, isGoal⟩
  exact ⟨manager, Run.of_execute (fun _ _ _ moved => moved) Run.start isManager, isGoal⟩

def complete : Config := ⟨["complete"], []⟩

def show_ : NzbJob := ⟨"show", "tv", ["complete", "tv", "show"]⟩

def first : JobId := "11111111-1111-4111-8111-111111111111"

def second : JobId := "22222222-2222-4222-8222-222222222222"

/-- The second call with the key finds it unbound at first. -/
def racing (payloadDigest : String) : List Label :=
  [.begin 1 (.idempotent "key" "digest") first show_,
    .begin 2 (.idempotent "key" payloadDigest) second show_, .enter 1 true, .enter 2 true,
    .admitJob 1 true false true true, .activate 1, .return 1, .admitJob 2 true false true true]

/-- With the same payload the second call removes its directory. -/
theorem admits_once_racing : ∃ manager,
    Run (Step complete) init (racing "digest" ++ [.removeDir 2 true, .return 2]) manager ∧
      manager.AdmitsOnce complete := by
  have executed : (execute (carefulNext complete) init
      (racing "digest" ++ [.removeDir 2 true, .return 2])).isSome := by decide
  rcases Option.isSome_iff_exists.mp executed with ⟨manager, isManager⟩
  have moves : ∀ manager label manager', carefulNext complete manager label = some manager' →
      Step complete manager label manager' ∧ manager.Careful complete label :=
    fun _ _ _ moved => of_carefulNext moved
  rcases Run.always_of_execute (fun _ _ _ _ one other => Option.some_inj.mp (one.symm.trans other))
    moves Run.start Run.Always.nil isManager with ⟨run, careful⟩
  exact ⟨manager, run, admits_once run careful⟩

/-- With another payload it leaves its directory behind, and nothing has failed. A job with a key is
accepted with a category that is none. And a job whose history row could not be written is lost with
the next restart. -/
theorem not_admitsOnce :
    (∃ manager, Run (Step complete) init (racing "other" ++ [.return 2]) manager ∧
      ∃ call, (call, .conflict) ∈ manager.answers ∧ call.failed = false ∧
        ¬manager.Absent call.id) ∧
    (∃ labels manager, Run (Step complete) init labels manager ∧
      ∃ call admission, (call, .inserted admission) ∈ manager.answers ∧ call.failed = false ∧
        complete.admits call.job = false) ∧
    ∃ labels manager, Run (Step complete) init labels manager ∧
      ∃ next, Step complete manager (.restart true []) next ∧
        ∃ key admission, (key, admission) ∈ manager.bindings ∧ admission.jobId ∉ next.jobs ∧
          admission.jobId ∉ manager.departed := by
  refine ⟨?_, ⟨[.begin 1 (.idempotent "key" "digest") first { show_ with category := ".." },
    .enter 1 true, .admitJob 1 true false true true, .activate 1, .return 1], ?_⟩,
      ⟨racing "digest" ++ [.removeDir 2 true, .return 2, .finish first false true false,
        .leave first], ?_⟩⟩
  · have stays : ∃ manager ∈ execute (next complete) init (racing "other" ++ [.return 2]),
        ∃ pair ∈ manager.answers, pair.2 = .conflict ∧ pair.1.failed = false ∧
          pair.1.id ∈ manager.dirs := by decide
    rcases exists_run stays with ⟨manager, run, ⟨call, answer⟩, isPast, rfl, unfailed, isDir⟩
    exact ⟨manager, run, call, isPast, unfailed, fun absent => absent.1 isDir⟩
  · have accepted : ∃ manager ∈ execute (next complete) init
        [.begin 1 (.idempotent "key" "digest") first { show_ with category := ".." },
          .enter 1 true, .admitJob 1 true false true true, .activate 1, .return 1],
        ∃ pair ∈ manager.answers, pair.2 = .inserted ⟨"digest", first⟩ ∧ pair.1.failed = false ∧
          complete.admits pair.1.job = false := by decide
    rcases exists_run accepted with ⟨manager, run, ⟨call, answer⟩, isPast, rfl, unfailed, outside⟩
    exact ⟨manager, run, call, _, isPast, unfailed, outside⟩
  · have lost : ∃ manager ∈ execute (next complete) init (racing "digest" ++
        [.removeDir 2 true, .return 2, .finish first false true false, .leave first]),
        ("key", ⟨"digest", first⟩) ∈ manager.bindings ∧
          first ∉ (manager.restoreFromDb true []).jobs ∧ first ∉ manager.departed := by
      decide
    rcases exists_run lost with ⟨manager, run, isBound, absent, undeparted⟩
    exact ⟨manager, run, _, rfl, _, _, isBound, absent, undeparted⟩

end QueueManager

end Rustnzb.Web.Admission
