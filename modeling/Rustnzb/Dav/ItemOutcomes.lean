import Mathlib.Tactic
import Rustnzb.Dav.QueueLoop

/-!
# Every media-library item ends exactly once

`finish_item` deletes the queue row whatever became of the history row, and the loop learns the
id of a task only from its result. `Orderly` rules out the steps where that goes wrong.
-/

namespace Rustnzb.Dav

open Lib

namespace DavQueue

def InQueue (state : DavQueue) (id : Uuid) : Prop := ∃ row ∈ state.queue, row.id = id

instance (state : DavQueue) (id : Uuid) : Decidable (state.InQueue id) :=
  inferInstanceAs (Decidable (∃ row ∈ state.queue, row.id = id))

def rows (state : DavQueue) (id : Uuid) : ℕ :=
  state.history.countP fun row => decide (row.nzbBlobId = some id)

/-- A task has written the item's history row and not yet deleted its queue row. -/
def Recorded (state : DavQueue) (id : Uuid) : Prop :=
  ∃ task ∈ state.active, task.item.id = id ∧ task.stage = .deleting true

/-- The insert and the delete of `finish_item` both succeed or both fail, the process does not
stop between the two, and `process` does not panic. -/
def Orderly (state : DavQueue) : Label → Prop
  | .process _ result => result ≠ .panics
  | .deleteQueueItem index ok =>
      ∀ task ∈ state.active[index]?, task.stage ≠ .deleting !ok
  | .restart => ∀ task ∈ state.active, task.stage ≠ .deleting true
  | _ => True

instance (state : DavQueue) (label : Label) : Decidable (state.Orderly label) := by
  cases label <;> unfold Orderly <;> infer_instance

/-- At most `MAX_CONCURRENT` tasks, on different items, all of whose ids are excluded from the
poll. -/
structure Confined (state : DavQueue) : Prop where
  bounded : state.active.length ≤ maxConcurrent
  distinct : (state.active.map fun task => task.item.id).Nodup
  excluded : ∀ task ∈ state.active, task.item.id ∈ state.activeIds

/-- Every enqueued item is in the queue or in the history, there at most once, and the ids the
loop leaves out are those of its tasks, so that it finds every other item that is due. -/
structure EndsOnce (state : DavQueue) : Prop where
  kept : ∀ id ∈ state.enqueued, state.InQueue id ∨ 0 < state.rows id
  once : ∀ id, state.rows id ≤ 1
  active : ∀ id, id ∈ state.activeIds ↔ ∃ task ∈ state.active, task.item.id = id
  found : ∀ row ∈ state.queue, state.isPaused row = false →
    (∀ task ∈ state.active, task.item.id ≠ row.id) → state.active.length < maxConcurrent →
      ∃ next, Step state (.poll (some row.id)) next

section Confinement

variable {state next : DavQueue} {index : ℕ} {item : QueueItem} {stage old : Stage}

theorem ids_setStage (isTask : state.active[index]? = some ⟨item, old⟩) :
    ((state.setStage index item stage).active.map fun task => task.item.id) =
      state.active.map fun task => task.item.id := by
  rcases List.getElem?_eq_some_iff.mp isTask with ⟨bound, isItem⟩
  have boundIds : index < (state.active.map fun task => task.item.id).length := by simpa
  have same : item.id = (state.active.map fun task => task.item.id)[index] := by
    simp [isItem]
  rw [setStage, List.map_set, same, List.set_getElem_self]

theorem Confined.setStage (confined : state.Confined)
    (isTask : state.active[index]? = some ⟨item, old⟩) :
    (state.setStage index item stage).Confined where
  bounded := by
    rw [DavQueue.setStage, List.length_set]
    exact confined.bounded
  distinct := by
    rw [ids_setStage isTask]
    exact confined.distinct
  excluded := by
    intro task taskMem
    rcases List.mem_or_eq_of_mem_set taskMem with before | rfl
    · exact confined.excluded task before
    · exact confined.excluded ⟨item, old⟩ (List.mem_of_getElem? isTask)

theorem Confined.of_same (confined : state.Confined) (active : next.active = state.active)
    (activeIds : next.activeIds = state.activeIds) : next.Confined where
  bounded := by rw [active]; exact confined.bounded
  distinct := by rw [active]; exact confined.distinct
  excluded := by rw [active, activeIds]; exact confined.excluded

theorem ne_of_mem_eraseIdx {α : Type} (key : α → Uuid) {entries : List α} {removed entry : α}
    (distinct : (entries.map key).Nodup) (isAt : entries[index]? = some removed)
    (entryMem : entry ∈ entries.eraseIdx index) : key entry ≠ key removed := by
  rcases List.getElem?_eq_some_iff.mp isAt with ⟨bound, isRemoved⟩
  have perm := (List.getElem_cons_eraseIdx_perm bound).map key
  rw [← perm.nodup_iff, List.map_cons, List.nodup_cons, isRemoved] at distinct
  intro same
  apply distinct.1
  rw [List.mem_map]
  exact ⟨entry, entryMem, same⟩

theorem Confined.poll {found : Option Uuid} (confined : state.Confined)
    (move : state.poll found = some next) : next.Confined := by
  revert move
  fun_cases DavQueue.poll state found <;> intro move <;> cases move
  case case1 => exact confined
  case case3 id room row isRow =>
    have holds := List.find?_some isRow
    simp only [isNext, Bool.and_eq_true, decide_eq_true_eq, Bool.not_eq_true'] at holds
    refine ⟨?_, ?_, ?_⟩
    · rw [List.length_append, List.length_singleton]
      exact room
    · rw [List.map_append, List.map_singleton, List.nodup_append_comm, List.singleton_append,
        List.nodup_cons]
      refine ⟨?_, confined.distinct⟩
      rw [List.mem_map]
      rintro ⟨task, taskMem, same⟩
      exact holds.2.2 (same ▸ confined.excluded task taskMem)
    · intro task taskMem
      rcases List.mem_append.mp taskMem with before | new
      · exact Finset.mem_insert_of_mem (confined.excluded task before)
      · rw [List.mem_singleton.mp new]
        exact Finset.mem_insert_self _ _

theorem Confined.join (confined : state.Confined) (move : state.join index = some next) :
    next.Confined := by
  have bounded : (state.active.eraseIdx index).length ≤ maxConcurrent :=
    (List.eraseIdx_sublist _ _).length_le.trans confined.bounded
  have distinct : ((state.active.eraseIdx index).map fun task => task.item.id).Nodup :=
    confined.distinct.sublist ((List.eraseIdx_sublist _ _).map _)
  revert move
  fun_cases DavQueue.join state index <;> intro move <;> cases move
  case case1 row isTask =>
    refine ⟨bounded, distinct, ?_⟩
    intro task taskMem
    exact Finset.mem_erase.mpr
      ⟨ne_of_mem_eraseIdx (fun task : Task => task.item.id) confined.distinct isTask
      taskMem,
      confined.excluded task (List.mem_of_mem_eraseIdx taskMem)⟩
  case case2 row isTask =>
    refine ⟨bounded, distinct, ?_⟩
    intro task taskMem
    exact confined.excluded task (List.mem_of_mem_eraseIdx taskMem)

theorem Confined.step {label : Label} (confined : state.Confined) (move : Step state label next) :
    next.Confined := by
  cases label with
  | elapse seconds => cases move; exact confined.of_same rfl rfl
  | putNzbBlob id fileName jobName nzbData ok =>
      change DavQueue.putNzbBlob state id fileName jobName nzbData ok = some next at move
      revert move
      fun_cases DavQueue.putNzbBlob state id fileName jobName nzbData ok <;> intro move <;>
        cases move <;> exact confined.of_same rfl rfl
  | insertQueueItem index ok =>
      change DavQueue.insertQueueItem state index ok = some next at move
      revert move
      fun_cases DavQueue.insertQueueItem state index ok <;> intro move <;> cases move <;>
        exact confined.of_same rfl rfl
  | poll found => exact confined.poll move
  | join index => exact confined.join move
  | openDb index ok =>
      change DavQueue.openDb state index ok = some next at move
      revert move
      fun_cases DavQueue.openDb state index ok <;> intro move <;> cases move
      exact confined.setStage ‹_›
  | getNzbBlob index error =>
      change DavQueue.getNzbBlob state index error = some next at move
      revert move
      fun_cases DavQueue.getNzbBlob state index error <;> intro move <;> cases move <;>
        exact confined.setStage ‹_›
  | process index result =>
      change DavQueue.process state index result = some next at move
      revert move
      fun_cases DavQueue.process state index result <;> intro move <;> cases move <;>
        exact confined.setStage ‹_›
  | insertHistoryItem index ok =>
      change DavQueue.insertHistoryItem state index ok = some next at move
      revert move
      fun_cases DavQueue.insertHistoryItem state index ok <;> intro move <;> cases move
      · exact (confined.setStage ‹_›).of_same rfl rfl
      · exact confined.setStage ‹_›
  | deleteQueueItem index ok =>
      change DavQueue.deleteQueueItem state index ok = some next at move
      revert move
      fun_cases DavQueue.deleteQueueItem state index ok <;> intro move <;> cases move
      · exact (confined.setStage ‹_›).of_same rfl rfl
      · exact confined.setStage ‹_›
  | updatePauseUntil index ok =>
      change DavQueue.updatePauseUntil state index ok = some next at move
      revert move
      fun_cases DavQueue.updatePauseUntil state index ok <;> intro move <;> cases move
      · exact (confined.setStage ‹_›).of_same rfl rfl
      · exact confined.setStage ‹_›
  | restart =>
      cases move
      exact ⟨by simp, by simp, by simp⟩

end Confinement

def TaskSound (state : DavQueue) (task : Task) : Prop :=
  match task.stage with
  | .deleting true => state.rows task.item.id = 1
  | .returned => True
  | .panicked => False
  | _ => state.InQueue task.item.id ∧ state.rows task.item.id = 0

theorem TaskSound.mono {state next : DavQueue} {task : Task} (taskSound : state.TaskSound task)
    (queued : state.InQueue task.item.id → next.InQueue task.item.id)
    (rows : next.rows task.item.id = state.rows task.item.id) : next.TaskSound task := by
  unfold TaskSound at taskSound ⊢
  rw [rows]
  split at taskSound
  · exact taskSound
  · trivial
  · exact taskSound.elim
  · exact taskSound.imp queued id

/-- The tables agree with what each task has done. -/
structure Sound (state : DavQueue) : Prop where
  confined : state.Confined
  active : ∀ id ∈ state.activeIds, ∃ task ∈ state.active, task.item.id = id
  pending : ∀ item ∈ state.pending, item.id ∈ state.drawn ∧ item.id ∉ state.enqueued
  unrepeated : (state.pending.map QueueItem.id).Nodup
  drawn : ∀ id ∈ state.enqueued, id ∈ state.drawn
  queued : ∀ row ∈ state.queue, row.id ∈ state.enqueued
  recorded : ∀ id, 0 < state.rows id → id ∈ state.enqueued
  balanced : ∀ id ∈ state.enqueued, (state.InQueue id ∧ state.rows id = 0) ∨
    (state.rows id = 1 ∧ (state.InQueue id → state.Recorded id))
  tasks : ∀ task ∈ state.active, state.TaskSound task

section Soundness

variable {state next : DavQueue} {index : ℕ} {item : QueueItem} {stage old new : Stage}

theorem sound_start : start.Sound where
  confined := ⟨by simp [start], by simp [start], by simp [start]⟩
  active := by simp [start]
  pending := by simp [start]
  unrepeated := by simp [start]
  drawn := by simp [start]
  queued := by simp [start]
  recorded := by simp [start, rows]
  balanced := by simp [start]
  tasks := by simp [start]

theorem mem_set_of_ne {task : Task} (taskMem : task ∈ state.active)
    (isTask : state.active[index]? = some ⟨item, old⟩) (differs : task ≠ ⟨item, old⟩)
    (other : Task) :
    task ∈ state.active.set index other := by
  rcases List.getElem?_of_mem taskMem with ⟨position, isAt⟩
  apply List.mem_of_getElem? (i := position)
  rw [List.getElem?_set_ne, isAt]
  rintro rfl
  rw [isAt, Option.some.injEq] at isTask
  exact differs isTask

theorem mem_setStage (isTask : state.active[index]? = some ⟨item, old⟩) :
    ⟨item, new⟩ ∈ (state.setStage index item new).active :=
  List.mem_set (List.getElem?_eq_some_iff.mp isTask).1 _

theorem mem_setStage_cases (confined : state.Confined)
    (isTask : state.active[index]? = some ⟨item, old⟩) {task : Task}
    (taskMem : task ∈ (state.setStage index item new).active) :
    task = ⟨item, new⟩ ∨ (task ∈ state.active ∧ task.item.id ≠ item.id) := by
  by_cases same : task = ⟨item, new⟩
  · exact .inl same
  · refine .inr ⟨(List.mem_or_eq_of_mem_set taskMem).resolve_right same, fun sameId => ?_⟩
    have changed : (state.setStage index item new).Confined := confined.setStage isTask
    exact same (List.inj_on_of_nodup_map changed.distinct taskMem (mem_setStage isTask) sameId)

theorem exists_setStage (isTask : state.active[index]? = some ⟨item, old⟩) {id : Uuid}
    (has : ∃ task ∈ state.active, task.item.id = id) :
    ∃ task ∈ (state.setStage index item new).active, task.item.id = id := by
  rcases has with ⟨task, taskMem, isId⟩
  by_cases same : task = ⟨item, old⟩
  · exact ⟨⟨item, new⟩, mem_setStage isTask, by rw [← isId, same]⟩
  · exact ⟨task, mem_set_of_ne taskMem isTask same _, isId⟩

theorem recorded_setStage {id : Uuid} (recorded : state.Recorded id)
    (isTask : state.active[index]? = some ⟨item, old⟩)
    (other : id = item.id → old ≠ .deleting true) :
    (state.setStage index item new).Recorded id := by
  rcases recorded with ⟨task, taskMem, isId, isRecorded⟩
  refine ⟨task, mem_set_of_ne taskMem isTask ?_ _, isId, isRecorded⟩
  rintro rfl
  exact other isId.symm isRecorded

theorem Sound.setStage (sound : state.Sound)
    (isTask : state.active[index]? = some ⟨item, old⟩) (unrecorded : old ≠ .deleting true)
    (keeps : state.TaskSound ⟨item, old⟩ → state.TaskSound ⟨item, new⟩) :
    (state.setStage index item new).Sound where
  confined := sound.confined.setStage isTask
  active id idMem := exists_setStage isTask (sound.active id idMem)
  pending := sound.pending
  unrepeated := sound.unrepeated
  drawn := sound.drawn
  queued := sound.queued
  recorded := sound.recorded
  balanced := by
    intro id idMem
    rcases sound.balanced id idMem with waiting | ⟨once, queued⟩
    · exact .inl waiting
    · exact .inr ⟨once, fun isQueued =>
        recorded_setStage (queued isQueued) isTask fun _ => unrecorded⟩
  tasks := by
    intro task taskMem
    rcases List.mem_or_eq_of_mem_set taskMem with before | rfl
    · exact sound.tasks task before
    · exact keeps (sound.tasks _ (List.mem_of_getElem? isTask))

theorem rows_append (history : List HistoryItem) (row : HistoryItem) (id : Uuid) :
    rows { state with history := history ++ [row] } id =
      rows { state with history := history } id + if row.nzbBlobId = some id then 1 else 0 := by
  simp [rows, List.countP_append, List.countP_singleton]

section

variable (sound : state.Sound)

include sound

theorem Sound.record {status : DownloadStatus} {failMessage : Option String}
    {downloadDirId : Option Uuid}
    (isTask : state.active[index]? = some ⟨item, .recording status failMessage downloadDirId⟩) :
    ({ state.setStage index item (.deleting true) with
      history :=
        state.history ++ [state.historyOf item status failMessage downloadDirId] }).Sound := by
  have before : state.InQueue item.id ∧ state.rows item.id = 0 :=
    sound.tasks _ (List.mem_of_getElem? isTask)
  have rows_self : rows { state.setStage index item (.deleting true) with
      history := state.history ++ [state.historyOf item status failMessage downloadDirId] }
        item.id = 1 := by
    rw [rows_append, historyOf, if_pos rfl]
    exact congrArg (· + 1) before.2
  have rows_ne : ∀ id ≠ item.id, rows { state.setStage index item (.deleting true) with
      history := state.history ++ [state.historyOf item status failMessage downloadDirId] } id =
        state.rows id := by
    intro id differs
    rw [rows_append, historyOf, if_neg (by simpa using Ne.symm differs)]
    rfl
  have enqueued : item.id ∈ state.enqueued := by
    rcases before.1 with ⟨row, rowMem, isRow⟩
    exact isRow ▸ sound.queued row rowMem
  refine ⟨(sound.confined.setStage isTask).of_same rfl rfl, ?_, sound.pending, sound.unrepeated,
    sound.drawn, sound.queued, ?_, ?_, ?_⟩
  · intro id idMem
    exact exists_setStage isTask (sound.active id idMem)
  · intro id positive
    by_cases same : id = item.id
    · exact same ▸ enqueued
    · rw [rows_ne id same] at positive
      exact sound.recorded id positive
  · intro id idMem
    by_cases same : id = item.id
    · subst same
      exact .inr ⟨rows_self, fun _ => ⟨_, mem_setStage isTask, rfl, rfl⟩⟩
    · rw [rows_ne id same]
      rcases sound.balanced id idMem with waiting | ⟨once, queued⟩
      · exact .inl waiting
      · exact .inr ⟨once, fun isQueued =>
          recorded_setStage (queued isQueued) isTask fun isItem => absurd isItem same⟩
  · intro task taskMem
    rcases mem_setStage_cases sound.confined isTask taskMem with rfl | ⟨otherMem, differs⟩
    · exact rows_self
    · exact (sound.tasks task otherMem).mono id (rows_ne _ differs)

theorem Sound.remove (isTask : state.active[index]? = some ⟨item, .deleting true⟩) :
    ({ state.setStage index item .returned with
      queue := state.queue.filter fun row => decide (row.id ≠ item.id) }).Sound := by
  have written : state.rows item.id = 1 := sound.tasks _ (List.mem_of_getElem? isTask)
  have queue_ne : ∀ id ≠ item.id,
      (InQueue { state.setStage index item .returned with
        queue := state.queue.filter fun row => decide (row.id ≠ item.id) } id ↔
          state.InQueue id) := by
    intro id differs
    simp only [InQueue, List.mem_filter, decide_eq_true_eq]
    constructor
    · rintro ⟨row, ⟨rowMem, -⟩, isRow⟩
      exact ⟨row, rowMem, isRow⟩
    · rintro ⟨row, rowMem, isRow⟩
      exact ⟨row, ⟨rowMem, isRow ▸ differs⟩, isRow⟩
  refine ⟨(sound.confined.setStage isTask).of_same rfl rfl, ?_, sound.pending, sound.unrepeated,
    sound.drawn, ?_, sound.recorded, ?_, ?_⟩
  · intro id idMem
    exact exists_setStage isTask (sound.active id idMem)
  · intro row rowMem
    exact sound.queued row (List.mem_of_mem_filter rowMem)
  · intro id idMem
    by_cases same : id = item.id
    · subst same
      refine .inr ⟨written, ?_⟩
      rintro ⟨row, rowMem, isRow⟩
      simp [isRow] at rowMem
    · rw [queue_ne id same]
      rcases sound.balanced id idMem with waiting | ⟨once, queued⟩
      · exact .inl waiting
      · exact .inr ⟨once, fun isQueued =>
          recorded_setStage (queued isQueued) isTask fun isItem => absurd isItem same⟩
  · intro task taskMem
    rcases mem_setStage_cases sound.confined isTask taskMem with rfl | ⟨otherMem, differs⟩
    · trivial
    · exact (sound.tasks task otherMem).mono (queue_ne _ differs).mpr rfl

theorem Sound.of_rows {queue : List QueueItem}
    (sameIds : queue.map QueueItem.id = state.queue.map QueueItem.id) :
    ({ state with queue := queue }).Sound := by
  have inQueue : ∀ id, InQueue { state with queue := queue } id ↔ state.InQueue id := by
    intro id
    unfold InQueue
    rw [← List.mem_map, ← List.mem_map (f := QueueItem.id), sameIds]
  refine ⟨sound.confined.of_same rfl rfl, sound.active, sound.pending, sound.unrepeated,
    sound.drawn, ?_, sound.recorded, ?_, ?_⟩
  · intro row rowMem
    rcases (inQueue row.id).mp ⟨row, rowMem, rfl⟩ with ⟨old, oldMem, same⟩
    exact same ▸ sound.queued old oldMem
  · intro id idMem
    rw [inQueue id]
    exact sound.balanced id idMem
  · intro task taskMem
    exact (sound.tasks task taskMem).mono (inQueue _).mpr rfl

theorem Sound.insertQueueItem {ok : Bool}
    (move : state.insertQueueItem index ok = some next) : next.Sound := by
  have unrepeated : ((state.pending.eraseIdx index).map QueueItem.id).Nodup :=
    sound.unrepeated.sublist ((List.eraseIdx_sublist _ _).map _)
  revert move
  fun_cases DavQueue.insertQueueItem state index ok <;> intro move <;> cases move
  case case2 item isPending _ =>
    have isNew := (sound.pending item (List.mem_of_getElem? isPending)).2
    have unwritten : state.rows item.id = 0 := by
      by_contra written
      exact isNew (sound.recorded item.id (Nat.pos_of_ne_zero written))
    refine ⟨sound.confined.of_same rfl rfl, sound.active, ?_, unrepeated, ?_, ?_, ?_, ?_, ?_⟩
    · intro other otherMem
      have old := sound.pending other (List.mem_of_mem_eraseIdx otherMem)
      have differs := ne_of_mem_eraseIdx QueueItem.id sound.unrepeated isPending otherMem
      exact ⟨old.1, by simp [differs, old.2]⟩
    · intro id idMem
      rcases List.mem_cons.mp idMem with rfl | before
      · exact (sound.pending item (List.mem_of_getElem? isPending)).1
      · exact sound.drawn id before
    · intro row rowMem
      rcases List.mem_append.mp rowMem with before | new
      · exact List.mem_cons_of_mem _ (sound.queued row before)
      · rw [List.mem_singleton.mp new]
        exact List.mem_cons_self
    · intro id written
      exact List.mem_cons_of_mem _ (sound.recorded id written)
    · intro id idMem
      rcases List.mem_cons.mp idMem with rfl | before
      · exact .inl ⟨⟨item, by simp, rfl⟩, unwritten⟩
      · have differs : item.id ≠ id := fun same => isNew (same ▸ before)
        have sameQueue : ∀ row ∈ state.queue ++ [item], row.id = id → row ∈ state.queue := by
          intro row rowMem isRow
          rcases List.mem_append.mp rowMem with old | new
          · exact old
          · rw [List.mem_singleton.mp new] at isRow
            exact absurd isRow differs
        rcases sound.balanced id before with ⟨⟨row, rowMem, isRow⟩, none⟩ | ⟨once, queued⟩
        · exact .inl ⟨⟨row, List.mem_append_left _ rowMem, isRow⟩, none⟩
        · refine .inr ⟨once, ?_⟩
          rintro ⟨row, rowMem, isRow⟩
          exact queued ⟨row, sameQueue row rowMem isRow, isRow⟩
    · intro task taskMem
      refine (sound.tasks task taskMem).mono ?_ rfl
      rintro ⟨row, rowMem, isRow⟩
      exact ⟨row, List.mem_append_left _ rowMem, isRow⟩
  case case3 item isPending _ =>
    refine ⟨sound.confined.of_same rfl rfl, sound.active, ?_, unrepeated, sound.drawn,
      sound.queued, sound.recorded, sound.balanced, sound.tasks⟩
    intro other otherMem
    exact sound.pending other (List.mem_of_mem_eraseIdx otherMem)

theorem Sound.putNzbBlob {id : Uuid} {fileName jobName : String} {nzbData : List UInt8} {ok : Bool}
    (move : state.putNzbBlob id fileName jobName nzbData ok = some next) : next.Sound := by
  revert move
  fun_cases DavQueue.putNzbBlob state id fileName jobName nzbData ok <;> intro move <;> cases move
  case case2 isNew _ =>
    refine ⟨sound.confined.of_same rfl rfl, sound.active, ?_, ?_, ?_, sound.queued,
      sound.recorded, sound.balanced, sound.tasks⟩
    · intro item itemMem
      rcases List.mem_append.mp itemMem with before | new
      · have old := sound.pending item before
        exact ⟨List.mem_cons_of_mem _ old.1, old.2⟩
      · rw [List.mem_singleton.mp new]
        exact ⟨List.mem_cons_self, fun enqueued => isNew (sound.drawn id enqueued)⟩
    · rw [List.map_append, List.map_singleton, List.nodup_append_comm, List.singleton_append,
        List.nodup_cons]
      refine ⟨?_, sound.unrepeated⟩
      rw [List.mem_map]
      rintro ⟨item, itemMem, same⟩
      have known := (sound.pending item itemMem).1
      rw [same] at known
      exact isNew known
    · intro other otherMem
      exact List.mem_cons_of_mem _ (sound.drawn other otherMem)
  case case3 isNew _ =>
    refine ⟨sound.confined.of_same rfl rfl, sound.active, ?_, sound.unrepeated, ?_, sound.queued,
      sound.recorded, sound.balanced, sound.tasks⟩
    · intro item itemMem
      have old := sound.pending item itemMem
      exact ⟨List.mem_cons_of_mem _ old.1, old.2⟩
    · intro other otherMem
      exact List.mem_cons_of_mem _ (sound.drawn other otherMem)

theorem Sound.poll {found : Option Uuid} (move : state.poll found = some next) : next.Sound := by
  have confined := sound.confined.poll move
  revert move confined
  fun_cases DavQueue.poll state found <;> intro move <;> cases move <;> intro confined
  case case1 => exact sound
  case case3 id room row isRow =>
    have holds := List.find?_some isRow
    simp only [isNext, Bool.and_eq_true, decide_eq_true_eq, Bool.not_eq_true'] at holds
    have rowMem := List.mem_of_find?_eq_some isRow
    have inQueue : state.InQueue row.id := ⟨row, rowMem, rfl⟩
    have unwritten : state.rows row.id = 0 := by
      rcases sound.balanced row.id (sound.queued row rowMem) with waiting | ⟨-, queued⟩
      · exact waiting.2
      · rcases queued inQueue with ⟨task, taskMem, isId, -⟩
        exact absurd (isId ▸ sound.confined.excluded task taskMem) holds.2.2
    refine ⟨confined, ?_, sound.pending, sound.unrepeated, sound.drawn, sound.queued,
      sound.recorded, ?_, ?_⟩
    · intro id idMem
      rcases Finset.mem_insert.mp idMem with rfl | before
      · exact ⟨_, List.mem_append_right _ (List.mem_singleton_self _), rfl⟩
      · rcases sound.active id before with ⟨task, taskMem, isId⟩
        exact ⟨task, List.mem_append_left _ taskMem, isId⟩
    · intro id idMem
      rcases sound.balanced id idMem with waiting | ⟨once, queued⟩
      · exact .inl waiting
      · refine .inr ⟨once, fun isQueued => ?_⟩
        rcases queued isQueued with ⟨task, taskMem, isRecorded⟩
        exact ⟨task, List.mem_append_left _ taskMem, isRecorded⟩
    · intro task taskMem
      rcases List.mem_append.mp taskMem with before | new
      · exact sound.tasks task before
      · rw [List.mem_singleton.mp new]
        exact ⟨inQueue, unwritten⟩

theorem Sound.join (move : state.join index = some next) : next.Sound := by
  have confined := sound.confined.join move
  revert move confined
  fun_cases DavQueue.join state index <;> intro move <;> cases move <;> intro confined
  case case1 row isTask =>
    have stays : ∀ task ∈ state.active, task ≠ ⟨row, .returned⟩ →
        task ∈ state.active.eraseIdx index := by
      intro task taskMem differs
      rcases List.getElem?_eq_some_iff.mp isTask with ⟨bound, isItem⟩
      rw [← (List.getElem_cons_eraseIdx_perm bound).mem_iff, isItem] at taskMem
      exact (List.mem_cons.mp taskMem).resolve_left differs
    refine ⟨confined, ?_, sound.pending, sound.unrepeated, sound.drawn, sound.queued,
      sound.recorded, ?_, ?_⟩
    · intro id idMem
      rcases Finset.mem_erase.mp idMem with ⟨differs, before⟩
      rcases sound.active id before with ⟨task, taskMem, isId⟩
      refine ⟨task, stays task taskMem ?_, isId⟩
      rintro rfl
      exact differs isId.symm
    · intro id idMem
      rcases sound.balanced id idMem with waiting | ⟨once, queued⟩
      · exact .inl waiting
      · refine .inr ⟨once, fun isQueued => ?_⟩
        rcases queued isQueued with ⟨task, taskMem, isId, isRecorded⟩
        refine ⟨task, stays task taskMem ?_, isId, isRecorded⟩
        rintro rfl
        simp at isRecorded
    · intro task taskMem
      exact sound.tasks task (List.mem_of_mem_eraseIdx taskMem)
  case case2 row isTask => exact (sound.tasks _ (List.mem_of_getElem? isTask)).elim

theorem Sound.restart (between : ∀ task ∈ state.active, task.stage ≠ .deleting true) :
    ({ state with pending := [], active := [], activeIds := ∅ }).Sound := by
  refine ⟨⟨by simp, by simp, by simp⟩, by simp, by simp, by simp, sound.drawn, sound.queued,
    sound.recorded, ?_, by simp⟩
  intro id idMem
  rcases sound.balanced id idMem with waiting | ⟨once, queued⟩
  · exact .inl waiting
  · refine .inr ⟨once, fun isQueued => ?_⟩
    rcases queued isQueued with ⟨task, taskMem, -, isRecorded⟩
    exact absurd isRecorded (between task taskMem)

theorem Sound.openDb {ok : Bool} (move : state.openDb index ok = some next) : next.Sound := by
  revert move
  fun_cases DavQueue.openDb state index ok <;> intro move <;> cases move
  case case1 item isTask =>
    refine sound.setStage isTask (by simp) fun before => ?_
    cases ok
    · trivial
    · exact before

theorem Sound.getNzbBlob {error : Option String}
    (move : state.getNzbBlob index error = some next) : next.Sound := by
  revert move
  fun_cases DavQueue.getNzbBlob state index error <;> intro move <;> cases move
  case case1 item isTask message =>
    exact sound.setStage isTask (by simp) id
  case case2 item isTask isStored =>
    exact sound.setStage isTask (by simp) id

theorem Sound.process {result : ProcessResult} (survives : result ≠ .panics)
    (move : state.process index result = some next) : next.Sound := by
  revert move
  fun_cases DavQueue.process state index result <;> intro move <;> cases move
  case case1 item isTask jobDirId =>
    exact sound.setStage isTask (by simp) id
  case case2 item isTask message =>
    exact sound.setStage isTask (by simp) id
  case case3 item isTask message =>
    exact sound.setStage isTask (by simp) id
  case case4 item isTask => exact absurd rfl survives

theorem Sound.insertHistoryItem {ok : Bool}
    (move : state.insertHistoryItem index ok = some next) : next.Sound := by
  revert move
  fun_cases DavQueue.insertHistoryItem state index ok <;> intro move <;> cases move
  case case1 item status failMessage downloadDirId isTask _ => exact sound.record isTask
  case case2 item status failMessage downloadDirId isTask _ =>
    exact sound.setStage isTask (by simp) id

theorem Sound.deleteQueueItem {ok : Bool}
    (together : ∀ task ∈ state.active[index]?, task.stage ≠ .deleting !ok)
    (move : state.deleteQueueItem index ok = some next) : next.Sound := by
  revert move
  fun_cases DavQueue.deleteQueueItem state index ok <;> intro move <;> cases move
  case case1 item recorded isTask isOk =>
    have written := together _ isTask
    cases recorded with
    | false => simp [isOk] at written
    | true => exact sound.remove isTask
  case case2 item recorded isTask notOk =>
    have unwritten := together _ isTask
    cases recorded with
    | false => exact sound.setStage isTask (by simp) fun _ => trivial
    | true => simp [notOk] at unwritten

theorem Sound.updatePauseUntil {ok : Bool}
    (move : state.updatePauseUntil index ok = some next) : next.Sound := by
  revert move
  fun_cases DavQueue.updatePauseUntil state index ok <;> intro move <;> cases move
  case case1 item isTask _ =>
    have moved : (state.setStage index item .returned).Sound :=
      sound.setStage isTask (by simp) fun _ => trivial
    apply moved.of_rows
    rw [List.map_map]
    apply List.map_congr_left
    intro row _
    simp only [Function.comp_apply]
    split <;> rfl
  case case2 item isTask _ => exact sound.setStage isTask (by simp) fun _ => trivial

theorem Sound.step {label : Label} (orderly : state.Orderly label)
    (move : Step state label next) : next.Sound := by
  cases label with
  | elapse seconds =>
      cases move
      exact { sound with confined := sound.confined.of_same rfl rfl }
  | putNzbBlob id fileName jobName nzbData ok => exact sound.putNzbBlob move
  | insertQueueItem index ok => exact sound.insertQueueItem move
  | poll found => exact sound.poll move
  | join index => exact sound.join move
  | openDb index ok => exact sound.openDb move
  | getNzbBlob index error => exact sound.getNzbBlob move
  | process index result => exact sound.process orderly move
  | insertHistoryItem index ok => exact sound.insertHistoryItem move
  | deleteQueueItem index ok => exact sound.deleteQueueItem orderly move
  | updatePauseUntil index ok => exact sound.updatePauseUntil move
  | restart =>
      cases move
      exact sound.restart orderly

theorem Sound.found {row : QueueItem} (rowMem : row ∈ state.queue)
    (due : state.isPaused row = false) (idle : ∀ task ∈ state.active, task.item.id ≠ row.id)
    (room : state.active.length < maxConcurrent) :
    ∃ next, Step state (.poll (some row.id)) next := by
  have notExcluded : row.id ∉ state.activeIds := by
    intro excluded
    rcases sound.active row.id excluded with ⟨task, taskMem, isId⟩
    exact idle task taskMem isId
  have isSome : (state.queue.find? fun item =>
      decide (item.id = row.id) && state.isNext item).isSome = true := by
    rw [List.find?_isSome]
    exact ⟨row, rowMem, by simp [isNext, due, notExcluded]⟩
  rcases Option.isSome_iff_exists.mp isSome with ⟨item, isItem⟩
  have polled : state.poll (some row.id) = some { state with
      active := state.active ++ [{ item := item, stage := .opening }]
      activeIds := insert item.id state.activeIds } := by
    simp [DavQueue.poll, room, isItem]
  exact ⟨_, polled⟩

theorem Sound.endsOnce : state.EndsOnce where
  kept := by
    intro id idMem
    rcases sound.balanced id idMem with waiting | ⟨once, -⟩
    · exact .inl waiting.1
    · exact .inr (by omega)
  once := by
    intro id
    by_contra many
    rcases sound.balanced id (sound.recorded id (by omega)) with ⟨-, none⟩ | ⟨once, -⟩ <;> omega
  active := by
    intro id
    refine ⟨sound.active id, ?_⟩
    rintro ⟨task, taskMem, rfl⟩
    exact sound.confined.excluded task taskMem
  found _ rowMem due idle room := sound.found rowMem due idle room

end

end Soundness

/-- At most two tasks run, on different items, whatever happens. Every item ends exactly once if
every step is orderly. -/
theorem ends_once {labels : List Label} {state : DavQueue} (run : Run Step start labels state) :
    state.Confined ∧
      (Run.Always Step start (fun _ => Orderly) labels → state.EndsOnce) := by
  constructor
  · apply run.invariant (fun _ state => state.Confined) sound_start.confined
    intro labels state label next _ confined move
    exact confined.step move
  · intro orderly
    apply Sound.endsOnce
    apply run.invariant_of_steps (fun _ state => state.Sound) orderly sound_start
    intro labels state label next _ sound orderly move
    exact sound.step orderly move

theorem step_functional (state : DavQueue) (label : Label) (next other : DavQueue)
    (move : Step state label next) (again : Step state label other) : next = other :=
  Option.some.inj (move.symm.trans again)

theorem run_of_execute {labels : List Label} {state : DavQueue}
    (executed : execute step start labels = some state) : Run Step start labels state :=
  Run.of_execute (fun _ _ _ move => move) Run.start executed

def orderlyStep (state : DavQueue) (label : Label) : Option DavQueue :=
  if state.Orderly label then state.step label else none

theorem orderly_orderlyStep (state : DavQueue) (label : Label) (next : DavQueue)
    (move : state.orderlyStep label = some next) : Step state label next ∧ state.Orderly label := by
  rcases Option.ite_none_right_eq_some.mp move with ⟨orderly, step⟩
  exact ⟨step, orderly⟩

def processed (result : ProcessResult) : List Label :=
  [.putNzbBlob 0 "movie.nzb" "movie" [] true, .insertQueueItem 0 true, .poll (some 0),
    .openDb 0 true, .getNzbBlob 0 none, .process 0 result]

/-- The first try fails in both of the last two calls, the second succeeds in both. -/
def secondTry : List Label :=
  processed (.failed "article missing") ++ ([.insertHistoryItem 0 false, .deleteQueueItem 0 false,
    .join 0, .poll (some 0), .openDb 0 true, .getNzbBlob 0 none, .process 0 (.completed 7),
    .insertHistoryItem 0 true, .deleteQueueItem 0 true, .join 0] : List Label)

theorem ends_once_secondTry : ∃ state, Run Step start secondTry state ∧ state.queue = [] ∧
    state.history.map (fun row => row.nzbBlobId) = [some 0] ∧ state.EndsOnce := by
  have ends : (execute orderlyStep start secondTry).map (fun state =>
      (state.queue, state.history.map fun row => row.nzbBlobId)) = some ([], [some 0]) := by decide
  rcases Option.map_eq_some_iff.mp ends with ⟨state, executed, seen⟩
  rcases Prod.mk.inj seen with ⟨gone, history⟩
  rcases Run.always_of_execute step_functional orderly_orderlyStep Run.start Run.Always.nil
    executed with ⟨run, orderly⟩
  exact ⟨state, run, gone, history, (ends_once run).2 orderly⟩

/-- The history row cannot be written and the queue row is deleted all the same; the queue row
cannot be deleted and the item is processed a second time; the pipeline panics and its item stays
excluded. -/
theorem not_ends_once :
    (∃ state, Run Step start (processed (.completed 7) ++
        ([.insertHistoryItem 0 false, .deleteQueueItem 0 true] : List Label)) state ∧
      0 ∈ state.enqueued ∧ ¬ state.InQueue 0 ∧ state.rows 0 = 0) ∧
    (∃ state, Run Step start (processed (.completed 7) ++
        ([.insertHistoryItem 0 true, .deleteQueueItem 0 false, .join 0, .poll (some 0),
          .openDb 0 true, .getNzbBlob 0 none, .process 0 (.completed 8),
          .insertHistoryItem 0 true] : List Label)) state ∧ state.rows 0 = 2) ∧
    ∃ state, Run Step start (processed .panics ++ ([.join 0] : List Label)) state ∧
      state.active = [] ∧ 0 ∈ state.activeIds ∧ state.InQueue 0 ∧
      state.step (.poll (some 0)) = none := by
  refine ⟨?_, ?_, ?_⟩
  · exact ⟨_, run_of_execute rfl, by decide, by decide, by decide⟩
  · exact ⟨_, run_of_execute rfl, by decide⟩
  · exact ⟨_, run_of_execute rfl, rfl, by decide, by decide, by decide⟩

end DavQueue

end Rustnzb.Dav
