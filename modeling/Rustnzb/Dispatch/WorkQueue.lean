import Mathlib.Tactic
import Rustnzb.Dispatch.WorkItem

/-!
# The shared work queue

One queue for all jobs. A worker takes the first item that its server has not tried and that no
healthy server of higher priority still has to try, from another job than the one its server
served last if there is one.
-/

namespace Rustnzb.Dispatch

/-- Index files first, then recovery volumes, then data files. Lowering only ASCII letters decides
the two tests as full lowering does, since no other letter lowers to one of theirs. -/
def par2SortKey (filename : String) : ℕ :=
  let lower := (filename.map Char.toLower).toList
  if ".par2".toList.isSuffixOf lower then
    if lower.tails.any fun rest => ".vol".toList.isPrefixOf rest then 1 else 0
  else 2

structure SharedWorkQueue where
  items : List WorkItem
  lastServed : AList fun _ : ServerId => JobId

namespace SharedWorkQueue

def new : SharedWorkQueue := { items := [], lastServed := ∅ }

/-- Insert a batch of work items with PAR2 items ahead of data items. -/
def submitItems (queue : SharedWorkQueue) (items : List WorkItem) : SharedWorkQueue :=
  { queue with
    items := queue.items ++ items.insertionSort fun left right =>
      par2SortKey left.filename ≤ par2SortKey right.filename }

def pushFront (queue : SharedWorkQueue) (item : WorkItem) : SharedWorkQueue :=
  { queue with items := item :: queue.items }

def pushBack (queue : SharedWorkQueue) (item : WorkItem) : SharedWorkQueue :=
  { queue with items := queue.items ++ [item] }

def isEligible (serverId : ServerId) (higherPriority : List ServerId) (item : WorkItem) : Bool :=
  !item.triedServers.contains serverId &&
    higherPriority.all fun server => item.triedServers.contains server

/-- The position `pop_workable` takes. -/
def select (queue : SharedWorkQueue) (serverId : ServerId) (higherPriority : List ServerId) :
    Option ℕ :=
  let fair := (queue.lastServed.lookup serverId).bind fun lastJob =>
    queue.items.findIdx? fun item =>
      isEligible serverId higherPriority item && decide (item.jobId ≠ lastJob)
  fair.or (queue.items.findIdx? (isEligible serverId higherPriority))

def popWorkable (queue : SharedWorkQueue) (serverId : ServerId)
    (higherPriority : List ServerId) : Option (WorkItem × SharedWorkQueue) :=
  match queue.select serverId higherPriority with
  | none => none
  | some index =>
      match queue.items[index]? with
      | none => none
      | some item =>
          some (item,
            { items := queue.items.eraseIdx index
              lastServed := queue.lastServed.insert serverId item.jobId })

def drainJob (queue : SharedWorkQueue) (jobId : JobId) : List WorkItem × SharedWorkQueue :=
  (queue.items.filter fun item => item.jobId = jobId,
    { queue with items := queue.items.filter fun item => item.jobId ≠ jobId })

def takeWhere (queue : SharedWorkQueue) (predicate : WorkItem → Bool) :
    List WorkItem × SharedWorkQueue :=
  (queue.items.filter predicate,
    { queue with items := queue.items.filter fun item => !predicate item })

variable {queue : SharedWorkQueue} {higherPriority : List ServerId}

theorem mem_submitItems {items : List WorkItem} {item : WorkItem} :
    item ∈ (queue.submitItems items).items ↔ item ∈ queue.items ∨ item ∈ items := by
  rw [submitItems, List.mem_append, List.mem_insertionSort]

theorem isEligible_iff {serverId : ServerId} {item : WorkItem} :
    isEligible serverId higherPriority item = true ↔
      serverId ∉ item.triedServers ∧ ∀ server ∈ higherPriority, server ∈ item.triedServers := by
  simp [isEligible]

theorem eligible_of_select {serverId : ServerId} {index : ℕ}
    (selected : queue.select serverId higherPriority = some index) :
    ∃ item, queue.items[index]? = some item ∧ isEligible serverId higherPriority item := by
  simp only [select, Option.or_eq_some_iff, Option.bind_eq_some_iff] at selected
  rcases selected with ⟨_, _, found⟩ | ⟨_, found⟩
  · rcases List.findIdx?_eq_some_iff_getElem.mp found with ⟨bound, holds, _⟩
    refine ⟨_, List.getElem?_eq_getElem bound, ?_⟩
    simp only [Bool.and_eq_true] at holds
    exact holds.1
  · rcases List.findIdx?_eq_some_iff_getElem.mp found with ⟨bound, holds, _⟩
    exact ⟨_, List.getElem?_eq_getElem bound, holds⟩

theorem popWorkable_eq_some {next : SharedWorkQueue} {serverId : ServerId} {item : WorkItem}
    (popped : queue.popWorkable serverId higherPriority = some (item, next)) :
    isEligible serverId higherPriority item = true ∧
      queue.items.Perm (item :: next.items) := by
  simp only [popWorkable] at popped
  split at popped
  · simp at popped
  next index selected =>
    rcases eligible_of_select selected with ⟨found, foundAt, eligible⟩
    simp only [foundAt, Option.some.injEq, Prod.mk.injEq] at popped
    rcases popped with ⟨rfl, rfl⟩
    rcases List.getElem?_eq_some_iff.mp foundAt with ⟨bound, rfl⟩
    exact ⟨eligible, (List.getElem_cons_eraseIdx_perm bound).symm⟩

theorem popWorkable_isSome_iff {serverId : ServerId} :
    (queue.popWorkable serverId higherPriority).isSome = true ↔
      ∃ item ∈ queue.items, isEligible serverId higherPriority item = true := by
  constructor
  · intro popped
    rcases Option.isSome_iff_exists.mp popped with ⟨⟨item, next⟩, isPopped⟩
    rcases popWorkable_eq_some isPopped with ⟨eligible, perm⟩
    exact ⟨item, perm.mem_iff.mpr (by simp), eligible⟩
  · rintro ⟨item, itemMem, eligible⟩
    have selected : (queue.select serverId higherPriority).isSome = true := by
      simp only [select, Option.isSome_or, Bool.or_eq_true]
      right
      rw [List.findIdx?_isSome, List.any_eq_true]
      exact ⟨item, itemMem, eligible⟩
    rcases Option.isSome_iff_exists.mp selected with ⟨index, isSelected⟩
    rcases eligible_of_select isSelected with ⟨found, foundAt, _⟩
    simp [popWorkable, isSelected, foundAt]

end SharedWorkQueue

end Rustnzb.Dispatch
