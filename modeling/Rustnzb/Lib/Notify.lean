import Mathlib.Data.List.Perm.Basic

/-!
# Notifications

A notification is sent to the first of those that wait for one. When none waits it is stored, once,
for the next that registers. One that goes away with a notification it has not taken sends it on.
-/

namespace Rustnzb.Lib

universe u

/-- Those that have registered, by what they have got. -/
structure Notify (Key : Type u) where
  /-- In the order in which they registered. -/
  waiters : List Key
  notified : List Key
  /-- They took the stored notification when they registered. -/
  served : List Key
  stored : Bool

namespace Notify

variable {Key : Type u} {notify : Notify Key} {key other : Key}

def empty : Notify Key := ⟨[], [], [], false⟩

def keys (notify : Notify Key) : List Key :=
  notify.waiters ++ notify.notified ++ notify.served

/-- Register. -/
def enable (notify : Notify Key) (key : Key) : Notify Key :=
  if notify.stored then { notify with served := key :: notify.served, stored := false }
  else { notify with waiters := notify.waiters ++ [key] }

def notifyOne (notify : Notify Key) : Notify Key :=
  match notify.waiters with
  | [] => { notify with stored := true }
  | first :: rest => { notify with waiters := rest, notified := first :: notify.notified }

@[simp]
theorem mem_keys :
    key ∈ notify.keys ↔ key ∈ notify.waiters ∨ key ∈ notify.notified ∨ key ∈ notify.served := by
  simp [keys]

theorem keys_enable (notify : Notify Key) (key : Key) :
    (notify.enable key).keys.Perm (key :: notify.keys) := by
  rw [enable]
  split
  · exact List.perm_middle
  · rw [keys, keys, List.append_assoc, List.append_assoc, List.append_assoc]
    exact List.perm_middle

theorem notified_enable (notify : Notify Key) (key : Key) :
    (notify.enable key).notified = notify.notified := by
  rw [enable]
  split <;> rfl

theorem mem_waiters_of_enable (mem : other ∈ (notify.enable key).waiters) :
    other ∈ notify.waiters ∨ other = key := by
  rw [enable] at mem
  split at mem
  · exact .inl mem
  · simpa using mem

theorem keys_notifyOne (notify : Notify Key) : notify.notifyOne.keys.Perm notify.keys := by
  rw [notifyOne]
  split
  · rfl
  next first rest waiting =>
    rw [keys, keys, waiting, List.append_assoc, List.append_assoc]
    exact List.perm_middle

/-- A notification reaches a waiter, unless none is left. -/
theorem waiters_notifyOne (notify : Notify Key) :
    notify.notifyOne.waiters = [] ∨
      notify.notifyOne.notified.length = notify.notified.length + 1 ∧
        notify.notifyOne.waiters ⊆ notify.waiters := by
  rw [notifyOne]
  split
  next none => exact .inl none
  next first rest waiting =>
    rw [waiting]
    exact .inr ⟨rfl, List.subset_cons_self first rest⟩

variable [DecidableEq Key]

def isReady (notify : Notify Key) (key : Key) : Bool :=
  key ∈ notify.notified ∨ key ∈ notify.served

/-- Take the notification that has come. -/
def consume (notify : Notify Key) (key : Key) : Notify Key :=
  if key ∈ notify.notified then { notify with notified := notify.notified.erase key }
  else { notify with served := notify.served.erase key }

/-- Go away, with or without a notification. -/
def leave (notify : Notify Key) (key : Key) : Notify Key :=
  if key ∈ notify.notified then
    { notify with notified := notify.notified.erase key }.notifyOne
  else if key ∈ notify.waiters then { notify with waiters := notify.waiters.erase key }
  else { notify with served := notify.served.erase key }

@[simp]
theorem isReady_eq_true :
    notify.isReady key = true ↔ key ∈ notify.notified ∨ key ∈ notify.served := by
  simp [isReady]

theorem keys_erase_notified (mem : key ∈ notify.notified) :
    (key :: { notify with notified := notify.notified.erase key }.keys).Perm notify.keys := by
  rw [keys, keys, List.append_assoc, List.append_assoc]
  have cons := (List.perm_cons_erase mem).symm.append_right notify.served
  exact List.perm_middle.symm.trans (cons.append_left notify.waiters)

theorem keys_erase_waiters (mem : key ∈ notify.waiters) :
    (key :: { notify with waiters := notify.waiters.erase key }.keys).Perm notify.keys := by
  rw [keys, keys, List.append_assoc, List.append_assoc]
  exact (List.perm_cons_erase mem).symm.append_right (notify.notified ++ notify.served)

theorem keys_erase_served (mem : key ∈ notify.served) :
    (key :: { notify with served := notify.served.erase key }.keys).Perm notify.keys := by
  have cons := (List.perm_cons_erase mem).symm.append_left (notify.waiters ++ notify.notified)
  exact List.perm_middle.symm.trans cons

theorem keys_consume (isReady : notify.isReady key) :
    (key :: (notify.consume key).keys).Perm notify.keys := by
  rw [consume]
  split
  next mem => exact keys_erase_notified mem
  next notMem => exact keys_erase_served ((isReady_eq_true.mp isReady).resolve_left notMem)

@[simp]
theorem waiters_consume : (notify.consume key).waiters = notify.waiters := by
  rw [consume]
  split <;> rfl

theorem length_notified_consume (notify : Notify Key) (key : Key) :
    notify.notified.length ≤ (notify.consume key).notified.length + 1 := by
  rw [consume]
  split
  · have length := List.length_erase_of_mem ‹key ∈ notify.notified›
    dsimp only
    omega
  · exact Nat.le_succ _

theorem keys_leave (mem : key ∈ notify.keys) :
    (key :: (notify.leave key).keys).Perm notify.keys := by
  rw [leave]
  split
  next notified =>
    exact ((keys_notifyOne _).cons key).trans (keys_erase_notified notified)
  next unnotified =>
    split
    next waiting => exact keys_erase_waiters waiting
    next notWaiting =>
      exact keys_erase_served (((mem_keys.mp mem).resolve_left notWaiting).resolve_left unnotified)

/-- What goes away with a notification sends it on. -/
theorem waiters_leave (notify : Notify Key) (key : Key) :
    (notify.leave key).waiters = [] ∨
      (notify.leave key).notified.length = notify.notified.length ∧
        (notify.leave key).waiters ⊆ notify.waiters := by
  rw [leave]
  split
  next notified =>
    have length := List.length_erase_of_mem notified
    have positive := List.length_pos_of_mem notified
    apply (waiters_notifyOne _).imp_right
    rintro ⟨one, subset⟩
    refine ⟨?_, subset⟩
    dsimp only at one
    omega
  · split
    · exact .inr ⟨rfl, List.erase_subset⟩
    · exact .inr ⟨rfl, List.Subset.refl _⟩

omit [DecidableEq Key] in
/-- Registered keys, when one key registers or goes away. -/
theorem nodup_of_perm {keys keys' : List Key} {key : Key} {old new : Bool}
    (perm : ((if new then [key] else []) ++ keys).Perm ((if old then [key] else []) ++ keys'))
    (apart : keys.Nodup) (mem : key ∈ keys ↔ old = true) :
    keys'.Nodup ∧ (key ∈ keys' ↔ new = true) ∧ ∀ other ≠ key, other ∈ keys' ↔ other ∈ keys := by
  have others : ∀ other ≠ key, other ∈ keys' ↔ other ∈ keys := by
    intro other differs
    have same := perm.mem_iff (a := other)
    rcases old with _ | _ <;> rcases new with _ | _ <;> simpa [differs] using same.symm
  rw [← and_assoc]
  refine ⟨?_, others⟩
  rcases old with _ | _
  · have fresh : key ∉ keys := fun isMem => nomatch mem.mp isMem
    rcases new with _ | _
    · have same : keys.Perm keys' := perm
      simpa [← same.nodup_iff, ← same.mem_iff] using ⟨apart, fresh⟩
    · have grown : (key :: keys).Perm keys' := perm
      simpa [← grown.nodup_iff, ← grown.mem_iff] using ⟨fresh, apart⟩
  · have isMem : key ∈ keys := mem.mpr rfl
    rcases new with _ | _
    · have shrunk : keys.Perm (key :: keys') := perm
      have split := List.nodup_cons.mp (shrunk.nodup_iff.mp apart)
      simpa using split.symm
    · have same : keys.Perm keys' := List.Perm.cons_inv perm
      simpa [← same.nodup_iff, ← same.mem_iff] using ⟨apart, isMem⟩

end Notify

end Rustnzb.Lib
