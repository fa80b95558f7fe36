import Mathlib.Data.List.Permutation
import Rustnzb.Web.Auth.CredentialStore

/-!
# Changes of the account one after another

The writers hold the lock while they write, so the calls that succeed are ordered by their writes.
Two things break the order: `change_credentials` writes back the username it has read, and
`persist` can fail when the new file is already in place.
-/

namespace Rustnzb.Web

open Lib (Run execute)

variable {verify : String → String → Bool}

namespace CredentialRequest

def serial (verify : String → String → Bool) (request : CredentialRequest)
    (account : Option Account) (hash : String) : Except CredentialError Account :=
  match request.read verify account with
  | .error error => .error error
  | .ok seen => request.write account seen
      (match request.newPassword, seen with
        | none, some account => account.passwordHash
        | _, _ => hash)

def isInitialize : CredentialRequest → Bool
  | .initializeCredentials .. => true
  | .setCredentials .. | .changeCredentials .. => false

def KeepsUsername (account seen : Option Account) : CredentialRequest → Prop
  | .changeCredentials _ none _ => ∀ current ∈ account, ∀ before ∈ seen,
      current.passwordHash = before.passwordHash → current.username = before.username
  | _ => True

structure Checked (verify : String → String → Bool) (request : CredentialRequest)
    (seen : Option Account) : Prop where
  read : ∃ account, request.read verify account = .ok seen

theorem read_changeCredentials {currentPassword : String} {newUsername newPassword : Option String}
    {account seen : Option Account}
    (passes : (changeCredentials currentPassword newUsername newPassword).read verify account =
      .ok seen) :
    ∃ old, account = some old ∧ seen = some old ∧
      verify currentPassword old.passwordHash = true ∧
      ¬(newUsername.getD old.username = "" ∨ newPassword = some "") := by
  rcases account with _ | old
  · cases passes
  · simp only [CredentialRequest.read] at passes
    split at passes
    · cases passes
    next verified =>
      split at passes
      · cases passes
      next complete =>
        cases passes
        exact ⟨old, rfl, rfl, by simpa using verified, complete⟩

theorem write_changeCredentials {currentPassword : String} {newUsername newPassword : Option String}
    {account : Option Account} {old written : Account} {hash : String}
    (writes : (changeCredentials currentPassword newUsername newPassword).write account (some old)
      hash = .ok written) :
    ∃ current, account = some current ∧ current.passwordHash = old.passwordHash ∧
      written = { username := newUsername.getD old.username, passwordHash := hash } := by
  simp only [CredentialRequest.write] at writes
  split at writes
  · cases writes
  next same =>
    cases writes
    rcases Option.map_eq_some_iff.mp (not_not.mp same) with ⟨current, isCurrent, sameHash⟩
    exact ⟨current, isCurrent, sameHash, rfl⟩

theorem serial_of_write {request : CredentialRequest} {account seen : Option Account}
    {written : Account} {hash : String} (checked : request.Checked verify seen)
    (kept : request.newPassword = none → ∀ old ∈ seen, hash = old.passwordHash)
    (keeps : request.KeepsUsername account seen)
    (writes : request.write account seen hash = .ok written) :
    request.serial verify account hash = .ok written := by
  rcases request with ⟨username, password⟩ | ⟨username, password⟩ |
    ⟨currentPassword, newUsername, newPassword⟩
  case setCredentials => exact writes
  case initializeCredentials => exact writes
  case changeCredentials =>
    rcases checked.read with ⟨before, passes⟩
    rcases CredentialRequest.read_changeCredentials passes with ⟨old, -, rfl, verified, complete⟩
    rcases write_changeCredentials writes with ⟨current, rfl, sameHash, rfl⟩
    have sameName : newUsername.getD current.username = newUsername.getD old.username := by
      rcases newUsername with _ | username
      · exact keeps current rfl old rfl sameHash
      · rfl
    simp only [serial, CredentialRequest.read, sameHash, verified, sameName, Bool.not_true,
      Bool.false_eq_true, if_false, if_neg complete]
    simp only [CredentialRequest.write, Option.map_some, sameHash, ne_eq, not_true_eq_false,
      if_false,
      sameName, CredentialRequest.newPassword]
    rcases newPassword with _ | password
    · simp only [kept rfl old rfl, sameHash]
    · rfl

end CredentialRequest

namespace CredentialStore

def succeeded (store : CredentialStore) : List CredentialReturn :=
  store.returned.filter fun returned => returned.result.isOk

def runSerially (verify : String → String → Bool) (account : Option Account) :
    List CredentialReturn → Except CredentialError (Option Account)
  | [] => .ok account
  | returned :: rest =>
      match returned.request.serial verify account returned.hash with
      | .error error => .error error
      | .ok account => runSerially verify (some account) rest

/-- Memory and file agree, and the calls that have succeeded might have run one after another. -/
structure Serialisable (verify : String → String → Bool) (start store : CredentialStore) :
    Prop where
  agrees : store.dir.account = store.account
  serial : ∃ order, order.Perm store.succeeded ∧
    runSerially verify start.account order = .ok store.account
  once : start.account = none →
    store.succeeded.countP (fun returned => returned.request.isInitialize) ≤ 1

/-- A call that has failed in this step has left the account and the file as they were. -/
def LeavesOnError (store next : CredentialStore) : Prop :=
  ∀ returned error, next.returned = store.returned ++ [returned] → returned.result = .error error →
    next.account = store.account ∧ next.dir.account = store.dir.account

/-- No write fails after its rename unless it wrote the account that was there, and none writes back
a username that has changed since it was read. -/
def MayWrite (store : CredentialStore) (faults : List PersistStep) : CredentialCall → Prop
  | .hashing .. => True
  | .writing request seen hash => store.dir.Renames faults →
      (.syncDirectory ∈ faults → ∀ written ∈ (request.write store.account seen hash).toOption,
        store.account = some written) ∧
      request.KeepsUsername store.account seen

def InOrder (store : CredentialStore) : CredentialEvent → Prop
  | .write index faults => ∀ call ∈ store.calls[index]?, store.MayWrite faults call
  | .begin _ | .hashed .. => True

structure Opened (store : CredentialStore) : Prop where
  agrees : store.dir.account = store.account
  calls : store.calls = []
  returned : store.returned = []

theorem opened_openDir {dir : CredentialsDir}
    (usable : ∀ text ∈ dir.credentials, ∃ file : CredentialsFile,
      text = .json file ∧ file.passwordHash.isSome)
    (hashed : Option String) (faults : List PersistStep) : (openDir dir hashed faults).Opened := by
  rcases isText : dir.credentials with _ | text
  · simp only [openDir, isText]
    exact ⟨by simp [CredentialsDir.account, isText], rfl, rfl⟩
  · rcases usable text isText with ⟨⟨username, hash, password⟩, rfl, hasHash⟩
    rcases Option.isSome_iff_exists.mp hasHash with ⟨hash, rfl⟩
    have stored : dir.account = some { username := username, passwordHash := hash } := by
      simp [CredentialsDir.account, isText]
    rcases password with _ | password
    · simp only [openDir, isText, load]
      exact ⟨stored, rfl, rfl⟩
    · simp only [openDir, isText, load]
      refine ⟨?_, rfl, rfl⟩
      rcases dir.persistAccount_spec faults { username := username, passwordHash := hash } with
        ⟨-, account, -⟩ | ⟨-, account, -⟩
      · exact account
      · exact account.trans stored

/-! ## What a run keeps -/

theorem runSerially_append (account : Option Account) (before after : List CredentialReturn) :
    runSerially verify account (before ++ after) =
      match runSerially verify account before with
      | .error error => .error error
      | .ok account => runSerially verify account after := by
  induction before generalizing account with
  | nil => rfl
  | cons returned rest ih =>
      simp only [List.cons_append, runSerially]
      split
      · rfl
      · rw [ih]

theorem countP_isInitialize_of_some {account : Account} {order : List CredentialReturn}
    {final : Option Account} (serial : runSerially verify (some account) order = .ok final) :
    order.countP (fun returned => returned.request.isInitialize) = 0 := by
  induction order generalizing account with
  | nil => rfl
  | cons returned rest ih =>
      simp only [runSerially] at serial
      split at serial
      · cases serial
      next written ran =>
        rw [List.countP_cons, ih serial]
        rcases isRequest : returned.request with _ | _ | _
        · rfl
        · rw [isRequest] at ran
          cases ran
        · rfl

theorem countP_isInitialize_le_one {account final : Option Account} {order : List CredentialReturn}
    (serial : runSerially verify account order = .ok final) :
    order.countP (fun returned => returned.request.isInitialize) ≤ 1 := by
  rcases order with _ | ⟨returned, rest⟩
  · simp
  · simp only [runSerially] at serial
    split at serial
    · cases serial
    · rw [List.countP_cons, countP_isInitialize_of_some serial]
      split
      · rfl
      · simp

def CallChecked (verify : String → String → Bool) : CredentialCall → Prop
  | .hashing request seen => request.Checked verify seen ∧ request.newPassword.isSome
  | .writing request seen hash => request.Checked verify seen ∧
      (request.newPassword = none → ∀ old ∈ seen, hash = old.passwordHash)

structure Ordered (verify : String → String → Bool) (start store : CredentialStore) : Prop where
  agrees : store.dir.account = store.account
  serial : runSerially verify start.account store.succeeded = .ok store.account
  calls : ∀ call ∈ store.calls, CallChecked verify call

namespace Ordered

variable {start store next : CredentialStore}

theorem of_opened (opened : start.Opened) : Ordered verify start start where
  agrees := opened.agrees
  serial := by simp [succeeded, opened.returned, runSerially]
  calls call mem := by simp [opened.calls] at mem

section

variable (ordered : Ordered verify start store)

include ordered

theorem serialisable :
    Serialisable verify start store where
  agrees := ordered.agrees
  serial := ⟨store.succeeded, List.Perm.refl _, ordered.serial⟩
  once _ := countP_isInitialize_le_one ordered.serial

theorem changeCalls {calls : List CredentialCall}
    (checked : ∀ call ∈ calls, CallChecked verify call) :
    Ordered verify start { store with calls := calls } :=
  ⟨ordered.agrees, ordered.serial, checked⟩

theorem refuse (request : CredentialRequest) (hash : String) (error : CredentialError) :
    Ordered verify start (store.finish request hash (.error error)) where
  agrees := ordered.agrees
  serial := by
    simpa [finish, succeeded, Except.isOk, Except.toBool] using ordered.serial
  calls := ordered.calls

theorem begin (request : CredentialRequest) :
    Ordered verify start (store.begin verify request) := by
  rw [CredentialStore.begin]
  split
  next error _ => exact ordered.refuse request "" error
  next seen passes =>
    have checked : request.Checked verify seen := ⟨store.account, passes⟩
    split
    next account none =>
      apply ordered.changeCalls
      intro call mem
      rcases List.mem_append.mp mem with before | isNew
      · exact ordered.calls call before
      · rw [List.mem_singleton.mp isNew]
        refine ⟨checked, ?_⟩
        rintro - _ ⟨⟩
        rfl
    next other =>
      apply ordered.changeCalls
      intro call mem
      rcases List.mem_append.mp mem with before | isNew
      · exact ordered.calls call before
      · rw [List.mem_singleton.mp isNew]
        refine ⟨checked, ?_⟩
        rcases request with _ | _ | ⟨currentPassword, newUsername, newPassword⟩
        · rfl
        · rfl
        · rcases CredentialRequest.read_changeCredentials passes with ⟨old, -, rfl, -⟩
          rcases newPassword with _ | password
          · exact absurd rfl (other old rfl)
          · rfl

end

theorem write_cases (agrees : store.dir.account = store.account) {request : CredentialRequest}
    {seen : Option Account} {hash : String} {faults : List PersistStep}
    (mayWrite : store.MayWrite faults (.writing request seen hash)) :
    (∃ error dir, dir.account = store.dir.account ∧
      store.write request seen hash faults =
        { store with dir := dir }.finish request hash (.error error)) ∨
    (∃ written dir, request.write store.account seen hash = .ok written ∧
      request.KeepsUsername store.account seen ∧ dir.account = some written ∧
      store.write request seen hash faults =
        { store with dir := dir, account := some written }.finish request hash (.ok ())) := by
  simp only [CredentialStore.write]
  rcases writes : request.write store.account seen hash with error | written
  · exact Or.inl ⟨error, store.dir, rfl, rfl⟩
  rcases store.dir.persistAccount_spec faults written with
    ⟨renames, onDisk, result⟩ | ⟨-, onDisk, result⟩
  · rcases mayWrite renames with ⟨sameAccount, keeps⟩
    by_cases unsynced : .syncDirectory ∈ faults
    · have same := sameAccount unsynced written (by simp [writes, Except.toOption])
      refine Or.inl ⟨.io, _, onDisk.trans ?_, ?_⟩
      · rw [agrees, same]
      · simp only [result, if_pos unsynced]
    · refine Or.inr ⟨written, _, rfl, keeps, onDisk, ?_⟩
      simp only [result, if_neg unsynced]
  · refine Or.inl ⟨.io, _, onDisk, ?_⟩
    simp only [result]

theorem write (ordered : Ordered verify start store) {request : CredentialRequest}
    {seen : Option Account} {hash : String} {faults : List PersistStep}
    (checked : CallChecked verify (.writing request seen hash))
    (mayWrite : store.MayWrite faults (.writing request seen hash)) :
    Ordered verify start (store.write request seen hash faults) := by
  rcases write_cases ordered.agrees mayWrite with
    ⟨error, dir, sameDisk, result⟩ | ⟨written, dir, writes, keeps, onDisk, result⟩
  · rw [result]
    apply refuse
    exact ⟨sameDisk.trans ordered.agrees, ordered.serial, ordered.calls⟩
  · rw [result]
    refine ⟨onDisk, ?_, ordered.calls⟩
    have alone := CredentialRequest.serial_of_write checked.1 checked.2 keeps writes
    have appended : ({ store with dir := dir, account := some written }.finish request hash
        (.ok ())).succeeded =
          store.succeeded ++ [{ request := request, hash := hash, result := .ok () }] := by
      simp [finish, succeeded, Except.isOk, Except.toBool]
    rw [appended, runSerially_append, ordered.serial]
    simp only [runSerially, alone]
    rfl

theorem step (ordered : Ordered verify start store) {event : CredentialEvent}
    (inOrder : store.InOrder event) (move : Step verify store event next) :
    Ordered verify start next := by
  rcases event with request | ⟨call, hash⟩ | ⟨call, faults⟩
  case begin =>
    cases move
    exact ordered.begin request
  case hashed =>
    simp only [Step, CredentialStore.step] at move
    split at move
    next request seen found =>
      rcases ordered.calls _ (List.mem_of_getElem? found) with ⟨checked, hashes⟩
      have erased : Ordered verify start { store with calls := store.calls.eraseIdx call } :=
        ordered.changeCalls fun call mem => ordered.calls call (List.mem_of_mem_eraseIdx mem)
      rcases hash with _ | hash
      · cases move
        exact erased.refuse request "" .io
      · cases move
        apply ordered.changeCalls
        intro other mem
        rcases List.mem_append.mp mem with before | isNew
        · exact ordered.calls other (List.mem_of_mem_eraseIdx before)
        · rw [List.mem_singleton.mp isNew]
          refine ⟨checked, ?_⟩
          intro none
          simp [none] at hashes
    · cases move
  case write =>
    simp only [Step, CredentialStore.step] at move
    split at move
    next request seen hash found =>
      cases move
      have erased : Ordered verify start { store with calls := store.calls.eraseIdx call } :=
        ordered.changeCalls fun call mem => ordered.calls call (List.mem_of_mem_eraseIdx mem)
      exact erased.write (ordered.calls _ (List.mem_of_getElem? found)) (inOrder _ found)
    · cases move

theorem leavesOnError (ordered : Ordered verify start store) {event : CredentialEvent}
    (inOrder : store.InOrder event) (move : Step verify store event next) :
    LeavesOnError store next := by
  rcases event with request | ⟨call, hash⟩ | ⟨call, faults⟩
  case begin =>
    cases move
    rw [CredentialStore.begin]
    split
    · exact fun _ _ _ _ => ⟨rfl, rfl⟩
    · split <;> exact fun _ _ _ _ => ⟨rfl, rfl⟩
  case hashed =>
    simp only [Step, CredentialStore.step] at move
    split at move
    next request seen found =>
      rcases hash with _ | hash <;> cases move <;> exact fun _ _ _ _ => ⟨rfl, rfl⟩
    · cases move
  case write =>
    simp only [Step, CredentialStore.step] at move
    split at move
    next request seen hash found =>
      cases move
      intro returned error appended failed
      have cases := @write_cases { store with calls := store.calls.eraseIdx call } ordered.agrees
        _ _ _ _ (inOrder _ found)
      rcases cases with ⟨_, dir, sameDisk, result⟩ | ⟨written, dir, -, -, -, result⟩
      · rw [result]
        exact ⟨rfl, sameDisk⟩
      · rw [result] at appended
        rw [← List.singleton_inj.mp (List.append_inj' appended rfl).2] at failed
        cases failed
    · cases move

end Ordered

/-- In every run whose writes keep to the condition, memory and file agree, the calls that have
succeeded are serialisable, and a call that fails changes nothing. -/
theorem serialisable_of_inOrder {start store : CredentialStore} (opened : start.Opened)
    {events : List CredentialEvent} (run : Run (Step verify) start events store)
    (inOrder : Run.Always (Step verify) start (fun _ => InOrder) events) :
    Serialisable verify start store ∧
      ∀ event next, store.InOrder event → Step verify store event next →
        LeavesOnError store next := by
  have ordered : Ordered verify start store := by
    apply run.invariant_of_steps (fun _ => Ordered verify start) inOrder (Ordered.of_opened opened)
    intro _ before event after _ ordered meets move
    exact ordered.step meets move
  exact ⟨ordered.serialisable, fun event next meets move => ordered.leavesOnError meets move⟩

/-! ## Two runs -/

theorem step_functional (store : CredentialStore) (event : CredentialEvent)
    (next other : CredentialStore) (move : Step verify store event next)
    (move' : Step verify store event other) : next = other :=
  Option.some.inj (move.symm.trans move')

instance (account seen : Option Account) :
    (request : CredentialRequest) → Decidable (request.KeepsUsername account seen)
  | .changeCredentials _ none _ =>
      inferInstanceAs (Decidable (∀ current ∈ account, ∀ before ∈ seen, _ → _))
  | .changeCredentials _ (some _) _ | .setCredentials .. | .initializeCredentials .. =>
    .isTrue trivial

instance (store : CredentialStore) (faults : List PersistStep) :
    (call : CredentialCall) → Decidable (store.MayWrite faults call)
  | .hashing .. => .isTrue trivial
  | .writing request seen hash => inferInstanceAs (Decidable (_ →
      (_ → ∀ written ∈ (request.write store.account seen hash).toOption, _) ∧ _))

instance (store : CredentialStore) : (event : CredentialEvent) → Decidable (store.InOrder event)
  | .write index faults =>
      inferInstanceAs (Decidable (∀ call ∈ store.calls[index]?, store.MayWrite faults call))
  | .begin _ | .hashed .. => .isTrue trivial

def inOrderStep (verify : String → String → Bool) (store : CredentialStore)
    (event : CredentialEvent) : Option CredentialStore :=
  if store.InOrder event then store.step verify event else none

theorem sound_inOrderStep (store : CredentialStore) (event : CredentialEvent)
    (next : CredentialStore) (move : store.inOrderStep verify event = some next) :
    Step verify store event next ∧ store.InOrder event := by
  rcases Option.ite_none_right_eq_some.mp move with ⟨inOrder, step⟩
  exact ⟨step, inOrder⟩

def plainVerify (password hash : String) : Bool :=
  hash = "salt " ++ password

/-- First-boot setup, a rename, and a change that fails before its rename. -/
def setupAndRename : List CredentialEvent :=
  [.begin (.initializeCredentials "admin" "pw"), .hashed 0 (some "salt pw"), .write 0 [],
    .begin (.changeCredentials "pw" (some "root") none), .write 0 [],
    .begin (.setCredentials "guest" "no"), .hashed 0 (some "salt no"), .write 0 [.rename]]

theorem serialisable_of_inOrder_setup :
    ∃ store, Run (Step plainVerify) (openDir ⟨none, none⟩ none []) setupAndRename store ∧
      store.account = some ⟨"root", "salt pw"⟩ ∧
      Serialisable plainVerify (openDir ⟨none, none⟩ none []) store := by
  have ends : (execute (inOrderStep plainVerify) (openDir ⟨none, none⟩ none [])
      setupAndRename).map (·.account) = some (some ⟨"root", "salt pw"⟩) := by decide
  rcases Option.map_eq_some_iff.mp ends with ⟨store, executed, isRoot⟩
  rcases Run.always_of_execute step_functional sound_inOrderStep Run.start Run.Always.nil
    executed with ⟨run, inOrder⟩
  exact ⟨store, run, isRoot,
    (serialisable_of_inOrder (opened_openDir (by simp) none []) run inOrder).1⟩

def configured : CredentialsDir where
  credentials := some (.json ⟨"admin", some "salt pw", none⟩)
  tmp := none

/-- The username is changed while another call changes the password. -/
def renamedInBetween : List CredentialEvent :=
  [.begin (.changeCredentials "pw" none (some "new")),
    .begin (.changeCredentials "pw" (some "root") none), .write 1 [], .hashed 0 (some "salt new"),
    .write 0 []]

theorem not_serialisable_renamedInBetween :
    ∃ store, Run (Step plainVerify) (openDir configured none []) renamedInBetween store ∧
      ¬Serialisable plainVerify (openDir configured none []) store := by
  have ends : execute (step plainVerify) (openDir configured none []) renamedInBetween = some _ :=
    rfl
  refine ⟨_, Run.of_execute (fun _ _ _ move => move) .start ends, ?_⟩
  intro serialisable
  rcases serialisable.serial with ⟨order, perm, serial⟩
  rcases List.perm_pair.mp perm with rfl | rfl
  · revert serial
    decide
  · revert serial
    decide

end CredentialStore

end Rustnzb.Web
