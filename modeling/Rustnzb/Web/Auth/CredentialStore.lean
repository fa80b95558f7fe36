import Rustnzb.Lib.Run

/-!
# The account of the web login

`CredentialStore` holds the account behind a lock and in `credentials.json`. A writer keeps the lock
through the whole of `persist`, so writing is one step, and any part of `persist` may fail in it.
`change_credentials` reads the account in an earlier step.

Argon2 is a parameter: `verify` is its check of a password against a hash, and the hash that
`hash_password` returns is drawn by the step (`none` when it fails). The texts of the log and the
login throttle are left out. `returned` is not in the source: the calls that have returned.
-/

namespace Rustnzb.Web

/-- `LOCKED_HASH`: no password matches it. -/
def lockedHash : String := ""

structure Account where
  username : String
  passwordHash : String
  deriving DecidableEq

structure CredentialsFile where
  username : String
  passwordHash : Option String
  password : Option String
  deriving DecidableEq

/-- What a file of the data directory holds. -/
inductive CredentialsText where
  | json (file : CredentialsFile)
  /-- Not the layout of `credentials.json`, or not written to its end. -/
  | invalid
  deriving DecidableEq

structure CredentialsDir where
  credentials : Option CredentialsText
  tmp : Option CredentialsText
  deriving DecidableEq

inductive PersistStep where
  | unlinkStale
  | openTmp
  | write
  | chmod
  | fsync
  | rename
  | unlinkTmp
  | syncDirectory
  deriving DecidableEq

inductive CredentialError where
  | io
  | alreadyConfigured
  | notConfigured
  | wrongPassword
  | empty
  deriving DecidableEq

namespace CredentialsDir

def removeTmp (dir : CredentialsDir) (failing : Bool) : CredentialsDir :=
  if failing then dir else { dir with tmp := none }

/-- The rest of `persist` when the stale file is gone, or could not be removed. -/
def replace (dir : CredentialsDir) (faults : List PersistStep) (json : CredentialsFile) :
    CredentialsDir × Except CredentialError Unit :=
  -- `O_EXCL`
  if .openTmp ∈ faults ∨ dir.tmp.isSome then (dir, .error .io)
  else if .write ∈ faults then
    ({ dir with tmp := some .invalid }.removeTmp (.unlinkTmp ∈ faults), .error .io)
  else if .chmod ∈ faults ∨ .fsync ∈ faults ∨ .rename ∈ faults then
    ({ dir with tmp := some (.json json) }.removeTmp (.unlinkTmp ∈ faults), .error .io)
  else
    ({ credentials := some (.json json), tmp := none },
      if .syncDirectory ∈ faults then .error .io else .ok ())

def persist (dir : CredentialsDir) (faults : List PersistStep) (json : CredentialsFile) :
    CredentialsDir × Except CredentialError Unit :=
  (dir.removeTmp (.unlinkStale ∈ faults)).replace faults json

def persistAccount (dir : CredentialsDir) (faults : List PersistStep) (account : Account) :
    CredentialsDir × Except CredentialError Unit :=
  dir.persist faults
    { username := account.username, passwordHash := some account.passwordHash, password := none }

def account (dir : CredentialsDir) : Option Account :=
  match dir.credentials with
  | some (.json file) =>
      file.passwordHash.map fun hash => { username := file.username, passwordHash := hash }
  | some .invalid | none => none

def Renames (dir : CredentialsDir) (faults : List PersistStep) : Prop :=
  (dir.removeTmp (.unlinkStale ∈ faults)).tmp = none ∧
    ∀ part ∈ [.openTmp, .write, .chmod, .fsync, PersistStep.rename], part ∉ faults

instance (dir : CredentialsDir) (faults : List PersistStep) : Decidable (dir.Renames faults) :=
  inferInstanceAs (Decidable (_ ∧ _))

theorem account_removeTmp (dir : CredentialsDir) (failing : Bool) :
    (dir.removeTmp failing).account = dir.account := by
  rw [removeTmp]
  split
  · rfl
  · rfl

theorem account_tmp (dir : CredentialsDir) (tmp : Option CredentialsText) :
    { dir with tmp := tmp }.account = dir.account := rfl

/-- Only the rename changes the account on disk, and when it is reached nothing but the sync of the
directory can fail. -/
theorem persistAccount_spec (dir : CredentialsDir) (faults : List PersistStep) (account : Account) :
    (dir.Renames faults ∧ (dir.persistAccount faults account).1.account = some account ∧
      (dir.persistAccount faults account).2 =
        if .syncDirectory ∈ faults then .error .io else .ok ()) ∨
    (¬dir.Renames faults ∧ (dir.persistAccount faults account).1.account = dir.account ∧
      (dir.persistAccount faults account).2 = .error .io) := by
  simp only [persistAccount, persist, replace, Renames]
  split
  next stops =>
    refine Or.inr ⟨?_, account_removeTmp .., rfl⟩
    rintro ⟨noTmp, passes⟩
    simp_all
  next opens =>
    split
    next fails =>
      refine Or.inr ⟨?_, ?_, rfl⟩
      · simp [fails]
      · rw [account_removeTmp, account_tmp, account_removeTmp]
    next writes =>
      split
      next fails =>
        refine Or.inr ⟨?_, ?_, rfl⟩
        · rintro ⟨-, passes⟩
          simp_all
        · rw [account_removeTmp, account_tmp, account_removeTmp]
      next passes =>
        refine Or.inl ⟨?_, rfl, rfl⟩
        simp_all

end CredentialsDir

inductive CredentialRequest where
  | setCredentials (username password : String)
  | initializeCredentials (username password : String)
  | changeCredentials (currentPassword : String) (newUsername newPassword : Option String)
  deriving DecidableEq

/-- A call in progress, with the account that `change_credentials` has read. -/
inductive CredentialCall where
  | hashing (request : CredentialRequest) (read : Option Account)
  | writing (request : CredentialRequest) (read : Option Account) (hash : String)

/-- A call that has returned. `hash` is the hash it has drawn. -/
structure CredentialReturn where
  request : CredentialRequest
  hash : String
  result : Except CredentialError Unit

structure CredentialStore where
  account : Option Account
  dir : CredentialsDir
  calls : List CredentialCall
  returned : List CredentialReturn

inductive CredentialEvent where
  | begin (request : CredentialRequest)
  | hashed (call : ℕ) (hash : Option String)
  /-- A call has the write lock, and `faults` fail in `persist`. -/
  | write (call : ℕ) (faults : List PersistStep)

namespace CredentialRequest

/-- What a request does before it takes the write lock: what it has read, unless it is refused. -/
def read (verify : String → String → Bool) (account : Option Account) :
    CredentialRequest → Except CredentialError (Option Account)
  | .setCredentials .. | .initializeCredentials .. => .ok none
  | .changeCredentials currentPassword newUsername newPassword =>
      match account with
      | none => .error .notConfigured
      | some account =>
          if !verify currentPassword account.passwordHash then .error .wrongPassword
          else if newUsername.getD account.username = "" ∨ newPassword = some "" then .error .empty
          else .ok (some account)

def newPassword : CredentialRequest → Option String
  | .setCredentials _ password | .initializeCredentials _ password => some password
  | .changeCredentials _ _ newPassword => newPassword

def write (account : Option Account) (read : Option Account) (hash : String) :
    CredentialRequest → Except CredentialError Account
  | .setCredentials username _ => .ok { username := username, passwordHash := hash }
  | .initializeCredentials username _ =>
      if account.isSome then .error .alreadyConfigured
      else .ok { username := username, passwordHash := hash }
  | .changeCredentials _ newUsername _ =>
      match read with
      | none => .error .notConfigured
      | some read =>
          -- another change has landed while the password was verified
          if account.map (·.passwordHash) ≠ some read.passwordHash then .error .wrongPassword
          else .ok { username := newUsername.getD read.username, passwordHash := hash }

end CredentialRequest

namespace CredentialStore

def finish (store : CredentialStore) (request : CredentialRequest) (hash : String)
    (result : Except CredentialError Unit) : CredentialStore :=
  { store with
    returned := store.returned ++ [{ request := request, hash := hash, result := result }] }

def begin (verify : String → String → Bool) (store : CredentialStore)
    (request : CredentialRequest) : CredentialStore :=
  match request.read verify store.account with
  | .error error => store.finish request "" (.error error)
  | .ok read =>
      match request.newPassword, read with
      | none, some account =>
          { store with calls := store.calls ++ [.writing request read account.passwordHash] }
      | _, _ => { store with calls := store.calls ++ [.hashing request read] }

def write (store : CredentialStore) (request : CredentialRequest) (read : Option Account)
    (hash : String) (faults : List PersistStep) : CredentialStore :=
  match request.write store.account read hash with
  | .error error => store.finish request hash (.error error)
  | .ok account =>
      let (dir, result) := store.dir.persistAccount faults account
      match result with
      | .error error => { store with dir := dir }.finish request hash (.error error)
      | .ok () => { store with dir := dir, account := some account }.finish request hash (.ok ())

/-- `none`: the event cannot happen now. -/
def step (verify : String → String → Bool) (store : CredentialStore) :
    CredentialEvent → Option CredentialStore
  | .begin request => some (store.begin verify request)
  | .hashed call hash =>
      match store.calls[call]? with
      | some (.hashing request read) =>
          let store := { store with calls := store.calls.eraseIdx call }
          match hash with
          | none => some (store.finish request "" (.error .io))
          | some hash => some { store with calls := store.calls ++ [.writing request read hash] }
      | _ => none
  | .write call faults =>
      match store.calls[call]? with
      | some (.writing request read hash) =>
          some ({ store with calls := store.calls.eraseIdx call }.write request read hash faults)
      | _ => none

def Step (verify : String → String → Bool) (store : CredentialStore) (event : CredentialEvent)
    (next : CredentialStore) : Prop :=
  store.step verify event = some next

/-! ## Opening the store -/

def lock (store : CredentialStore) (username : String) : CredentialStore :=
  { store with account := some { username := username, passwordHash := lockedHash } }

/-- `load`, with the hash that the hasher returns for a stored password. -/
def load (store : CredentialStore) (file : CredentialsFile) (hashed : Option String)
    (faults : List PersistStep) : CredentialStore :=
  match file.passwordHash, file.password, hashed with
  | some hash, none, _ =>
      { store with account := some { username := file.username, passwordHash := hash } }
  | some hash, some _, _ | none, some _, some hash =>
      let account := { username := file.username, passwordHash := hash }
      { store with dir := (store.dir.persistAccount faults account).1, account := some account }
  | none, some _, none | none, none, _ => store.lock file.username

/-- `open`, on a data directory that can be read. -/
def openDir (dir : CredentialsDir) (hashed : Option String) (faults : List PersistStep) :
    CredentialStore :=
  let store := { account := none, dir := dir, calls := [], returned := [] }
  match dir.credentials with
  | some (.json file) => store.load file hashed faults
  | some .invalid => store.lock ""
  | none => store

end CredentialStore

end Rustnzb.Web
