import Rustnzb.Lib.Registry
import Rustnzb.Lib.Run
import Rustnzb.Dispatch.WorkItem

/-!
# Calls that admit a job

Any number of calls of `add_job`, `add_job_idempotent` and `retry_history_entry` run at the same
time, each one section under a lock after the other. In between jobs finish, are removed and leave
the history, and the process may stop: the calls are gone then, and the queue table is read anew.
Every statement and every change of a directory may fail.

A work directory goes by the id of its job. What the duplicate policy says is left open. Not in the
source are the ids that were given out, what was ever bound and activated under a key, which jobs
were removed or have reached the history, and the answers of the calls that returned.
-/

namespace Rustnzb.Web.Admission

open Dispatch (JobId)
open Lib (Registry)

abbrev CallId := ℕ

abbrev Path := List String

structure CategoryConfig where
  name : String
  outputDir : Option Path
  deriving DecidableEq

structure Config where
  completeDir : Path
  categories : List CategoryConfig
  deriving DecidableEq

structure NzbJob where
  name : String
  category : String
  outputDir : Path
  deriving DecidableEq

structure QueueAdmission where
  payloadDigest : String
  jobId : JobId
  deriving DecidableEq

inductive Kind where
  | idempotent (key payloadDigest : String)
  | addJob
  /-- A history retry; `adopts`: in the directory of the failed attempt. -/
  | retry (adopts : Bool)
  deriving DecidableEq

inductive Answer where
  | inserted (admission : QueueAdmission)
  | existing (admission : QueueAdmission)
  /-- `Ok` of a call without a key. -/
  | added
  | conflict
  | error
  deriving DecidableEq

def Answer.ofAdmission : Option QueueAdmission → Answer
  | some admission => .inserted admission
  | none => .added

inductive Phase where
  | entering
  | admitting
  | activating (admission : Option QueueAdmission)
  | unused (admission : QueueAdmission)
  | returning (answer : Answer)
  deriving DecidableEq

structure Call where
  id : JobId
  kind : Kind
  job : NzbJob
  known : Option QueueAdmission
  failed : Bool
  phase : Phase
  deriving DecidableEq

structure Store where
  jobs : Registry JobId NzbJob
  rows : Registry JobId NzbJob
  history : List JobId
  admissions : Registry String QueueAdmission
  dirs : List JobId
  issued : List JobId
  bindings : List (String × QueueAdmission)
  activated : List (String × JobId)
  departed : List JobId

structure QueueManager extends Store where
  calls : Registry CallId Call
  answers : List (Call × Answer)

inductive Label where
  | begin (call : CallId) (kind : Kind) (id : JobId) (job : NzbJob)
  /-- The first lookup of the key, or the checks of `admit_job`. -/
  | enter (call : CallId) (read : Bool)
  /-- The section under the lock: `refused` by the duplicate policy; the directory is `made`; the
  row and the binding are `committed`. -/
  | admitJob (call : CallId) (read refused made committed : Bool)
  | activate (call : CallId)
  | removeDir (call : CallId) (removed : Bool)
  | return (call : CallId)
  /-- `move_to_history`: the row of the history is `inserted`, that of the queue `removed`. -/
  | finish (id : JobId) (inserted removed dirRemoved : Bool)
  | leave (id : JobId)
  | removeJob (id : JobId) (read inserted removed dirRemoved : Bool)
  | forget (ids : List JobId)
  /-- `swept` are the directories that the sweep deletes. -/
  | restart (listed : Bool) (swept : List JobId)
  deriving DecidableEq

def isControl (char : Char) : Bool :=
  char.toNat ≤ 0x1f || (0x7f ≤ char.toNat && char.toNat ≤ 0x9f)

def isBidiOrInvisibleControl (char : Char) : Bool :=
  (0x202a ≤ char.toNat && char.toNat ≤ 0x202e) || (0x2066 ≤ char.toNat && char.toNat ≤ 0x2069) ||
    [0x200e, 0x200f, 0x061c, 0x200b, 0xfeff].contains char.toNat

def safeComponent (value : String) : Bool :=
  value ≠ "" && value ≠ "." && value ≠ ".." &&
    value.toList.all fun char =>
      char ≠ '/' && char ≠ '\\' && !isControl char && !isBidiOrInvisibleControl char

namespace Config

variable (config : Config)

def configuredRoot (category : String) : Option Path :=
  (config.categories.find? fun configured => configured.name = category).bind
    CategoryConfig.outputDir

def admits (job : NzbJob) : Bool :=
  safeComponent job.category && safeComponent job.name &&
    (config.completeDir.isPrefixOf job.outputDir ||
      (config.configuredRoot job.category).any fun root => root.isPrefixOf job.outputDir)

end Config

namespace Call

def fail (call : Call) : Call := { call with failed := true, phase := .returning .error }

def enter (call : Call) (phase : Phase) : Call := { call with phase := phase }

/-- `create_dir_all` makes a directory for this job. -/
def ownsDir (call : Call) : Bool :=
  match call.kind with
  | .retry adopts => !adopts
  | _ => true

def activation (call : Call) : List (String × JobId) :=
  match call.kind with
  | .idempotent key _ => [(key, call.id)]
  | _ => []

end Call

namespace QueueManager

variable (config : Config) (manager : QueueManager)

def init : QueueManager where
  jobs := ∅
  rows := ∅
  history := []
  admissions := ∅
  dirs := []
  issued := []
  bindings := []
  activated := []
  departed := []
  calls := ∅
  answers := []

def setCall (id : CallId) (call : Call) : QueueManager :=
  { manager with calls := manager.calls.insert id call }

/-- `queue_admission_observe`, as far as the admission goes. -/
def queueAdmissionObserve (kind : Kind) : Option QueueAdmission :=
  match kind with
  | .idempotent key _ => manager.admissions.lookup key
  | _ => none

def begin (call : CallId) (kind : Kind) (id : JobId) (job : NzbJob) : QueueManager :=
  { manager with
    issued := id :: manager.issued
    calls := manager.calls.insert call {
      id := id
      kind := kind
      job := job
      known := manager.queueAdmissionObserve kind
      failed := false
      phase := .entering } }

def answerBound (payloadDigest : String) (admission : QueueAdmission) : Answer :=
  if admission.payloadDigest ≠ payloadDigest then .conflict else .existing admission

def enter (id : CallId) (call : Call) (read : Bool) : QueueManager :=
  match call.kind with
  | .idempotent key payloadDigest =>
      if read then
        match manager.admissions.lookup key with
        | some admission =>
            manager.setCall id (call.enter (.returning (answerBound payloadDigest admission)))
        | none => manager.setCall id (call.enter .admitting)
      else manager.setCall id call.fail
  | _ =>
      if config.admits call.job then manager.setCall id (call.enter .admitting)
      else manager.setCall id (call.enter (.returning .error))

/-- The policy applies to a first admission, and not to a retry. -/
def isRefused (call : Call) (refused : Bool) : Bool :=
  match call.kind with
  | .idempotent key _ => (manager.admissions.lookup key).isNone && refused
  | .addJob => refused
  | .retry _ => false

/-- A retry that adopts a directory finds it there. -/
def makeDir (call : Call) : QueueManager :=
  { manager with
    dirs := if call.ownsDir then manager.dirs.insert call.id else manager.dirs }

def insertRow (call : Call) : QueueManager :=
  { manager with rows := manager.rows.insert call.id call.job }

def bind (key : String) (admission : QueueAdmission) : QueueManager :=
  { manager with
    admissions := manager.admissions.insert key admission
    bindings := manager.bindings ++ [(key, admission)] }

def commit (id : CallId) (call : Call) : QueueManager :=
  match call.kind with
  | .idempotent key payloadDigest =>
      match manager.admissions.lookup key with
      | some admission =>
          if admission.payloadDigest ≠ payloadDigest then
            manager.setCall id (call.enter (.returning .conflict))
          else manager.setCall id (call.enter (.unused admission))
      | none =>
          let admission : QueueAdmission := ⟨payloadDigest, call.id⟩
          ((manager.insertRow call).bind key admission).setCall id
            (call.enter (.activating (some admission)))
  | _ => (manager.insertRow call).setCall id (call.enter (.activating none))

def admitJob (id : CallId) (call : Call) (read refused made committed : Bool) : QueueManager :=
  if !read then manager.setCall id call.fail
  else if manager.isRefused call refused then manager.setCall id (call.enter (.returning .error))
  else if !made then manager.setCall id call.fail
  else if committed then (manager.makeDir call).commit id call
  else (manager.makeDir call).setCall id call.fail

def insertJob (call : Call) : QueueManager :=
  { manager with
    jobs := manager.jobs.insert call.id call.job
    activated := manager.activated ++ call.activation }

def activate (id : CallId) (call : Call) (admission : Option QueueAdmission) : QueueManager :=
  (manager.insertJob call).setCall id (call.enter (.returning (.ofAdmission admission)))

def dropDir (id : JobId) (removed : Bool) : QueueManager :=
  { manager with
    dirs := if removed then manager.dirs.filter (· ≠ id) else manager.dirs }

def removeDir (id : CallId) (call : Call) (admission : QueueAdmission) (removed : Bool) :
    QueueManager :=
  (manager.dropDir call.id removed).setCall id (call.enter (.returning (.existing admission)))

def answer (id : CallId) (call : Call) (answer : Answer) : QueueManager :=
  { manager with
    calls := manager.calls.erase id
    answers := manager.answers ++ [(call, answer)] }

def dropRow (id : JobId) (removed : Bool) : QueueManager :=
  { manager with rows := if removed then manager.rows.erase id else manager.rows }

def recordHistory (id : JobId) (inserted : Bool) : QueueManager :=
  { manager with
    history := if inserted then manager.history.insert id else manager.history
    departed := if inserted then id :: manager.departed else manager.departed }

def finish (id : JobId) (inserted removed dirRemoved : Bool) : QueueManager :=
  let persisted := decide (id ∈ manager.history) || inserted
  ((manager.recordHistory id persisted).dropRow id removed).dropDir id (persisted && dirRemoved)

def leave (id : JobId) : QueueManager :=
  { manager with jobs := manager.jobs.erase id }

def removeJob (id : JobId) (read inserted removed dirRemoved : Bool) : QueueManager :=
  let left := manager.leave id
  if read then
    let recorded := left.recordHistory id inserted
    let dropped := (recorded.dropRow id removed).dropDir id dirRemoved
    if removed then { dropped with departed := id :: dropped.departed } else dropped
  else left

def forget (ids : List JobId) : QueueManager :=
  { manager with history := manager.history.filter (· ∉ ids) }

def restoreFromDb (listed : Bool) (swept : List JobId) : QueueManager :=
  { manager with
    calls := ∅
    dirs := manager.dirs.filter (· ∉ swept)
    jobs := if listed then manager.rows else ∅ }

/-- One section; the id of a new job was never given out before. -/
def next (label : Label) : Option QueueManager :=
  match label with
  | .begin call kind id job =>
      if call ∈ manager.calls ∨ id ∈ manager.issued then none
      else some (manager.begin call kind id job)
  | .enter id read =>
      (manager.calls.lookup id).bind fun call =>
        match call.phase with
        | .entering => some (manager.enter config id call read)
        | _ => none
  | .admitJob id read refused made committed =>
      (manager.calls.lookup id).bind fun call =>
        match call.phase with
        | .admitting => some (manager.admitJob id call read refused made committed)
        | _ => none
  | .activate id =>
      (manager.calls.lookup id).bind fun call =>
        match call.phase with
        | .activating admission => some (manager.activate id call admission)
        | _ => none
  | .removeDir id removed =>
      (manager.calls.lookup id).bind fun call =>
        match call.phase with
        | .unused admission => some (manager.removeDir id call admission removed)
        | _ => none
  | .return id =>
      (manager.calls.lookup id).bind fun call =>
        match call.phase with
        | .returning answer => some (manager.answer id call answer)
        | _ => none
  | .finish id inserted removed dirRemoved =>
      if id ∈ manager.jobs then some (manager.finish id inserted removed dirRemoved) else none
  | .leave id => some (manager.leave id)
  | .removeJob id read inserted removed dirRemoved =>
      if id ∈ manager.jobs then some (manager.removeJob id read inserted removed dirRemoved)
      else none
  | .forget ids => some (manager.forget ids)
  | .restart listed swept => some (manager.restoreFromDb listed swept)

def Step (config : Config) (manager : QueueManager) (label : Label) (manager' : QueueManager) :
    Prop :=
  manager.next config label = some manager'

end QueueManager

end Rustnzb.Web.Admission
