import Mathlib.Data.List.DropRight
import Mathlib.Data.String.Basic
import Mathlib.Tactic

/-!
# The damage ledger

`apply_outcome` folds the outcomes of one article into a record of a few fields. Its verdict is
compared with a definition over the whole history: only the outcomes since the set of servers last
changed count, a body that was seen settles it, and a hole is confirmed by a refusal at which every
enabled server has last refused, some time after the first refusal.

Times are in nanoseconds. The key and the message id of a record decide nothing and are left out.
-/

namespace Rustnzb.Core

def nanosPerSec : ℤ := 1000000000

/-- How long a confirmed hole is believed before a re-probe. -/
def holeTtl : ℤ := 24 * 60 * 60 * nanosPerSec

/-- Minimum gap between the first refusal and the confirming one. -/
def holeConfirmDelay : ℤ := nanosPerSec

inductive LedgerState where
  | unknown
  | provisionalMissing
  | confirmedMissing
  | present
  | unservableFile
  deriving DecidableEq

inductive EvidenceKind where
  | refused
  | transport
  deriving DecidableEq

structure ServerEvidence where
  server : String
  kind : EvidenceKind
  time : ℤ

inductive Outcome where
  | present
  | refused (server : String)
  | transport (server : String)
  deriving DecidableEq

structure LedgerRecord where
  state : LedgerState
  evidence : List ServerEvidence
  firstRefusedAt : Option ℤ
  confirmedAt : Option ℤ
  expiresAt : Option ℤ
  serverFingerprint : String

def serverFingerprint (servers : List String) : String :=
  ",".intercalate (servers.insertionSort (· ≤ ·)).dedup

def recordEvidence (server : String) (kind : EvidenceKind) (now : ℤ) :
    List ServerEvidence → List ServerEvidence
  | [] => [{ server := server, kind := kind, time := now }]
  | existing :: rest =>
      if existing.server = server then { existing with kind := kind, time := now } :: rest
      else existing :: recordEvidence server kind now rest

namespace LedgerRecord

def new : LedgerRecord where
  state := .unknown
  evidence := []
  firstRefusedAt := none
  confirmedAt := none
  expiresAt := none
  serverFingerprint := ""

def refusedServers (record : LedgerRecord) : List String :=
  (record.evidence.filter fun evidence => evidence.kind = .refused).map ServerEvidence.server

def keyedTo (record : LedgerRecord) (fingerprint : String) : LedgerRecord :=
  if record.serverFingerprint = fingerprint then record
  else { new with serverFingerprint := fingerprint }

/-- How one outcome changes a record of the right set of servers, and whether a confirming re-ask is
needed. -/
def apply (record : LedgerRecord) (outcome : Outcome) (now : ℤ) (enabledServers : List String) :
    LedgerRecord × Bool :=
  match outcome with
  | .present =>
      ({ record with
        state := .present, firstRefusedAt := none, confirmedAt := none, expiresAt := none }, false)
  | .transport server =>
      ({ record with evidence := recordEvidence server .transport now record.evidence }, false)
  | .refused server =>
      let record := { record with evidence := recordEvidence server .refused now record.evidence }
      if record.state = .present ∨ record.state = .confirmedMissing then (record, false)
      else
        let first := record.firstRefusedAt.getD now
        let record := { record with firstRefusedAt := some first, state := .provisionalMissing }
        let allRefused := !enabledServers.isEmpty &&
          enabledServers.all fun server => record.refusedServers.contains server
        let elapsedOk := decide (now - first ≥ holeConfirmDelay)
        if allRefused && elapsedOk then
          ({ record with
            state := .confirmedMissing, confirmedAt := some now, expiresAt :=
              some (now + holeTtl) },
            false)
        else (record, true)

end LedgerRecord

def applyOutcome (record : LedgerRecord) (outcome : Outcome) (now : ℤ)
    (enabledServers : List String) : LedgerRecord × Bool :=
  (record.keyedTo (serverFingerprint enabledServers)).apply outcome now enabledServers

/-- An outcome with the time it was observed and the servers that were enabled then. -/
structure Note where
  outcome : Outcome
  time : ℤ
  enabledServers : List String

namespace Note

def fingerprint (note : Note) : String := serverFingerprint note.enabledServers

def about (server : String) (note : Note) : Option EvidenceKind :=
  match note.outcome with
  | .present => none
  | .refused other => if other = server then some .refused else none
  | .transport other => if other = server then some .transport else none

def isRefusal (note : Note) : Bool :=
  match note.outcome with
  | .refused _ => true
  | _ => false

end Note

def recordOf (notes : List Note) : LedgerRecord :=
  notes.foldl
    (fun record note => (applyOutcome record note.outcome note.time note.enabledServers).1)
    .new

section History

def sinceChange (notes : List Note) : List Note :=
  match notes.getLast? with
  | none => []
  | some last => notes.rtakeWhile fun note => note.fingerprint = last.fingerprint

def latest (notes : List Note) (server : String) : Option EvidenceKind :=
  (notes.filterMap (Note.about server)).getLast?

def firstRefusal (notes : List Note) : Option ℤ :=
  (notes.find? Note.isRefusal).map Note.time

def SeenPresent (notes : List Note) : Prop :=
  ∃ note ∈ notes, note.outcome = .present

def SeenRefusal (notes : List Note) : Prop :=
  ∃ note ∈ notes, note.isRefusal = true

/-- The note is a refusal at which every enabled server has last refused, long enough after the
first refusal. -/
structure Confirms (before : List Note) (note : Note) : Prop where
  refusal : note.isRefusal = true
  everywhere : ∀ server ∈ note.enabledServers, latest (before ++ [note]) server = some .refused
  delayed : ∃ first ∈ firstRefusal (before ++ [note]), first + holeConfirmDelay ≤ note.time

def Confirmed (notes : List Note) : Prop :=
  ∃ before note after, notes = before ++ note :: after ∧ note.enabledServers ≠ [] ∧
    Confirms before note

open Classical in
noncomputable def verdict (confirmed : List Note → Prop) (notes : List Note) : LedgerState :=
  if SeenPresent notes then .present
  else if confirmed notes then .confirmedMissing
  else if SeenRefusal notes then .provisionalMissing
  else .unknown

section Verdict

variable {confirmed : List Note → Prop} {notes others : List Note}

theorem verdict_eq_present_iff : verdict confirmed notes = .present ↔ SeenPresent notes := by
  unfold verdict
  split_ifs <;> simp_all

theorem verdict_eq_confirmedMissing_iff :
    verdict confirmed notes = .confirmedMissing ↔ ¬SeenPresent notes ∧ confirmed notes := by
  unfold verdict
  split_ifs <;> simp_all

theorem verdict_eq_provisionalMissing_iff : verdict confirmed notes = .provisionalMissing ↔
    ¬SeenPresent notes ∧ ¬confirmed notes ∧ SeenRefusal notes := by
  unfold verdict
  split_ifs <;> simp_all

theorem verdict_congr (present : SeenPresent notes ↔ SeenPresent others)
    (missing : confirmed notes ↔ confirmed others)
    (refusal : SeenRefusal notes ↔ SeenRefusal others) :
    verdict confirmed notes = verdict confirmed others := by
  unfold verdict
  split_ifs <;> simp_all

end Verdict

variable {notes : List Note} {note : Note}

theorem latest_append (server : String) :
    latest (notes ++ [note]) server = (note.about server).or (latest notes server) := by
  cases about : note.about server <;> simp [latest, about, List.getLast?_append]

theorem firstRefusal_append : firstRefusal (notes ++ [note]) =
    (firstRefusal notes).or (if note.isRefusal then some note.time else none) := by
  simp only [firstRefusal, List.find?_append, List.find?_singleton]
  cases notes.find? Note.isRefusal with
  | none => split <;> simp_all
  | some => simp

theorem isSome_firstRefusal : (firstRefusal notes).isSome = true ↔ SeenRefusal notes := by
  simp [firstRefusal, SeenRefusal]

theorem seenPresent_append :
    SeenPresent (notes ++ [note]) ↔ SeenPresent notes ∨ note.outcome = .present := by
  simp [SeenPresent, or_and_right, exists_or]

theorem seenRefusal_append :
    SeenRefusal (notes ++ [note]) ↔ SeenRefusal notes ∨ note.isRefusal = true := by
  simp [SeenRefusal, or_and_right, exists_or]

theorem confirmed_append : Confirmed (notes ++ [note]) ↔
    Confirmed notes ∨ note.enabledServers ≠ [] ∧ Confirms notes note := by
  constructor
  · rintro ⟨before, one, after, split, some, confirms⟩
    rcases List.eq_nil_or_concat after with rfl | ⟨rest, last, rfl⟩
    · rcases List.append_inj' split rfl with ⟨rfl, same⟩
      cases same
      exact Or.inr ⟨some, confirms⟩
    · rw [List.concat_eq_append, ← List.cons_append, ← List.append_assoc] at split
      exact Or.inl ⟨before, one, rest, (List.append_inj' split rfl).1, some, confirms⟩
  · rintro (⟨before, one, after, rfl, some, confirms⟩ | ⟨some, confirms⟩)
    · exact ⟨before, one, after ++ [note], by simp, some, confirms⟩
    · exact ⟨notes, note, [], by simp, some, confirms⟩

theorem sinceChange_append (notes : List Note) (note : Note) :
    sinceChange (notes ++ [note]) =
      if ∀ last ∈ notes.getLast?, last.fingerprint = note.fingerprint then
        sinceChange notes ++ [note]
      else [note] := by
  simp only [sinceChange, List.getLast?_append, List.getLast?_singleton, Option.some_or]
  rw [List.rtakeWhile_concat_pos _ _ _ (by simp)]
  rcases List.eq_nil_or_concat notes with rfl | ⟨before, last, rfl⟩
  · simp
  · simp only [List.concat_eq_append, List.getLast?_append, List.getLast?_singleton,
      Option.some_or, Option.mem_def, Option.some.injEq, forall_eq']
    by_cases same : last.fingerprint = note.fingerprint
    · simp [same]
    · rw [List.rtakeWhile_concat_neg _ _ _ (by simpa using same)]
      simp [same]

end History

theorem map_server_recordEvidence {server : String} {kind : EvidenceKind} {now : ℤ}
    {evidence : List ServerEvidence} (unique : (evidence.map ServerEvidence.server).Nodup) :
    ((recordEvidence server kind now evidence).map ServerEvidence.server).Nodup := by
  have members : ∀ list other, other ∈ (recordEvidence server kind now list).map
      ServerEvidence.server → other = server ∨ other ∈ list.map ServerEvidence.server := by
    intro list
    induction list with
    | nil => simp [recordEvidence]
    | cons first rest ih =>
        intro other mem
        simp only [recordEvidence] at mem
        split at mem
        · exact Or.inr (by simpa using mem)
        · rcases List.mem_cons.mp mem with rfl | mem
          · exact Or.inr (by simp)
          · exact (ih other mem).imp_right (List.mem_cons_of_mem _)
  induction evidence with
  | nil => simp [recordEvidence]
  | cons first rest ih =>
      simp only [recordEvidence]
      simp only [List.map_cons, List.nodup_cons] at unique
      split
      · simpa using unique
      next other =>
        simp only [List.map_cons, List.nodup_cons]
        refine ⟨fun mem => ?_, ih unique.2⟩
        rcases members rest _ mem with same | mem
        · exact other same
        · exact unique.1 mem

def Recorded (evidence : List ServerEvidence) (server : String) (kind : EvidenceKind) : Prop :=
  ∃ entry ∈ evidence, entry.server = server ∧ entry.kind = kind

theorem recorded_recordEvidence {server other : String} {kind otherKind : EvidenceKind} {now : ℤ}
    {evidence : List ServerEvidence} (unique : (evidence.map ServerEvidence.server).Nodup) :
    Recorded (recordEvidence server kind now evidence) other otherKind ↔
      if server = other then kind = otherKind else Recorded evidence other otherKind := by
  induction evidence with
  | nil =>
      by_cases same : server = other <;> simp [Recorded, recordEvidence, same]
  | cons first rest ih =>
      simp only [List.map_cons, List.nodup_cons, List.mem_map, not_exists, not_and] at unique
      simp only [recordEvidence]
      split
      next isFirst =>
        by_cases same : server = other
        · subst same
          simp only [Recorded, List.exists_mem_cons_iff, isFirst, true_and, if_true,
            or_iff_left_iff_imp, forall_exists_index, and_imp]
          -- no later entry is about the same server
          intro entry mem isServer
          exact absurd (isServer.trans isFirst.symm) (unique.1 entry mem)
        · simp [Recorded, isFirst, same]
      next notFirst =>
        simp only [Recorded, List.exists_mem_cons_iff] at ih ⊢
        rw [ih unique.2]
        by_cases same : server = other
        · subst same
          simp [notFirst]
        · simp [same]

/-- What a record says about a history with one set of servers. -/
structure Reflects (notes : List Note) (record : LedgerRecord) : Prop where
  unique : (record.evidence.map ServerEvidence.server).Nodup
  evidence : ∀ server kind,
    Recorded record.evidence server kind ↔ latest notes server = some kind
  first : ¬SeenPresent notes → record.firstRefusedAt = firstRefusal notes
  state : record.state = verdict Confirmed notes

namespace Reflects

variable {notes : List Note} {note : Note} {record : LedgerRecord}

theorem init (fingerprint : String) :
    Reflects [] { LedgerRecord.new with serverFingerprint := fingerprint } where
  unique := by simp [LedgerRecord.new]
  evidence := by simp [LedgerRecord.new, Recorded, latest]
  first := by simp [LedgerRecord.new, firstRefusal]
  state := by simp [LedgerRecord.new, verdict, SeenPresent, Confirmed, SeenRefusal]

theorem evidence_append (reflects : Reflects notes record) {server : String} {kind : EvidenceKind}
    (about : ∀ other, note.about other = if server = other then some kind else none)
    (other : String) (otherKind : EvidenceKind) :
    Recorded (recordEvidence server kind note.time record.evidence) other otherKind ↔
      latest (notes ++ [note]) other = some otherKind := by
  rw [recorded_recordEvidence reflects.unique, latest_append, about, reflects.evidence]
  by_cases same : server = other <;> simp [same]

theorem mem_refusedServers (server : String) :
    server ∈ record.refusedServers ↔ Recorded record.evidence server .refused := by
  simp only [LedgerRecord.refusedServers, Recorded, List.mem_map, List.mem_filter,
    decide_eq_true_eq]
  constructor
  · rintro ⟨entry, ⟨mem, refused⟩, same⟩
    exact ⟨entry, mem, same, refused⟩
  · rintro ⟨entry, mem, same, refused⟩
    exact ⟨entry, ⟨mem, refused⟩, same⟩

theorem present (reflects : Reflects notes record) (isPresent : note.outcome = .present) :
    Reflects (notes ++ [note]) (record.apply .present note.time note.enabledServers).1 where
  unique := reflects.unique
  evidence server kind := by
    rw [latest_append, Note.about, isPresent]
    exact reflects.evidence server kind
  first notPresent := absurd (seenPresent_append.mpr (Or.inr isPresent)) notPresent
  state := by
    have seen : SeenPresent (notes ++ [note]) := seenPresent_append.mpr (Or.inr isPresent)
    simp [LedgerRecord.apply, verdict, seen]

theorem transport (reflects : Reflects notes record) {server : String}
    (isTransport : note.outcome = .transport server) :
    Reflects (notes ++ [note])
      (record.apply (.transport server) note.time note.enabledServers).1 := by
  have noRefusal : note.isRefusal = false := by simp [Note.isRefusal, isTransport]
  have samePresent : SeenPresent (notes ++ [note]) ↔ SeenPresent notes := by
    simp [seenPresent_append, isTransport]
  constructor
  case unique => exact map_server_recordEvidence reflects.unique
  case evidence =>
    apply reflects.evidence_append
    intro other
    simp [Note.about, isTransport]
  case first =>
    rw [samePresent, firstRefusal_append]
    simpa [noRefusal, LedgerRecord.apply] using reflects.first
  case state =>
    have sameConfirmed : Confirmed (notes ++ [note]) ↔ Confirmed notes := by
      rw [confirmed_append]
      refine ⟨fun either => either.resolve_right fun confirms => ?_, Or.inl⟩
      simpa [noRefusal] using confirms.2.refusal
    have sameRefusal : SeenRefusal (notes ++ [note]) ↔ SeenRefusal notes := by
      simp [seenRefusal_append, noRefusal]
    exact reflects.state.trans (verdict_congr samePresent sameConfirmed sameRefusal).symm

theorem refused (reflects : Reflects notes record) {server : String}
    (isRefused : note.outcome = .refused server) :
    Reflects (notes ++ [note])
      (record.apply (.refused server) note.time note.enabledServers).1 := by
  have isRefusal : note.isRefusal = true := by simp [Note.isRefusal, isRefused]
  have samePresent : SeenPresent (notes ++ [note]) ↔ SeenPresent notes := by
    simp [seenPresent_append, isRefused]
  have unique : ((recordEvidence server .refused note.time record.evidence).map
      ServerEvidence.server).Nodup := map_server_recordEvidence reflects.unique
  have evidence : ∀ other otherKind,
      Recorded (recordEvidence server .refused note.time record.evidence) other otherKind ↔
        latest (notes ++ [note]) other = some otherKind := by
    apply reflects.evidence_append
    intro other
    simp [Note.about, isRefused]
  have seenRefusal : SeenRefusal (notes ++ [note]) := seenRefusal_append.mpr (Or.inr isRefusal)
  simp only [LedgerRecord.apply]
  split
  next settled =>
    -- the verdict stands, only the evidence is kept up to date
    rw [reflects.state, verdict_eq_present_iff, verdict_eq_confirmedMissing_iff] at settled
    refine ⟨unique, evidence, fun notPresent => ?_, ?_⟩
    · rw [samePresent] at notPresent
      rcases settled.resolve_left notPresent with ⟨-, before, one, after, rfl, -, confirms⟩
      have seen : SeenRefusal (before ++ one :: after) :=
        ⟨one, List.mem_append_right _ List.mem_cons_self, confirms.refusal⟩
      rw [firstRefusal_append, Option.or_of_isSome (isSome_firstRefusal.mpr seen)]
      exact reflects.first notPresent
    · apply reflects.state.trans
      rcases settled with present | ⟨notPresent, confirmed⟩
      · rw [verdict_eq_present_iff.mpr present,
          verdict_eq_present_iff.mpr (samePresent.mpr present)]
      · rw [verdict_eq_confirmedMissing_iff.mpr ⟨notPresent, confirmed⟩, eq_comm]
        apply verdict_eq_confirmedMissing_iff.mpr
        exact ⟨by rwa [samePresent], confirmed_append.mpr (Or.inl confirmed)⟩
  next unsettled =>
    rw [reflects.state, verdict_eq_present_iff, verdict_eq_confirmedMissing_iff] at unsettled
    push Not at unsettled
    rcases unsettled with ⟨notPresent, notConfirmed⟩
    replace notConfirmed := notConfirmed notPresent
    have first : some (record.firstRefusedAt.getD note.time) =
        firstRefusal (notes ++ [note]) := by
      rw [firstRefusal_append, reflects.first notPresent, isRefusal]
      cases firstRefusal notes <;> rfl
    have confirms : Confirms notes note ↔
        (∀ other ∈ note.enabledServers,
          Recorded (recordEvidence server .refused note.time record.evidence) other .refused) ∧
        holeConfirmDelay ≤ note.time - record.firstRefusedAt.getD note.time := by
      constructor
      · rintro ⟨-, everywhere, at_, firstMem, delayed⟩
        rw [← first, Option.mem_def, Option.some.injEq] at firstMem
        exact ⟨fun other mem => (evidence other .refused).mpr (everywhere other mem), by omega⟩
      · rintro ⟨everywhere, delayed⟩
        exact ⟨isRefusal, fun other mem => (evidence other .refused).mp (everywhere other mem),
          _, first.symm, by omega⟩
    split
    next isConfirmed =>
      simp only [Bool.and_eq_true, Bool.not_eq_true', List.isEmpty_eq_false_iff, List.all_eq_true,
        List.contains_iff_mem, mem_refusedServers, decide_eq_true_eq, ge_iff_le] at isConfirmed
      refine ⟨unique, evidence, fun _ => first, ?_⟩
      apply Eq.symm
      apply verdict_eq_confirmedMissing_iff.mpr
      refine ⟨by rwa [samePresent], confirmed_append.mpr (Or.inr ?_)⟩
      exact ⟨isConfirmed.1.1, confirms.mpr ⟨isConfirmed.1.2, isConfirmed.2⟩⟩
    next notYet =>
      simp only [Bool.and_eq_true, Bool.not_eq_true', List.isEmpty_eq_false_iff, List.all_eq_true,
        List.contains_iff_mem, mem_refusedServers, decide_eq_true_eq, ge_iff_le] at notYet
      refine ⟨unique, evidence, fun _ => first, ?_⟩
      apply Eq.symm
      apply verdict_eq_provisionalMissing_iff.mpr
      refine ⟨by rwa [samePresent], fun confirmed => ?_, seenRefusal⟩
      rcases confirmed_append.mp confirmed with before | ⟨some, now⟩
      · exact notConfirmed before
      · have both := confirms.mp now
        exact notYet ⟨⟨some, both.1⟩, both.2⟩

theorem append (reflects : Reflects notes record) (note : Note) :
    Reflects (notes ++ [note]) (record.apply note.outcome note.time note.enabledServers).1 := by
  cases outcome : note.outcome with
  | present => exact reflects.present outcome
  | transport server => exact reflects.transport outcome
  | refused server => exact reflects.refused outcome

end Reflects

theorem recordOf_append (notes : List Note) (note : Note) : recordOf (notes ++ [note]) =
    (applyOutcome (recordOf notes) note.outcome note.time note.enabledServers).1 := by
  simp [recordOf]

theorem serverFingerprint_apply (record : LedgerRecord) (note : Note) :
    (record.apply note.outcome note.time note.enabledServers).1.serverFingerprint =
      record.serverFingerprint := by
  simp only [LedgerRecord.apply]
  repeat' split
  all_goals rfl

theorem serverFingerprint_recordOf (notes : List Note) :
    (recordOf notes).serverFingerprint = (notes.getLast?.map Note.fingerprint).getD "" := by
  induction notes using List.reverseRecOn with
  | nil => rfl
  | append_singleton notes note ih =>
      rw [recordOf_append, applyOutcome, serverFingerprint_apply]
      simp only [LedgerRecord.keyedTo]
      split
      next same => simpa [Note.fingerprint] using same
      · simp [Note.fingerprint]

theorem reflects_recordOf (notes : List Note) : Reflects (sinceChange notes) (recordOf notes) := by
  induction notes using List.reverseRecOn with
  | nil => exact Reflects.init ""
  | append_singleton notes note ih =>
      rw [recordOf_append, sinceChange_append]
      have append : ∀ start, Reflects start ((recordOf notes).keyedTo note.fingerprint) →
          Reflects (start ++ [note])
            (applyOutcome (recordOf notes) note.outcome note.time note.enabledServers).1 :=
        fun _ reflects => reflects.append note
      have keyed := serverFingerprint_recordOf notes
      split
      next same =>
        apply append
        simp only [LedgerRecord.keyedTo]
        split
        · exact ih
        next other =>
          -- only a record without outcomes
          rcases List.eq_nil_or_concat notes with rfl | ⟨before, last, rfl⟩
          · exact Reflects.init _
          · simp_all
      next changed =>
        push Not at changed
        rcases changed with ⟨last, isLast, other⟩
        rw [Option.mem_def] at isLast
        apply append []
        rw [LedgerRecord.keyedTo, if_neg (by simpa [keyed, isLast] using other)]
        exact Reflects.init _

def LedgerRecord.missing (record : LedgerRecord) : LedgerState × Option ℤ × Option ℤ × Option ℤ :=
  (record.state, record.firstRefusedAt, record.confirmedAt, record.expiresAt)

theorem missing_transport {notes : List Note} {note : Note} {server : String}
    (isTransport : note.outcome = .transport server)
    (same : ∀ last ∈ notes.getLast?, last.fingerprint = note.fingerprint) :
    (recordOf (notes ++ [note])).missing = (recordOf notes).missing := by
  rw [recordOf_append, applyOutcome, isTransport]
  simp only [LedgerRecord.keyedTo, LedgerRecord.apply, serverFingerprint_recordOf]
  split
  · rfl
  next changed =>
    rcases List.eq_nil_or_concat notes with rfl | ⟨before, last, rfl⟩
    · rfl
    · simp_all [Note.fingerprint]

def Separable (servers : List String) : Prop :=
  ∀ server ∈ servers, server ≠ "" ∧ ',' ∉ server.toList

theorem mem_iff_of_serverFingerprint_eq {servers others : List String}
    (separable : Separable servers) (separable' : Separable others)
    (same : serverFingerprint servers = serverFingerprint others) (server : String) :
    server ∈ servers ↔ server ∈ others := by
  have members : ∀ ids : List String, ∀ id, id ∈ (ids.insertionSort (· ≤ ·)).dedup ↔ id ∈ ids := by
    simp
  -- the parts of a fingerprint are the ids, when there are any
  have parts : ∀ ids, Separable ids → ids ≠ [] →
      (serverFingerprint ids).toList.splitOn ',' =
        (ids.insertionSort (· ≤ ·)).dedup.map String.toList := by
    intro ids separable some
    rw [serverFingerprint, String.toList_intercalate]
    apply List.splitOn_intercalate
    · intro part partMem
      rcases List.mem_map.mp partMem with ⟨id, mem, rfl⟩
      exact (separable id ((members ids id).mp mem)).2
    · rcases List.exists_mem_of_ne_nil ids some with ⟨id, mem⟩
      exact List.ne_nil_of_mem (List.mem_map_of_mem ((members ids id).mpr mem))
  have empty : ∀ ids, Separable ids → serverFingerprint ids = "" → ids = [] := by
    intro ids separable isEmpty
    by_contra some
    have split := parts ids separable some
    rw [isEmpty] at split
    rcases List.exists_mem_of_ne_nil ids some with ⟨id, mem⟩
    have isPart := List.mem_map_of_mem (f := String.toList) ((members ids id).mpr mem)
    rw [← split] at isPart
    exact (separable id mem).1 (by simpa using isPart)
  by_cases none : servers = []
  · subst none
    rw [empty others separable' same.symm]
  · by_cases none' : others = []
    · subst none'
      rw [empty servers separable same]
    · have split := parts servers separable none
      rw [same, parts others separable' none'] at split
      have sameIds := List.map_injective_iff.mpr (fun _ _ => String.toList_inj.mp) split
      rw [← members servers, ← members others, sameIds]

theorem ledger_verdict (notes : List Note) :
    (recordOf notes).state = verdict Confirmed (sinceChange notes) ∧
    (∀ note server, note.outcome = .transport server →
      (∀ last ∈ notes.getLast?, last.fingerprint = note.fingerprint) →
        (recordOf (notes ++ [note])).missing = (recordOf notes).missing) ∧
    ∀ servers others, Separable servers → Separable others →
      serverFingerprint servers = serverFingerprint others →
        ∀ server, server ∈ servers ↔ server ∈ others :=
  ⟨(reflects_recordOf notes).state, fun _ _ => missing_transport,
    fun _ _ => mem_iff_of_serverFingerprint_eq⟩

theorem ledger_verdict_one_server : ∃ notes note,
    verdict Confirmed (sinceChange notes) = .confirmedMissing ∧
      note.outcome = .transport "a" ∧
      (recordOf (notes ++ [note])).missing = (recordOf notes).missing := by
  let notes : List Note := [
    { outcome := .refused "a", time := 0, enabledServers := ["a"] },
    { outcome := .refused "a", time := nanosPerSec, enabledServers := ["a"] }]
  let note : Note := { outcome := .transport "a", time := 0, enabledServers := ["a"] }
  have ledger := ledger_verdict notes
  exact ⟨notes, note, ledger.1.symm.trans rfl, rfl,
    ledger.2.1 note "a" rfl (by simp [notes, note, Note.fingerprint])⟩

/-- Without enabled servers a hole is never confirmed; and a comma in an id joins two ids. -/
theorem not_ledger_verdict_unguarded :
    (¬∀ notes, (recordOf notes).state = verdict
      (fun notes => ∃ before note after, notes = before ++ note :: after ∧ Confirms before note)
      (sinceChange notes)) ∧
    ¬∀ servers others, serverFingerprint servers = serverFingerprint others →
      ∀ server, server ∈ servers ↔ server ∈ others := by
  constructor
  · intro unguarded
    let refusal := fun time : ℤ =>
      ({ outcome := .refused "a", time := time, enabledServers := [] } : Note)
    have isConfirmed : (recordOf [refusal 0, refusal nanosPerSec]).state = .confirmedMissing := by
      rw [unguarded, verdict_eq_confirmedMissing_iff]
      have all : sinceChange [refusal 0, refusal nanosPerSec] =
          [refusal 0, refusal nanosPerSec] := rfl
      rw [all]
      refine ⟨by simp [SeenPresent, refusal], [refusal 0], refusal nanosPerSec, [], rfl, ?_⟩
      exact ⟨rfl, by simp [refusal], 0, rfl, le_rfl⟩
    have isProvisional : (recordOf [refusal 0, refusal nanosPerSec]).state =
        .provisionalMissing := rfl
    simp [isProvisional] at isConfirmed
  · intro injective
    have joined : serverFingerprint ["a,b"] = serverFingerprint ["a", "b"] := by decide
    simpa using (injective _ _ joined "a,b").mp (by simp)

end Rustnzb.Core
