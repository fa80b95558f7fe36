import Rustnzb.Core.DamageLedger

/-!
# Holes that are confirmed again

`consult` tells a reader to skip an article whose hole is confirmed, until the hole expires. The
article is then asked for again, and may be refused again by every enabled server.
-/

namespace Rustnzb.Core

structure Consult where
  skip : Bool
  reprobe : Bool
  deriving DecidableEq

def consult (record : Option LedgerRecord) (now : ℤ) : Consult :=
  match record with
  | some record =>
      if record.state = .confirmedMissing ∨ record.state = .unservableFile then
        match record.expiresAt with
        | some expiry =>
            if expiry ≤ now then { skip := false, reprobe := true }
            else { skip := true, reprobe := false }
        | none => { skip := true, reprobe := false }
      else { skip := false, reprobe := false }
  | none => { skip := false, reprobe := false }

/-! ### Histories under one set of servers -/

/-- Every outcome was observed while the same servers were enabled. -/
def Unchanged (servers : List String) (notes : List Note) : Prop :=
  ∀ note ∈ notes, ∀ server, server ∈ note.enabledServers ↔ server ∈ servers

/-- After an expiry every server refuses once more, the last time long enough after another
refusal, and no body is seen. -/
structure Renews (servers : List String) (expiry : ℤ) (notes : List Note) (last : Note) : Prop where
  absent : ¬SeenPresent (notes ++ [last])
  everywhere : ∀ server ∈ servers,
    ∃ note ∈ notes ++ [last], note.outcome = .refused server ∧ expiry ≤ note.time
  refusal : last.isRefusal = true
  expired : expiry ≤ last.time
  delayed : ∃ first ∈ notes ++ [last], first.isRefusal = true ∧ expiry ≤ first.time ∧
    first.time + holeConfirmDelay ≤ last.time

/-- A history whose last outcome confirms a hole, for the first time or once more. -/
inductive ConfirmedAt (servers : List String) : List Note → ℤ → Prop where
  | first {before : List Note} {note : Note} (absent : ¬SeenPresent before)
      (fresh : ¬Confirmed before) (some : note.enabledServers ≠ [])
      (confirms : Confirms before note) : ConfirmedAt servers (before ++ [note]) note.time
  | again {before notes : List Note} {last : Note} {time : ℤ}
      (confirmed : ConfirmedAt servers before time)
      (renews : Renews servers (time + holeTtl) notes last) :
      ConfirmedAt servers (before ++ (notes ++ [last])) last.time

def LastPresent (notes : List Note) : Prop :=
  ∃ before note after, notes = before ++ note :: after ∧ note.outcome = .present ∧
    ¬SeenRefusal after

/-- What a reader is told after a history. A hole is believed for a while from each time it was
confirmed on, and the article then asked for until the hole is confirmed once more. -/
structure BelievedAgain (servers : List String) (notes : List Note) : Prop where
  skips : ∀ before since time, notes = before ++ since → ConfirmedAt servers before time →
    ¬SeenPresent since → ∀ now, time ≤ now → now < time + holeTtl →
      consult (some (recordOf notes)) now = { skip := true, reprobe := false }
  reprobes : ∀ before since time, notes = before ++ since → ConfirmedAt servers before time →
    ¬SeenPresent since →
      (∀ others last rest, since = others ++ last :: rest →
        ¬Renews servers (time + holeTtl) others last) →
      ∀ now, time + holeTtl ≤ now →
        consult (some (recordOf notes)) now = { skip := false, reprobe := true }
  present : LastPresent notes → ∀ now, (consult (some (recordOf notes)) now).skip = false

section Fingerprint

variable {servers : List String} {notes : List Note}

theorem serverFingerprint_congr {ids others : List String}
    (same : ∀ id, id ∈ ids ↔ id ∈ others) : serverFingerprint ids = serverFingerprint others := by
  have sorted : ∀ list : List String,
      ((list.insertionSort (· ≤ ·)).dedup).Pairwise (· ≤ ·) := fun list =>
    (List.pairwise_insertionSort (· ≤ ·) list).sublist (List.dedup_sublist _)
  have perm : ((ids.insertionSort (· ≤ ·)).dedup).Perm (others.insertionSort (· ≤ ·)).dedup := by
    rw [List.perm_ext_iff_of_nodup (List.nodup_dedup _) (List.nodup_dedup _)]
    intro id
    rw [List.mem_dedup, List.mem_dedup, List.mem_insertionSort, List.mem_insertionSort]
    exact same id
  rw [serverFingerprint, serverFingerprint, perm.eq_of_pairwise' (sorted ids) (sorted others)]

theorem Unchanged.sinceChange (unchanged : Unchanged servers notes) :
    sinceChange notes = notes := by
  have fingerprints : ∀ note ∈ notes, note.fingerprint = serverFingerprint servers :=
    fun note mem => serverFingerprint_congr (unchanged note mem)
  rw [Core.sinceChange]
  rcases last : notes.getLast? with _ | note
  · rw [List.getLast?_eq_none_iff.mp last]
  · have lastMem := List.mem_of_getLast? last
    apply List.rtakeWhile_eq_self_iff.mpr
    intro other mem
    rw [decide_eq_true_eq, fingerprints other mem, fingerprints note lastMem]

theorem Unchanged.append {since : List Note} (unchanged : Unchanged servers (notes ++ since)) :
    Unchanged servers notes := fun note mem => unchanged note (List.mem_append_left since mem)

theorem Unchanged.of_prefix {seen : List Note} (unchanged : Unchanged servers notes)
    (begins : seen <+: notes) : Unchanged servers seen :=
  fun note mem => unchanged note (begins.subset mem)

theorem Unchanged.missing_keyedTo {note : Note} (unchanged : Unchanged servers (notes ++ [note])) :
    ((recordOf notes).keyedTo note.fingerprint).missing = (recordOf notes).missing := by
  rw [LedgerRecord.keyedTo, serverFingerprint_recordOf]
  split
  · rfl
  next changed =>
    rcases last : notes.getLast? with _ | other
    · rw [List.getLast?_eq_none_iff.mp last]
      rfl
    · have mem : other ∈ notes ++ [note] :=
        List.mem_append_left _ (List.mem_of_getLast? last)
      have same : other.fingerprint = note.fingerprint :=
        (serverFingerprint_congr (unchanged other mem)).trans
          (serverFingerprint_congr (unchanged note (by simp))).symm
      rw [last] at changed
      exact absurd same changed

end Fingerprint

/-! ### The hole of a record -/

def LedgerRecord.HoleUntil (record : LedgerRecord) (expiry : ℤ) : Prop :=
  record.state = .confirmedMissing ∧ record.expiresAt = some expiry

section Hole

variable {servers : List String} {notes before since : List Note} {note : Note} {expiry time : ℤ}
  {record : LedgerRecord}

theorem holeUntil_congr {other : LedgerRecord} (same : record.missing = other.missing) :
    record.HoleUntil expiry ↔ other.HoleUntil expiry := by
  simp only [LedgerRecord.missing, Prod.mk.injEq] at same
  rw [LedgerRecord.HoleUntil, LedgerRecord.HoleUntil, same.1, same.2.2.2]

theorem LedgerRecord.HoleUntil.apply (hole : record.HoleUntil expiry)
    (absent : note.outcome ≠ .present) :
    (record.apply note.outcome note.time note.enabledServers).1.HoleUntil expiry := by
  cases outcome : note.outcome with
  | present => exact absurd outcome absent
  | transport server => exact hole
  | refused server =>
      simp only [LedgerRecord.apply, hole.1, or_true, if_true]
      exact ⟨rfl, hole.2⟩

theorem holeUntil_of_confirms (fresh : record.state ≠ .confirmedMissing)
    (confirmed : (record.apply note.outcome note.time note.enabledServers).1.state =
      .confirmedMissing) :
    (record.apply note.outcome note.time note.enabledServers).1.HoleUntil
      (note.time + holeTtl) := by
  refine ⟨confirmed, ?_⟩
  cases outcome : note.outcome with
  | present =>
      rw [outcome] at confirmed
      cases confirmed
  | transport server =>
      rw [outcome] at confirmed
      exact absurd confirmed fresh
  | refused server =>
      rw [outcome] at confirmed
      simp only [LedgerRecord.apply] at confirmed ⊢
      split at confirmed
      next sticky => exact absurd confirmed fresh
      next open' =>
        rw [if_neg open']
        split at confirmed
        next confirming => rw [if_pos confirming]
        · cases confirmed

theorem recordOf_append_of_unchanged (unchanged : Unchanged servers (notes ++ [note]))
    (hole : (recordOf notes).HoleUntil expiry) (absent : note.outcome ≠ .present) :
    (recordOf (notes ++ [note])).HoleUntil expiry := by
  rw [recordOf_append, applyOutcome]
  apply LedgerRecord.HoleUntil.apply _ absent
  exact (holeUntil_congr unchanged.missing_keyedTo).mpr hole

theorem holeUntil_append (unchanged : Unchanged servers (before ++ since))
    (hole : (recordOf before).HoleUntil expiry) (absent : ¬SeenPresent since) :
    (recordOf (before ++ since)).HoleUntil expiry := by
  induction since using List.reverseRecOn with
  | nil => rwa [List.append_nil]
  | append_singleton since note ih =>
      rw [seenPresent_append, not_or] at absent
      rw [← List.append_assoc] at unchanged ⊢
      exact recordOf_append_of_unchanged unchanged (ih unchanged.append absent.1) absent.2

theorem holeUntil_of_first (unchanged : Unchanged servers (before ++ [note]))
    (absent : ¬SeenPresent before) (fresh : ¬Confirmed before) (some : note.enabledServers ≠ [])
    (confirms : Confirms before note) :
    (recordOf (before ++ [note])).HoleUntil (note.time + holeTtl) := by
  have stateBefore := (ledger_verdict before).1
  rw [unchanged.append.sinceChange] at stateBefore
  have stateAfter := (ledger_verdict (before ++ [note])).1
  rw [unchanged.sinceChange] at stateAfter
  have isRefusal : note.outcome ≠ .present := by
    intro isPresent
    have refusal := confirms.refusal
    rw [Note.isRefusal, isPresent] at refusal
    cases refusal
  have open' : (recordOf before).state ≠ .confirmedMissing := by
    rw [stateBefore]
    intro missing
    exact fresh (verdict_eq_confirmedMissing_iff.mp missing).2
  have confirmed : (recordOf (before ++ [note])).state = .confirmedMissing := by
    rw [stateAfter, verdict_eq_confirmedMissing_iff, seenPresent_append, not_or]
    exact ⟨⟨absent, isRefusal⟩, confirmed_append.mpr (.inr ⟨some, confirms⟩)⟩
  have keyed : ((recordOf before).keyedTo note.fingerprint).state ≠ .confirmedMissing := by
    have same := unchanged.missing_keyedTo
    simp only [LedgerRecord.missing, Prod.mk.injEq] at same
    rwa [same.1]
  rw [recordOf_append, applyOutcome] at confirmed ⊢
  exact holeUntil_of_confirms keyed confirmed

theorem exists_holeUntil (confirmed : ConfirmedAt servers before time)
    (unchanged : Unchanged servers (before ++ since)) (absent : ¬SeenPresent since) :
    ∃ first ≤ time, (recordOf (before ++ since)).HoleUntil (first + holeTtl) := by
  induction confirmed generalizing since with
  | @first before note absentBefore fresh some confirms =>
      have hole := holeUntil_of_first unchanged.append absentBefore fresh some confirms
      exact ⟨note.time, le_rfl, holeUntil_append unchanged hole absent⟩
  | @again before notes last time confirmed renews ih =>
      rw [List.append_assoc] at unchanged ⊢
      have absentAll : ¬SeenPresent (notes ++ [last] ++ since) := by
        rintro ⟨note, mem, isPresent⟩
        rcases List.mem_append.mp mem with earlier | later
        · exact renews.absent ⟨note, earlier, isPresent⟩
        · exact absent ⟨note, later, isPresent⟩
      rcases ih unchanged absentAll with ⟨first, le, hole⟩
      have expired := renews.expired
      have ttl : 0 ≤ holeTtl := by decide
      exact ⟨first, by omega, hole⟩

theorem consult_of_holeUntil (hole : record.HoleUntil expiry) (now : ℤ) :
    consult (some record) now =
      if expiry ≤ now then { skip := false, reprobe := true }
      else { skip := true, reprobe := false } := by
  simp only [consult, hole.1, hole.2, true_or, if_true]

theorem consult_of_seenPresent (unchanged : Unchanged servers notes) (seen : SeenPresent notes)
    (now : ℤ) : consult (some (recordOf notes)) now = { skip := false, reprobe := false } := by
  have state := (ledger_verdict notes).1
  rw [unchanged.sinceChange, verdict_eq_present_iff.mpr seen] at state
  simp [consult, state]

end Hole

def Renewed (servers : List String) (notes : List Note) : Prop :=
  ∃ before others last time, ConfirmedAt servers before time ∧
    Renews servers (time + holeTtl) others last ∧ before ++ (others ++ [last]) <+: notes

/-- All along a history readers are told what they should be exactly if no hole is confirmed again
after it expired. -/
theorem believedAgain_iff {servers : List String} {notes : List Note}
    (unchanged : Unchanged servers notes) :
    (∀ seen, seen <+: notes → BelievedAgain servers seen) ↔ ¬Renewed servers notes := by
  constructor
  · rintro believed ⟨before, others, last, time, confirmed, renews, begins⟩
    have unchangedSeen := unchanged.of_prefix begins
    have again := ConfirmedAt.again confirmed renews
    have nothing : ¬SeenPresent ([] : List Note) := by simp [SeenPresent]
    have ttl : 0 < holeTtl := by decide
    have skips := (believed _ begins).skips _ [] last.time (List.append_nil _).symm again nothing
      last.time le_rfl (by omega)
    rcases exists_holeUntil confirmed unchangedSeen renews.absent with ⟨first, le, hole⟩
    have expired := renews.expired
    rw [consult_of_holeUntil hole, if_pos (by omega)] at skips
    simp at skips
  · intro never seen begins
    have unchangedSeen := unchanged.of_prefix begins
    have hole_of : ∀ before since time, seen = before ++ since →
        ConfirmedAt servers before time → ¬SeenPresent since →
          (recordOf seen).HoleUntil (time + holeTtl) := by
      intro before since time split confirmed absent
      subst split
      cases confirmed with
      | first absentBefore fresh some confirms =>
          have first := holeUntil_of_first unchangedSeen.append absentBefore fresh some confirms
          exact holeUntil_append unchangedSeen first absent
      | again confirmed renews =>
          have early := (List.prefix_append _ since).trans begins
          exact absurd ⟨_, _, _, _, confirmed, renews, early⟩ never
    refine ⟨?skips, ?reprobes, ?present⟩
    case skips =>
      intro before since time split confirmed absent now _ early
      rw [consult_of_holeUntil (hole_of before since time split confirmed absent),
        if_neg (Int.not_le.mpr early)]
    case reprobes =>
      intro before since time split confirmed absent _ now late
      rw [consult_of_holeUntil (hole_of before since time split confirmed absent), if_pos late]
    case present =>
      rintro ⟨before, note, after, rfl, isPresent, -⟩ now
      rw [consult_of_seenPresent unchangedSeen ⟨note, by simp, isPresent⟩]

def refusalAt (time : ℤ) : Note :=
  { outcome := .refused "a", time := time, enabledServers := ["a"] }

/-- A hole that is confirmed, and confirmed again after a day. -/
def renewedHole : List Note :=
  [refusalAt 0, refusalAt nanosPerSec] ++
    ([refusalAt (holeTtl + 2 * nanosPerSec)] ++ [refusalAt (holeTtl + 3 * nanosPerSec)])

theorem confirmedAt_refusals :
    ConfirmedAt ["a"] [refusalAt 0, refusalAt nanosPerSec] nanosPerSec := by
  have absent : ¬SeenPresent [refusalAt 0] := by simp [SeenPresent, refusalAt]
  have fresh : ¬Confirmed [refusalAt 0] := by
    rintro ⟨before, note, after, split, -, confirms⟩
    rcases List.append_eq_singleton_iff.mp split.symm with ⟨rfl, last⟩ | ⟨-, none⟩
    · rcases confirms.delayed with ⟨first, isFirst, late⟩
      rw [(List.cons.inj last).1] at isFirst late
      cases isFirst
      exact absurd late (by decide)
    · cases none
  have confirms : Confirms [refusalAt 0] (refusalAt nanosPerSec) := by
    refine ⟨rfl, ?_, 0, rfl, le_rfl⟩
    intro server mem
    rw [refusalAt, List.mem_singleton] at mem
    rw [mem]
    decide
  exact ConfirmedAt.first absent fresh (List.cons_ne_nil "a" []) confirms

theorem not_renewed_of_within {servers : List String} {notes : List Note} {since : ℤ}
    (within : ∀ note ∈ notes, since ≤ note.time ∧ note.time < since + holeTtl) :
    ¬Renewed servers notes := by
  rintro ⟨before, others, last, time, confirmed, renews, begins⟩
  have before_le : ∃ note ∈ before, note.time = time := by
    cases confirmed <;> exact ⟨_, by simp, rfl⟩
  rcases before_le with ⟨note, mem, rfl⟩
  have early := (within note (begins.subset (List.mem_append_left _ mem))).1
  have late := (within last (begins.subset (by simp))).2
  have expired := renews.expired
  omega

/-- A hole is confirmed and believed for a day. -/
theorem believedAgain_iff_confirmedHole :
    (∀ seen, seen <+: [refusalAt 0, refusalAt nanosPerSec] → BelievedAgain ["a"] seen) ∧
      (consult (some (recordOf [refusalAt 0, refusalAt nanosPerSec])) holeTtl).skip = true ∧
      (consult (some (recordOf [refusalAt 0, refusalAt nanosPerSec]))
        (nanosPerSec + holeTtl)).reprobe = true := by
  have unchanged : Unchanged ["a"] [refusalAt 0, refusalAt nanosPerSec] := by
    simp [Unchanged, refusalAt]
  have never : ¬Renewed ["a"] [refusalAt 0, refusalAt nanosPerSec] :=
    @not_renewed_of_within _ _ 0 (by decide)
  have believed := (believedAgain_iff unchanged).mpr never
  have whole := believed _ (List.prefix_refl _)
  have nothing : ¬SeenPresent ([] : List Note) := by simp [SeenPresent]
  refine ⟨believed, ?_, ?_⟩
  · rw [whole.skips _ [] _ (List.append_nil _).symm confirmedAt_refusals nothing _ (by decide)
      (by decide)]
  · rw [whole.reprobes _ [] _ (List.append_nil _).symm confirmedAt_refusals nothing (by simp) _
      le_rfl]

/-- A hole that was confirmed again is asked for at once. -/
theorem not_believedAgain_renewedHole :
    Unchanged ["a"] renewedHole ∧ ¬BelievedAgain ["a"] renewedHole := by
  have unchanged : Unchanged ["a"] renewedHole := by
    simp [Unchanged, renewedHole, refusalAt]
  refine ⟨unchanged, fun believed => ?_⟩
  have renews : Renews ["a"] (nanosPerSec + holeTtl) [refusalAt (holeTtl + 2 * nanosPerSec)]
      (refusalAt (holeTtl + 3 * nanosPerSec)) := by
    refine ⟨?_, ?_, rfl, ?_, ?_⟩
    · simp [SeenPresent, refusalAt]
    · intro server mem
      rw [List.mem_singleton.mp mem]
      exact ⟨_, List.mem_cons_self, rfl, by decide⟩
    · decide
    · exact ⟨_, List.mem_cons_self, rfl, by decide, by decide⟩
  have skips := believed.skips renewedHole [] _ (List.append_nil _).symm
    (ConfirmedAt.again confirmedAt_refusals renews) (by simp [SeenPresent])
    (holeTtl + 3 * nanosPerSec) le_rfl (by decide)
  revert skips
  decide

end Rustnzb.Core
