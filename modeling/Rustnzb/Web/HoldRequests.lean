import Rustnzb.Web.PauseHolds

/-!
# What a change of the holds asks of the jobs

The jobs are paused when the queue gets its first hold and put back when it loses the last one. The
flag that a restart reads first says whether there is any.
-/

namespace Rustnzb.Web

namespace HoldGate

variable {gate : HoldGate}

/-- The settings say whether the queue is paused. -/
structure Flagged (gate : HoldGate) : Prop where
  saved : gate.Saved
  flag : PauseHolds.readFlag gate.settings "globally_paused" = gate.holds.any

theorem flagged_new : new.Flagged := ⟨saved_new, rfl⟩

theorem flagged_publishHolds (gate : HoldGate) (holds : PauseHolds) :
    (gate.publishHolds holds).Flagged := by
  refine ⟨saved_publishHolds gate holds, ?_⟩
  rcases held : holds.any with _ | _ <;>
    simp [publishHolds, PauseHolds.persistHolds, PauseHolds.rows, PauseHolds.readFlag,
      PauseHolds.flag, Function.update, held]

/-- The jobs are paused when the queue gets its first hold; what asks nothing of them leaves the
queue as it is, paused or not. -/
structure Asks (gate : HoldGate) (change : HoldGate × JobsRequest) : Prop where
  flagged : change.1.Flagged
  nothing : change.2 = .nothing → change.1.holds.any = gate.holds.any
  pause : change.2 = .pause → change.1.holds.any = true

theorem asks_pauseForHold (flagged : gate.Flagged) (apply : PauseHolds → PauseHolds)
    (holds : (apply gate.holds).cover.any = true) : gate.Asks (gate.pauseForHold apply) where
  flagged := flagged_publishHolds gate _
  nothing asked := by
    rw [pauseForHold] at asked
    split at asked
    next paused =>
      rw [flagged.saved.shown] at paused
      exact Eq.trans holds paused.symm
    · cases asked
  pause _ := holds

theorem asks_pauseAll (flagged : gate.Flagged) : gate.Asks gate.pauseAll := by
  apply asks_pauseForHold flagged
  simp [PauseHolds.cover, PauseHolds.any]

theorem asks_pauseAllWithHold (flagged : gate.Flagged) (since : ℤ) :
    gate.Asks (gate.pauseAllWithHold (some since)) := by
  apply asks_pauseForHold flagged
  rcases gate.holds.user with _ | _ <;> simp [PauseHolds.cover, PauseHolds.any]

theorem asks_resumeHold (gate : HoldGate) (apply : PauseHolds → PauseHolds)
    (lifts : (apply gate.holds).any = true → gate.holds.any = true) :
    gate.Asks (gate.resumeHold apply) where
  flagged := flagged_publishHolds gate _
  nothing asked := by
    rw [resumeHold] at asked
    dsimp only at asked
    split at asked
    next held => exact Eq.trans held (lifts held).symm
    · cases asked
  pause asked := by
    rw [resumeHold] at asked
    dsimp only at asked
    split at asked <;> cases asked

theorem asks_resumeAll (gate : HoldGate) : gate.Asks gate.resumeAll := by
  apply asks_resumeHold gate
  simp [PauseHolds.resume, PauseHolds.any]

theorem asks_clearDiskHold (gate : HoldGate) : gate.Asks gate.clearDiskHold := by
  apply asks_resumeHold gate
  simp only [PauseHolds.any, Option.isSome_none, Bool.or_false, Bool.or_eq_true]
  tauto

theorem asks_schedule {change : HoldGate × JobsRequest} (flagged : gate.Flagged)
    (after : change.1.Flagged) (sameDisk : change.1.holds.disk = gate.holds.disk)
    (user : change.1.holds.user = true → gate.holds.user = true)
    (pauses : change.2 = .pause ↔ change.1.holds.schedule = true ∧ gate.holds.schedule = false ∧
      gate.globallyPaused = false)
    (resumes : change.2 ≠ .pause → change.1.holds.any = false → gate.holds.any = true →
      change.2 = .resume) : gate.Asks change where
  flagged := after
  nothing isNothing := by
    have shown := flagged.saved.shown
    rw [isNothing] at pauses resumes
    simp only [reduceCtorEq, false_iff, ne_eq, not_false_eq_true, forall_const, imp_false]
      at pauses resumes
    simp only [PauseHolds.any] at shown resumes ⊢
    rw [shown] at pauses
    rw [sameDisk] at resumes ⊢
    revert user pauses resumes
    rcases change.1.holds.user with _ | _ <;> rcases gate.holds.user with _ | _ <;>
      rcases gate.holds.disk.isSome with _ | _ <;> rcases change.1.holds.schedule with _ | _ <;>
        rcases gate.holds.schedule with _ | _ <;> simp
  pause isPause := by
    rw [PauseHolds.any, (pauses.mp isPause).1, Bool.or_true]

theorem asks_expireUserHold (flagged : gate.Flagged) : gate.Asks gate.expireUserHold := by
  apply asks_schedule flagged (flagged_publishHolds gate _) rfl
  · exact fun user => by cases user
  · rw [expireUserHold]
    dsimp only
    split
    next pauses => simpa [and_assoc, publishHolds] using pauses
    next stays =>
      constructor
      · intro asked
        split at asked <;> cases asked
      · intro pauses
        apply absurd _ stays
        simpa [and_assoc, publishHolds] using pauses
  · rw [expireUserHold]
    dsimp only
    intro notPause none _
    split
    next pauses => exact absurd (if_pos pauses) notPause
    · apply if_pos
      rw [Bool.not_eq_true']
      exact none

theorem asks_applyScheduleHold (flagged : gate.Flagged) (windows : List String) :
    gate.Asks (gate.applyScheduleHold windows) := by
  have evaluated : (gate.applyScheduleHold windows).1.holds = gate.holds.evaluate windows := by
    rw [applyScheduleHold]
    dsimp only
    split
    next same => exact same.symm
    · rfl
  have after : (gate.applyScheduleHold windows).1.Flagged := by
    rw [applyScheduleHold]
    dsimp only
    split
    · exact flagged
    · exact flagged_publishHolds gate _
  apply asks_schedule flagged after
  · rw [evaluated]
    rfl
  · rw [evaluated]
    exact fun user => user
  · rw [evaluated, applyScheduleHold]
    dsimp only
    split
    next pauses => simpa [and_assoc] using pauses
    next stays =>
      constructor
      · intro asked
        split at asked <;> cases asked
      · intro pauses
        apply absurd _ stays
        simpa [and_assoc] using pauses
  · intro notPause none held
    rw [evaluated] at none
    rw [applyScheduleHold] at notPause ⊢
    dsimp only at notPause ⊢
    rw [if_neg fun pauses => notPause (if_pos pauses)]
    apply if_pos
    have sameUser : (gate.holds.evaluate windows).user = gate.holds.user := rfl
    have sameDisk : (gate.holds.evaluate windows).disk = gate.holds.disk := rfl
    rw [none]
    simp only [PauseHolds.any, sameUser, sameDisk, Bool.or_eq_false_iff] at none held ⊢
    rcases none with ⟨⟨user, disk⟩, schedule⟩
    simpa [user, disk, schedule] using held

theorem flagged_restore (flagged : gate.Flagged) : gate.restore.Flagged := by
  refine ⟨⟨rfl, rfl⟩, ?_⟩
  have same : gate.restore.holds = gate.holds := flagged.saved.read
  rw [same, ← flagged.flag]
  rfl

end HoldGate

end Rustnzb.Web
