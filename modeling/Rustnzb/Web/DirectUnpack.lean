import Rustnzb.Lib.Run
import Rustnzb.Postproc.Detect

/-!
# Direct unpack

The task that extracts RAR sets while the job downloads. It is told of each volume that finishes
assembly in this run of the process, takes a set once its first volume is there, and ends after a
failure, when it is aborted, or when the download is over and no set is left to take. Which set it
takes and whether `unrar` succeeds are parameters of the steps.
-/

namespace Rustnzb.Web

open Lib (Run)
open Postproc (Name RarVolumeInfo parseRarVolume)

/-- `firstVolume` is not in the source: the file that `unrar` was started on. -/
structure DirectUnpackResult where
  setName : Name
  success : Bool
  firstVolume : Name
  deriving DecidableEq

/-- The volumes with their files, the last one told first. -/
structure DirectUnpacker where
  volumes : List (RarVolumeInfo × Name)
  results : List DirectUnpackResult
  downloadFinished : Bool
  killed : Bool
  returned : Bool

inductive UnpackEvent where
  /-- `add_volume`, for an assembled file that is a RAR volume. -/
  | addVolume (filename : Name)
  | unpackSet (setName : Name) (success : Bool)
  | downloadComplete
  | abort
  | finish

namespace DirectUnpacker

def new : DirectUnpacker where
  volumes := []
  results := []
  downloadFinished := false
  killed := false
  returned := false

def firstVolume (unpacker : DirectUnpacker) (setName : Name) : Option Name :=
  (unpacker.volumes.find? fun volume =>
    volume.1 = { setName := setName, volumeNumber := 0 }).map Prod.snd

/-- The first volume of a set that has not been taken. -/
def pending (unpacker : DirectUnpacker) (setName : Name) : Option Name :=
  if unpacker.results.any fun result => result.setName = setName then none
  else unpacker.firstVolume setName

def step (unpacker : DirectUnpacker) : UnpackEvent → Option DirectUnpacker
  | .addVolume filename =>
      if unpacker.downloadFinished then none
      else (parseRarVolume filename).map fun info =>
        { unpacker with volumes := (info, filename) :: unpacker.volumes }
  | .unpackSet setName success =>
      if unpacker.returned || unpacker.killed then none
      else (unpacker.pending setName).map fun firstVolume =>
        { unpacker with
          results := unpacker.results ++
            [{ setName := setName, success := success, firstVolume := firstVolume }]
          returned := !success }
  | .downloadComplete => some { unpacker with downloadFinished := true }
  | .abort => some { unpacker with killed := true }
  | .finish =>
      if unpacker.killed || (unpacker.downloadFinished &&
          unpacker.volumes.all fun volume => unpacker.pending volume.1.setName = none) then
        some { unpacker with returned := true }
      else none

def Step (unpacker : DirectUnpacker) (event : UnpackEvent) (next : DirectUnpacker) : Prop :=
  unpacker.step event = some next

/-- `direct_unpack_success`: every set that was run succeeded. -/
def allOk (unpacker : DirectUnpacker) : Bool :=
  !unpacker.results.isEmpty && unpacker.results.all DirectUnpackResult.success

def Unpacked (unpacker : DirectUnpacker) (first : Name) : Prop :=
  ∃ result ∈ unpacker.results, result.success = true ∧ result.firstVolume = first

def ToldFirst (unpacker : DirectUnpacker) (setName first : Name) : Prop :=
  ({ setName := setName, volumeNumber := 0 }, first) ∈ unpacker.volumes

/-- The sets it has extracted are those of whose first volume it was told, each from a file that it
was told of. -/
def TookAll (unpacker : DirectUnpacker) : Prop :=
  (∀ first, unpacker.Unpacked first → ∃ setName, unpacker.ToldFirst setName first) ∧
    ∀ setName told, unpacker.ToldFirst setName told →
      ∃ first, unpacker.ToldFirst setName first ∧ unpacker.Unpacked first

/-- A result is that of a set with a first volume, and nothing is left once the task has returned
without a failure. -/
structure Tracks (unpacker : DirectUnpacker) : Prop where
  given : ∀ result ∈ unpacker.results, unpacker.ToldFirst result.setName result.firstVolume
  complete : unpacker.returned = true → unpacker.killed = true ∨
    (∃ result ∈ unpacker.results, result.success = false) ∨
    (unpacker.downloadFinished = true ∧ ∀ setName, unpacker.pending setName = none)

variable {unpacker next : DirectUnpacker} {setName first : Name}

theorem toldFirst_of_firstVolume (found : unpacker.firstVolume setName = some first) :
    unpacker.ToldFirst setName first := by
  rcases Option.map_eq_some_iff.mp found with ⟨⟨info, _⟩, isFound, rfl⟩
  have same : info = { setName := setName, volumeNumber := 0 } := by
    simpa using List.find?_some isFound
  rw [ToldFirst, ← same]
  exact List.mem_of_find?_eq_some isFound

theorem firstVolume_of_pending (isPending : unpacker.pending setName = some first) :
    unpacker.firstVolume setName = some first := by
  simp only [pending] at isPending
  split at isPending
  · nomatch isPending
  · exact isPending

theorem pending_eq_none_iff : unpacker.pending setName = none ↔
    (∃ result ∈ unpacker.results, result.setName = setName) ∨
      ∀ told, ¬unpacker.ToldFirst setName told := by
  simp only [pending]
  split
  next taken => exact iff_of_true rfl (.inl (by simpa using taken))
  next fresh =>
    have untaken : ¬∃ result ∈ unpacker.results, result.setName = setName := by
      simpa using fresh
    rw [or_iff_right untaken, firstVolume, Option.map_eq_none_iff, List.find?_eq_none]
    constructor
    · intro none told mem
      simpa using none _ mem
    · rintro none ⟨info, told⟩ mem isFirst
      apply none told
      simpa only [ToldFirst, ← of_decide_eq_true isFirst] using mem

theorem Tracks.step {event : UnpackEvent} (tracks : unpacker.Tracks)
    (move : Step unpacker event next) : next.Tracks := by
  simp only [Step, DirectUnpacker.step] at move
  cases event with
  | addVolume filename =>
      dsimp only at move
      split at move
      · simp at move
      next unfinished =>
        rcases Option.map_eq_some_iff.mp move with ⟨info, -, rfl⟩
        refine ⟨fun result mem => List.mem_cons_of_mem _ (tracks.given result mem),
          fun returned => ?_⟩
        rcases tracks.complete returned with killed | failed | ⟨finished, -⟩
        · exact .inl killed
        · exact .inr (.inl failed)
        · exact absurd finished unfinished
  | unpackSet setName success =>
      dsimp only at move
      split at move
      · simp at move
      · rcases Option.map_eq_some_iff.mp move with ⟨first, isPending, rfl⟩
        refine ⟨fun result mem => ?_, fun returned => ?_⟩
        · rcases List.mem_append.mp mem with before | now
          · exact tracks.given result before
          · rw [List.mem_singleton.mp now]
            have found := firstVolume_of_pending isPending
            exact toldFirst_of_firstVolume found
        · right
          left
          exact ⟨_, List.mem_append_right _ List.mem_cons_self, by simpa using returned⟩
  | downloadComplete =>
      cases move
      refine ⟨tracks.given, fun returned => ?_⟩
      rcases tracks.complete returned with killed | failed | ⟨-, none⟩
      · exact .inl killed
      · exact .inr (.inl failed)
      · exact .inr (.inr ⟨rfl, none⟩)
  | abort =>
      cases move
      exact ⟨tracks.given, fun _ => .inl rfl⟩
  | finish =>
      dsimp only at move
      split at move
      next ends =>
        cases move
        refine ⟨tracks.given, fun _ => ?_⟩
        simp only [Bool.or_eq_true, Bool.and_eq_true, List.all_eq_true, decide_eq_true_eq] at ends
        rcases ends with killed | ⟨finished, none⟩
        · exact .inl killed
        · refine .inr (.inr ⟨finished, fun setName => ?_⟩)
          rcases isPending : unpacker.pending setName with _ | first
          · exact isPending
          · have told := toldFirst_of_firstVolume (firstVolume_of_pending isPending)
            exact absurd (isPending.symm.trans (none _ told)) nofun
      · simp at move

theorem tracks_of_run {events : List UnpackEvent} (run : Run Step new events unpacker) :
    unpacker.Tracks := by
  apply run.invariant (fun _ unpacker => unpacker.Tracks)
  · exact ⟨by simp [new], by simp [new]⟩
  · intro _ unpacker event next _ tracks move
    exact tracks.step move

theorem tookAll_of_run {events : List UnpackEvent} (run : Run Step new events unpacker)
    (returned : unpacker.returned = true) (alive : unpacker.killed = false)
    (allOk : unpacker.allOk = true) : unpacker.TookAll := by
  have tracks := tracks_of_run run
  simp only [DirectUnpacker.allOk, Bool.and_eq_true, List.all_eq_true] at allOk
  constructor
  · rintro _ ⟨result, mem, -, rfl⟩
    exact ⟨result.setName, tracks.given result mem⟩
  · intro setName told isTold
    rcases tracks.complete returned with killed | ⟨result, mem, failed⟩ | ⟨-, none⟩
    · simp [alive] at killed
    · simp [allOk.2 result mem] at failed
    · rcases pending_eq_none_iff.mp (none setName) with ⟨result, mem, rfl⟩ | untold
      · exact ⟨result.firstVolume, tracks.given result mem, result, mem, allOk.2 result mem, rfl⟩
      · exact absurd isTold (untold told)

end DirectUnpacker

end Rustnzb.Web
