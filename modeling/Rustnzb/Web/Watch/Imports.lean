import Rustnzb.Web.Watch.DirWatcher

/-!
# What becomes of a dropped file

No file is claimed twice and no NZB of it enqueued twice. `Careful` rules out the steps that leave a
file behind or lose one: what comes to rest while the watcher starts and is not listed, a claim
that fails without another event to come, and a move onto a name that is taken.
-/

namespace Rustnzb.Web.Watch

open Lib

theorem isNzbFile_claimed (name : Name) : isNzbFile (name ++ claimSuffix) = false := by
  have short : ∀ suffix ∈ [".nzb", ".nzb.gz", ".nzb.bz2", ".zip"],
      suffix.toList.length ≤ claimSuffix.length ∧ ¬ suffix.toList <:+ claimSuffix := by decide
  rw [isNzbFile, List.any_eq_false]
  intro suffix isSuffix ends
  obtain ⟨shorter, different⟩ := short suffix isSuffix
  rw [List.isSuffixOf_iff_suffix] at ends
  exact different (List.suffix_of_suffix_length_le ends (List.suffix_append _ _) shorter)

structure Keeps (change : File → File) : Prop where
  drop : ∀ file, (change file).drop = file.drop
  copy : ∀ file, (change file).copy = file.copy
  alone : ∀ file other, (change file).place = (change other).place →
    (change file).place ≠ none → file.place = other.place ∧ file.place ≠ none

structure Tame (change : File → File) : Prop extends Keeps change where
  watched : ∀ file name, (change file).place = some ⟨.watch, name⟩ →
    file.place = some ⟨.watch, name⟩

section Changes

variable (file : File) (place source destination : Place) (drop : ℕ) (content : Content)
  (modified : ℕ) (last : Bool)

@[simp]
theorem File.leave_drop : (file.leave place).drop = file.drop := by
  unfold File.leave
  split_ifs <;> rfl

@[simp]
theorem File.leave_copy : (file.leave place).copy = file.copy := by
  unfold File.leave
  split_ifs <;> rfl

@[simp]
theorem File.leave_content : (file.leave place).content = file.content := by
  unfold File.leave
  split_ifs <;> rfl

@[simp]
theorem File.leave_complete : (file.leave place).complete = file.complete := by
  unfold File.leave
  split_ifs <;> rfl

@[simp]
theorem File.leave_withdrawn : (file.leave place).withdrawn = file.withdrawn := by
  unfold File.leave
  split_ifs <;> rfl

@[simp]
theorem File.withdraw_drop : (file.withdraw place).drop = file.drop := by
  unfold File.withdraw
  split_ifs <;> rfl

@[simp]
theorem File.withdraw_copy : (file.withdraw place).copy = file.copy := by
  unfold File.withdraw
  split_ifs <;> rfl

@[simp]
theorem File.withdraw_content : (file.withdraw place).content = file.content := by
  unfold File.withdraw
  split_ifs <;> rfl

@[simp]
theorem File.withdraw_complete : (file.withdraw place).complete = file.complete := by
  unfold File.withdraw
  split_ifs <;> rfl

@[simp]
theorem File.rename_drop : (file.rename source destination).drop = file.drop := by
  unfold File.rename File.leave
  split_ifs <;> rfl

@[simp]
theorem File.rename_copy : (file.rename source destination).copy = file.copy := by
  unfold File.rename File.leave
  split_ifs <;> rfl

@[simp]
theorem File.rename_content : (file.rename source destination).content = file.content := by
  unfold File.rename File.leave
  split_ifs <;> rfl

@[simp]
theorem File.rename_complete : (file.rename source destination).complete = file.complete := by
  unfold File.rename File.leave
  split_ifs <;> rfl

@[simp]
theorem File.rename_withdrawn : (file.rename source destination).withdrawn = file.withdrawn := by
  unfold File.rename File.leave
  split_ifs <;> rfl

@[simp]
theorem File.write_copy : (file.write drop content modified last).copy = file.copy := by
  unfold File.write
  split_ifs <;> rfl

@[simp]
theorem File.write_withdrawn :
    (file.write drop content modified last).withdrawn = file.withdrawn := by
  unfold File.write
  split_ifs <;> rfl

@[simp]
theorem File.write_place : (file.write drop content modified last).place = file.place := by
  unfold File.write
  split_ifs <;> rfl

@[simp]
theorem File.write_drop (written : ℕ) :
    (file.write written content modified last).drop = file.drop := by
  unfold File.write
  split_ifs <;> rfl

theorem File.leave_place :
    (file.leave place).place = if file.place = some place then none else file.place := by
  unfold File.leave
  split <;> rfl

theorem File.withdraw_place :
    (file.withdraw place).place = if file.place = some place then none else file.place := by
  unfold File.withdraw
  split <;> rfl

theorem File.withdraw_withdrawn :
    (file.withdraw place).withdrawn =
      if file.place = some place then true else file.withdrawn := by
  unfold File.withdraw
  split <;> rfl

theorem File.rename_place :
    (file.rename source destination).place =
      if file.place = some source then some destination
      else if file.place = some destination then none else file.place := by
  unfold File.rename
  split
  · rfl
  · exact file.leave_place destination

end Changes

theorem tame_leave (place : Place) : Tame fun file => file.leave place where
  drop := by simp
  copy := by simp
  alone file other := by grind [File.leave_place]
  watched file name := by grind [File.leave_place]

theorem tame_withdraw (place : Place) : Tame fun file => file.withdraw place where
  drop := by simp
  copy := by simp
  alone file other := by grind [File.withdraw_place]
  watched file name := by grind [File.withdraw_place]

theorem tame_write (drop : ℕ) (content : Content) (modified : ℕ) (last : Bool) :
    Tame fun file => file.write drop content modified last where
  drop := by simp
  copy := by simp
  alone file other same isPlaced := by
    rw [File.write_place] at same isPlaced
    rw [File.write_place] at same
    exact ⟨same, isPlaced⟩
  watched := by simp

theorem keeps_rename (source destination : Place) :
    Keeps fun file => file.rename source destination where
  drop := by simp
  copy := by simp
  alone file other := by grind [File.rename_place]

theorem tame_rename (source : Place) (subdir : Subdir) (name : Name) :
    Tame fun file => file.rename source ⟨.subdir subdir, name⟩ where
  toKeeps := keeps_rename _ _
  watched file other := by grind [File.rename_place]

namespace DirWatcher

/-- Each file is claimed at most once and each of its NZBs enqueued at most once. -/
structure ImportsOnce (state : DirWatcher) : Prop where
  claimed : state.claimed.Nodup
  enqueued : state.enqueued.Nodup

def Found (files : List File) (file : File) : Prop :=
  ∃ found ∈ files, found.drop = file.drop ∧ found.content = file.content ∧ found.place ≠ none

/-- What the watch folder is to guarantee of the files dropped into it. -/
structure LosesNone (state : DirWatcher) : Prop where
  claimed : state.phase = .watching → state.work = none → state.events = [] →
    ∀ file ∈ state.files, file.complete = true → ∀ name, file.place = some ⟨.watch, name⟩ →
      isNzbFile name = false
  /-- Nothing is lost but what another process put its own file in the place of. -/
  kept : ∀ file ∈ state.files, file.copy = false → file.withdrawn = false →
    Found state.files file

def Settling (state : DirWatcher) (name : Name) : Prop :=
  match state.work with
  | some ⟨other, .settling _ _⟩ => other = name
  | some ⟨other, .claiming⟩ => other = name
  | _ => False

/-- The watcher comes to the name again, however the work on the present file ends. -/
def Pending (state : DirWatcher) (name : Name) : Prop :=
  match state.phase with
  | .scanning rest => name ∈ rest
  | .watching => name ∈ state.events
  | _ => True

def AtRest (state : DirWatcher) (name : Name) : Prop :=
  isNzbFile name = true ∧
    ∃ file ∈ state.files, file.complete = true ∧ file.place = some ⟨.watch, name⟩

def Free (state : DirWatcher) (place : Place) : Prop :=
  ∀ file ∈ state.files, file.place ≠ some place

def Listed (state : DirWatcher) (name : Name) : Prop :=
  match state.phase with
  | .scanning rest => name ∈ rest ∨ state.Settling name
  | _ => True

def Copied (state : DirWatcher) : Prop :=
  match state.work with
  | some ⟨name, .removing subdir⟩ =>
      ∀ file ∈ state.files, file.place = some (.claimed name) →
        ∃ found ∈ state.files, found.place = some ⟨.subdir subdir, name⟩ ∧
          found.drop = file.drop ∧ found.content = file.content
  | _ => True

/-- The place that the present work moves its file to is free. -/
def Unoccupied (state : DirWatcher) : Prop :=
  match state.work with
  | some ⟨name, .claiming⟩ => state.Free (.claimed name)
  | some ⟨name, .moving subdir⟩ => state.Free ⟨.subdir subdir, name⟩
  | some ⟨name, .copying subdir⟩ => state.Free ⟨.subdir subdir, name⟩
  | _ => True

def Careful (state : DirWatcher) : Label → Prop
  | .drop name _ _ complete => complete = true → state.Listed name
  | .write drop _ _ last =>
      (∀ file ∈ state.files, file.drop = drop → file.copy = false → file.place ≠ none) ∧
        (last = true → ∀ name ∈ state.pathsOf drop, isNzbFile name = true → state.Listed name)
  | .readDir none =>
      ∀ file ∈ state.files, ∀ place ∈ file.place, place.folder = .watch →
        ¬ state.AtRest place.name
  | .entry false =>
      match state.phase with
      | .scanning (name :: rest) => state.AtRest name → name ∈ rest
      | _ => True
  | .claim false => ∀ work ∈ state.work, state.AtRest work.name → state.Pending work.name
  | .claim true => state.Unoccupied
  | .move true true => state.Unoccupied
  | .copy .untouched => True
  | .copy _ => state.Unoccupied
  | .remove true => state.Copied
  | _ => True

section Files

variable {state : DirWatcher} {place : Place} {file : File}

theorem fileAt_mem (isAt : state.fileAt place = some file) :
    file ∈ state.files ∧ file.place = some place :=
  ⟨List.mem_of_find?_eq_some isAt, by simpa using List.find?_some isAt⟩

theorem fileAt_none : state.fileAt place = none ↔ state.Free place := by
  simp [fileAt, Free]

theorem Settling.of_work {work : Option Work} {name : Name} (settling : state.Settling name)
    (isWork : state.work = work) : ({ state with work := work }).Settling name := by
  subst isWork
  exact settling

theorem Unoccupied.of_work {work : Option Work} (free : state.Unoccupied)
    (isWork : state.work = work) : ({ state with work := work }).Unoccupied := by
  subst isWork
  exact free

theorem Copied.of_work {work : Option Work} (copied : state.Copied)
    (isWork : state.work = work) : ({ state with work := work }).Copied := by
  subst isWork
  exact copied

theorem pending_iff {phase : Phase} {name : Name} (isPhase : state.phase = phase) :
    state.Pending name ↔ ({ state with phase := phase }).Pending name := by
  subst isPhase
  exact Iff.rfl

theorem Careful.of_phase {phase : Phase} {label : Label} (careful : state.Careful label)
    (isPhase : state.phase = phase) : ({ state with phase := phase }).Careful label := by
  subst isPhase
  exact careful

theorem leave_of_free (free : state.Free place) (isFile : file ∈ state.files) :
    file.leave place = file :=
  if_neg (free file isFile)

end Files

def originals (files : List File) : List ℕ :=
  (files.filter fun file => !file.copy).map File.drop

def WorkOnce (files : List File) (claimed : List ℕ) (enqueued : List (ℕ × ℕ)) :
    Option Work → Prop
  | some ⟨name, .settling _ _⟩ => isNzbFile name = true
  | some ⟨name, .claiming⟩ => isNzbFile name = true
  | some ⟨name, .reading⟩ =>
      ∀ file ∈ files, file.place = some (.claimed name) →
        file.drop ∈ claimed ∧ ∀ entry ∈ enqueued, entry.1 ≠ file.drop
  | some ⟨_, .enqueueing drop index _⟩ =>
      drop ∈ claimed ∧ ∀ entry ∈ enqueued, entry.1 = drop → entry.2 < index
  | _ => True

structure FilesSound (files : List File) (claimed : List ℕ) : Prop where
  distinct : (originals files).Nodup
  alone : ∀ file ∈ files, ∀ other ∈ files, file.place = other.place → file.place ≠ none →
    file = other
  bounded : ∀ file ∈ files, file.drop < files.length
  original : ∀ file ∈ files, ∀ name, file.place = some ⟨.watch, name⟩ → file.copy = false
  fresh : ∀ file ∈ files, ∀ name, file.place = some ⟨.watch, name⟩ →
    isNzbFile name = true → file.drop ∉ claimed
  claimedBounded : ∀ drop ∈ claimed, drop < files.length

structure Once (state : DirWatcher) : Prop where
  files : FilesSound state.files state.claimed
  claimed : state.claimed.Nodup
  enqueuedOf : ∀ entry ∈ state.enqueued, entry.1 ∈ state.claimed
  enqueued : state.enqueued.Nodup
  working : WorkOnce state.files state.claimed state.enqueued state.work

section FilesSound

variable {files : List File} {claimed : List ℕ} {change : File → File}

theorem originals_map (keeps : Keeps change) : originals (files.map change) = originals files := by
  simp [originals, List.filter_map, Function.comp_def, keeps.drop, keeps.copy]

theorem FilesSound.unique {file other : File} (sound : FilesSound files claimed)
    (isFile : file ∈ files) (isOther : other ∈ files) (isOriginal : file.copy = false)
    (otherOriginal : other.copy = false) (sameDrop : file.drop = other.drop) : file = other := by
  apply List.inj_on_of_nodup_map sound.distinct _ _ sameDrop
  · simp [isFile, isOriginal]
  · simp [isOther, otherOriginal]

theorem FilesSound.map (sound : FilesSound files claimed) (tame : Tame change) :
    FilesSound (files.map change) claimed where
  distinct := by
    rw [originals_map tame.toKeeps]
    exact sound.distinct
  alone := by
    simp only [List.forall_mem_map]
    intro file isFile other isOther same isPlaced
    obtain ⟨wasSame, wasPlaced⟩ := tame.alone file other same isPlaced
    rw [sound.alone file isFile other isOther wasSame wasPlaced]
  bounded := by
    simp only [List.forall_mem_map, List.length_map, tame.drop]
    exact sound.bounded
  original := by
    simp only [List.forall_mem_map, tame.copy]
    intro file isFile name isAt
    exact sound.original file isFile name (tame.watched file name isAt)
  fresh := by
    simp only [List.forall_mem_map, tame.drop]
    intro file isFile name isAt
    exact sound.fresh file isFile name (tame.watched file name isAt)
  claimedBounded := by
    rw [List.length_map]
    exact sound.claimedBounded

theorem FilesSound.append {file : File} (sound : FilesSound files claimed)
    (isNew : file.copy = false → file.drop = files.length) (bounded : file.drop ≤ files.length)
    (isFree : ∀ other ∈ files, other.place ≠ file.place)
    (watched : ∀ name, file.place = some ⟨.watch, name⟩ → file.copy = false) :
    FilesSound (files ++ [file]) claimed where
  distinct := by
    cases isCopy : file.copy with
    | true => simpa [originals, List.filter_append, isCopy] using sound.distinct
    | false =>
        have appended : originals (files ++ [file]) = originals files ++ [file.drop] := by
          simp [originals, List.filter_append, isCopy]
        rw [appended, List.nodup_append_comm, List.singleton_append, List.nodup_cons]
        refine ⟨fun isOld => ?_, sound.distinct⟩
        obtain ⟨old, isOriginal, sameDrop⟩ := List.mem_map.mp isOld
        have below := sound.bounded old (List.mem_of_mem_filter isOriginal)
        have isNew := isNew isCopy
        omega
  alone := by
    simp only [List.forall_mem_append, List.forall_mem_singleton]
    refine ⟨fun old isOld => ⟨sound.alone old isOld, fun same => ?_⟩, fun old isOld same => ?_,
      fun _ _ => trivial⟩
    · exact absurd same (isFree old isOld)
    · exact absurd same.symm (isFree old isOld)
  bounded := by
    simp only [List.forall_mem_append, List.forall_mem_singleton, List.length_append,
      List.length_singleton]
    exact ⟨fun old isOld => Nat.lt_succ_of_lt (sound.bounded old isOld), by omega⟩
  original := by
    simp only [List.forall_mem_append, List.forall_mem_singleton]
    exact ⟨sound.original, watched⟩
  fresh := by
    simp only [List.forall_mem_append, List.forall_mem_singleton]
    refine ⟨sound.fresh, fun name isAt _ isClaimed => ?_⟩
    have below := sound.claimedBounded _ isClaimed
    have isNew := isNew (watched name isAt)
    omega
  claimedBounded drop isClaimed := by
    rw [List.length_append]
    exact Nat.lt_add_right _ (sound.claimedBounded drop isClaimed)

theorem FilesSound.claim {file : File} {name : Name} (sound : FilesSound files claimed)
    (isFile : file ∈ files) (isAt : file.place = some ⟨.watch, name⟩) :
    FilesSound (files.map fun other => other.rename ⟨.watch, name⟩ (.claimed name))
      (claimed ++ [file.drop]) where
  distinct := by
    rw [originals_map (keeps_rename _ _)]
    exact sound.distinct
  alone := by
    simp only [List.forall_mem_map]
    intro one isOne other isOther same isPlaced
    obtain ⟨wasSame, wasPlaced⟩ := (keeps_rename _ _).alone one other same isPlaced
    rw [sound.alone one isOne other isOther wasSame wasPlaced]
  bounded := by
    simp only [List.forall_mem_map, List.length_map, (keeps_rename _ _).drop]
    exact sound.bounded
  original := by
    simp only [List.forall_mem_map, (keeps_rename _ _).copy, File.rename_place]
    intro other isOther place isThere
    split at isThere
    next wasAt => exact sound.original other isOther name wasAt
    · split at isThere
      · simp at isThere
      · exact sound.original other isOther place isThere
  fresh := by
    simp only [List.forall_mem_map, (keeps_rename _ _).drop, File.rename_place, List.mem_append,
      List.mem_singleton, not_or]
    intro other isOther place isThere isNzb
    split at isThere
    · cases isThere
      rw [isNzbFile_claimed] at isNzb
      contradiction
    next elsewhere =>
      split at isThere
      · simp at isThere
      refine ⟨sound.fresh other isOther place isThere isNzb, fun sameDrop => elsewhere ?_⟩
      rw [sound.unique isOther isFile (sound.original other isOther place isThere)
        (sound.original file isFile name isAt) sameDrop, isAt]
  claimedBounded := by
    simp only [List.forall_mem_append, List.forall_mem_singleton, List.length_map]
    exact ⟨sound.claimedBounded, sound.bounded file isFile⟩

end FilesSound

section Once

variable {state next : DirWatcher} {files : List File} {claimed : List ℕ}
  {enqueued : List (ℕ × ℕ)} {work : Option Work}

theorem once_init : init.Once where
  files := by constructor <;> simp [init, originals]
  claimed := List.nodup_nil
  enqueuedOf := by simp [init]
  enqueued := List.nodup_nil
  working := trivial

theorem WorkOnce.map {change : File → File} (working : WorkOnce files claimed enqueued work)
    (tame : Tame change) : WorkOnce (files.map change) claimed enqueued work := by
  rcases work with _ | ⟨name, stage⟩
  · trivial
  cases stage with
  | reading =>
      refine List.forall_mem_map.mpr fun file isFile isAt => ?_
      rw [tame.drop]
      exact working file isFile (tame.watched file _ isAt)
  | settling | claiming | enqueueing => exact working
  | moving | copying | removing => trivial

theorem WorkOnce.append {file : File} (working : WorkOnce files claimed enqueued work)
    (elsewhere : ∀ name, file.place ≠ some (.claimed name)) :
    WorkOnce (files ++ [file]) claimed enqueued work := by
  rcases work with _ | ⟨name, stage⟩
  · trivial
  cases stage with
  | reading =>
      refine List.forall_mem_append.mpr ⟨working, List.forall_mem_singleton.mpr fun isAt => ?_⟩
      exact absurd isAt (elsewhere _)
  | settling | claiming | enqueueing => exact working
  | moving | copying | removing => trivial

section

variable (once : state.Once)

include once

theorem Once.withWork {phase : Phase} {events : List Name}
    (working : WorkOnce state.files state.claimed state.enqueued work) :
    ({ state with work := work, phase := phase, events := events }).Once :=
  ⟨once.files, once.claimed, once.enqueuedOf, once.enqueued, working⟩

theorem Once.withFiles {phase : Phase} {events : List Name} (sound : FilesSound files state.claimed)
    (working : WorkOnce files state.claimed state.enqueued work) :
    ({ state with files := files, work := work, phase := phase, events := events }).Once :=
  ⟨sound, once.claimed, once.enqueuedOf, once.enqueued, working⟩

theorem Once.dropped {name : Name} {content : Content} {modified : ℕ} {complete : Bool}
    (move : state.dropped name content modified complete = some next) : next.Once := by
  revert move
  fun_cases DirWatcher.dropped state name content modified complete <;> intro move <;> cases move
  case case1 isNzb =>
    apply once.withFiles
    · apply (once.files.map (tame_withdraw _)).append
      · simp
      · simp
      · simp only [List.forall_mem_map, File.withdraw_place]
        intro file _
        split <;> simp_all
      · simp
    · apply (once.working.map (tame_withdraw _)).append
      rintro other ⟨⟩
      simp [isNzbFile_claimed] at isNzb

theorem Once.write {drop : ℕ} {content : Content} {modified : ℕ} {last : Bool}
    (move : state.write drop content modified last = some next) : next.Once := by
  revert move
  fun_cases DirWatcher.write state drop content modified last <;> intro move <;> cases move
  case case1 =>
    exact once.withFiles (once.files.map (tame_write _ _ _ _))
      (once.working.map (tame_write _ _ _ _))

theorem Once.processFile {name : Name} : (state.processFile name).Once := by
  fun_cases DirWatcher.processFile state name
  case case1 => exact once
  case case2 isNzb file isAt => exact once.withWork isNzb
  case case3 => exact once

theorem Once.entry {ok : Bool} (move : state.entry ok = some next) : next.Once := by
  revert move
  fun_cases DirWatcher.entry state ok <;> intro move <;> cases move
  · exact Once.processFile (once.withWork once.working)
  · exact once.withWork once.working

theorem Once.recv (move : state.recv = some next) : next.Once := by
  revert move
  fun_cases DirWatcher.recv state <;> intro move <;> cases move
  exact Once.processFile (once.withWork once.working)

theorem Once.settle {late : Bool} (move : state.settle late = some next) : next.Once := by
  have working := once.working
  revert move
  fun_cases DirWatcher.settle state late <;> intro move <;> cases move
  case case1 => exact once.withWork trivial
  case case2 name size modified isWork _ _ _ =>
    rw [isWork] at working
    exact once.withWork working
  case case3 name size modified isWork _ _ _ =>
    rw [isWork] at working
    exact once.withWork working

theorem Once.claim {ok : Bool} (move : state.claim ok = some next) : next.Once := by
  have working := once.working
  revert move
  fun_cases DirWatcher.claim state ok <;> intro move <;> cases move
  case case1 => exact once.withWork trivial
  case case2 name isWork file isAt isOk =>
    rw [isWork] at working
    obtain ⟨isFile, isPlace⟩ := fileAt_mem isAt
    have unclaimed := once.files.fresh file isFile name isPlace working
    refine ⟨once.files.claim isFile isPlace, ?_, ?_, once.enqueued, ?_⟩
    · exact List.nodup_append_comm.mp (List.nodup_cons.mpr ⟨unclaimed, once.claimed⟩)
    · intro entry isEntry
      exact List.mem_append_left _ (once.enqueuedOf entry isEntry)
    · intro claimed isClaimed isThere
      obtain ⟨other, isOther, rfl⟩ := List.mem_map.mp isClaimed
      rw [File.rename_place] at isThere
      split at isThere
      next wasAt =>
        have same : other = file := once.files.alone other isOther file isFile
          (wasAt.trans isPlace.symm) (by simp [wasAt])
        subst same
        rw [(keeps_rename _ _).drop]
        refine ⟨List.mem_append_right _ (List.mem_singleton_self _), ?_⟩
        intro entry isEntry sameDrop
        exact unclaimed (sameDrop ▸ once.enqueuedOf entry isEntry)
      · split at isThere
        · simp at isThere
        next notThere => exact absurd isThere notThere
  case case3 => exact once.withWork trivial

theorem Once.unpack {count : Option ℕ} (move : state.unpack count = some next) : next.Once := by
  have working := once.working
  revert move
  fun_cases DirWatcher.unpack state count <;> intro move <;> cases move
  case case1 => exact once.withWork trivial
  case case2 name isWork file count isAt fits =>
    rw [isWork] at working
    obtain ⟨isFile, isPlace⟩ := fileAt_mem isAt
    obtain ⟨isClaimed, isFirst⟩ := working file isFile isPlace
    exact once.withWork ⟨isClaimed, fun entry isEntry same => absurd same (isFirst entry isEntry)⟩
  case case3 => exact once.withWork trivial

theorem Once.enqueue {ok : Bool} (move : state.enqueue ok = some next) : next.Once := by
  have working := once.working
  revert move
  fun_cases DirWatcher.enqueue state ok <;> intro move <;> cases move
  case case1 name drop index count isWork isOk =>
    rw [isWork] at working
    obtain ⟨isClaimed, isNext⟩ := working
    have isNew : (drop, index) ∉ state.enqueued :=
      fun isOld => absurd (isNext _ isOld rfl) (Nat.lt_irrefl _)
    refine ⟨once.files, once.claimed, ?_, ?_, ?_⟩
    · simp only [List.forall_mem_append, List.forall_mem_singleton]
      exact ⟨once.enqueuedOf, isClaimed⟩
    · exact List.nodup_append_comm.mp (List.nodup_cons.mpr ⟨isNew, once.enqueued⟩)
    · dsimp only
      split
      · refine ⟨isClaimed, ?_⟩
        simp only [List.forall_mem_append, List.forall_mem_singleton]
        exact ⟨fun entry isEntry same => Nat.lt_succ_of_lt (isNext entry isEntry same),
          fun _ => Nat.lt_succ_self _⟩
      · trivial
  case case2 => exact once.withWork trivial

theorem Once.moveInto {made renamed : Bool}
    (move : state.moveInto made renamed = some next) : next.Once := by
  revert move
  fun_cases DirWatcher.moveInto state made renamed <;> intro move <;> cases move
  case case1 => exact once.withWork trivial
  case case2 => exact once.withFiles (once.files.map (tame_rename _ _ _)) trivial
  case case3 => exact once.withWork trivial

end

theorem FilesSound.copied {file : File} {content : Content} {subdir : Subdir} {name : Name}
    (sound : FilesSound state.files claimed) (isFile : file ∈ state.files) :
    FilesSound (state.copied file content ⟨.subdir subdir, name⟩) claimed := by
  apply (sound.map (tame_leave _)).append
  · simp
  · simpa using (sound.bounded file isFile).le
  · simp only [List.forall_mem_map, File.leave_place]
    intro file _
    split <;> simp_all
  · simp

theorem Once.copy {result : CopyResult} (once : state.Once)
    (move : state.copy result = some next) : next.Once := by
  revert move
  fun_cases DirWatcher.copy state result <;> intro move <;> cases move
  case case1 name subdir isWork file isAt =>
    exact once.withFiles (once.files.copied (fileAt_mem isAt).1) trivial
  case case2 name subdir isWork file content isAt =>
    exact once.withFiles (once.files.copied (fileAt_mem isAt).1) trivial
  case case3 => exact once.withWork trivial

theorem Once.removeFile {ok : Bool} (once : state.Once)
    (move : state.removeFile ok = some next) : next.Once := by
  revert move
  fun_cases DirWatcher.removeFile state ok <;> intro move <;> cases move
  case case1 => exact once.withFiles (once.files.map (tame_leave _)) trivial
  case case2 => exact once.withWork trivial

theorem Once.keep {label : Label} (once : state.Once) (move : state.Step label next) :
    next.Once := by
  cases label with
  | drop name content modified complete => exact once.dropped move
  | write drop content modified last => exact once.write move
  | notify name =>
      cases move
      exact once.withWork once.working
  | start ok =>
      dsimp only [Step, DirWatcher.step] at move
      split at move <;> cases move
      exact once.withWork once.working
  | readDir entries =>
      dsimp only [Step, DirWatcher.step] at move
      revert move
      fun_cases DirWatcher.readDir state entries <;> intro move <;> cases move <;>
        exact once.withWork once.working
  | entry ok => exact once.entry move
  | watch =>
      dsimp only [Step, DirWatcher.step] at move
      revert move
      fun_cases DirWatcher.watch state <;> intro move <;> cases move
      exact once.withWork once.working
  | recv => exact once.recv move
  | settle late => exact once.settle move
  | claim ok => exact once.claim move
  | unpack count => exact once.unpack move
  | enqueue ok => exact once.enqueue move
  | move made renamed => exact once.moveInto move
  | copy result => exact once.copy move
  | remove ok => exact once.removeFile move
  | stop =>
      cases move
      exact once.withWork trivial

end Once

def Attended (state : DirWatcher) : Prop :=
  ∀ name, state.AtRest name → state.Pending name ∨ state.Settling name

section Attended

variable {state next : DirWatcher} {files : List File} {names : List Name} {name : Name}

theorem attended_init : init.Attended :=
  fun _ _ => .inl trivial

theorem Pending.notified (pending : state.Pending name) :
    ({ state with files := files, events := state.notified names }).Pending name := by
  unfold Pending DirWatcher.notified at *
  cases isPhase : state.phase <;> simp_all

theorem Listed.notified (listed : state.Listed name) (isName : name ∈ names) :
    ({ state with files := files, events := state.notified names }).Pending name ∨
      state.Settling name := by
  unfold Listed at listed
  unfold Pending DirWatcher.notified
  cases isPhase : state.phase <;> simp_all

theorem AtRest.of_map {change : File → File} (tame : Tame change)
    (complete : ∀ file, (change file).complete = file.complete)
    (isFiles : next.files = state.files.map change) (atRest : next.AtRest name) :
    state.AtRest name := by
  obtain ⟨isNzb, file, isFile, isComplete, isAt⟩ := atRest
  rw [isFiles] at isFile
  obtain ⟨old, isOld, rfl⟩ := List.mem_map.mp isFile
  exact ⟨isNzb, old, isOld, complete old ▸ isComplete, tame.watched old name isAt⟩

theorem AtRest.of_append {file : File} (isFiles : next.files = files ++ [file])
    (elsewhere : file.complete = true → file.place ≠ some ⟨.watch, name⟩)
    (atRest : next.AtRest name) : ({ next with files := files }).AtRest name := by
  obtain ⟨isNzb, other, isOther, isComplete, isAt⟩ := atRest
  rw [isFiles] at isOther
  rcases List.mem_append.mp isOther with isOld | isNew
  · exact ⟨isNzb, other, isOld, isComplete, isAt⟩
  · rw [List.mem_singleton.mp isNew] at isComplete isAt
    exact absurd isAt (elsewhere isComplete)

theorem mem_pathsOf {file : File} (isFile : file ∈ state.files)
    (isAt : file.place = some ⟨.watch, name⟩) : name ∈ state.pathsOf file.drop := by
  rw [pathsOf, List.mem_filterMap]
  exact ⟨file, isFile, by simp [isAt]⟩

theorem Attended.dropped {content : Content} {modified : ℕ} {complete : Bool}
    (attended : state.Attended) (listed : complete = true → state.Listed name)
    (move : state.dropped name content modified complete = some next) : next.Attended := by
  revert move
  fun_cases DirWatcher.dropped state name content modified complete <;> intro move <;> cases move
  case case1 isNzb =>
    intro other atRest
    by_cases isNew : complete = true ∧ other = name
    · obtain ⟨isComplete, rfl⟩ := isNew
      exact (listed isComplete).notified (List.mem_singleton_self _)
    · have wasAtRest : state.AtRest other := by
        apply AtRest.of_map (tame_withdraw _) (fun _ => File.withdraw_complete _ _) rfl
          (AtRest.of_append rfl _ atRest)
        rintro isComplete ⟨⟩
        exact isNew ⟨isComplete, rfl⟩
      exact (attended other wasAtRest).imp_left Pending.notified

theorem Attended.write {drop : ℕ} {content : Content} {modified : ℕ} {last : Bool}
    (attended : state.Attended)
    (listed : last = true → ∀ name ∈ state.pathsOf drop, isNzbFile name = true → state.Listed name)
    (move : state.write drop content modified last = some next) : next.Attended := by
  revert move
  fun_cases DirWatcher.write state drop content modified last <;> intro move <;> cases move
  case case1 =>
    rintro name ⟨isNzb, file, isFile, isComplete, isAt⟩
    obtain ⟨old, isOld, rfl⟩ := List.mem_map.mp isFile
    rw [File.write_place] at isAt
    unfold File.write at isComplete
    split at isComplete
    next isWritten =>
      rw [← isWritten.1] at listed ⊢
      have isPath := mem_pathsOf isOld isAt
      exact (listed isComplete name isPath isNzb).notified isPath
    · exact (attended name ⟨isNzb, old, isOld, isComplete, isAt⟩).imp_left Pending.notified

theorem attended_readDir {entries : Option (List Name)} (careful : state.Careful (.readDir entries))
    (move : state.readDir entries = some next) : next.Attended := by
  revert move
  fun_cases DirWatcher.readDir state entries <;> intro move <;> cases move
  case case1 isPhase =>
    rintro name ⟨isNzb, file, isFile, isComplete, isAt⟩
    exact absurd ⟨isNzb, file, isFile, isComplete, isAt⟩ (careful file isFile _ isAt rfl)
  case case2 isPhase names isListed =>
    rintro name ⟨-, file, isFile, -, isAt⟩
    exact .inl (isListed file isFile _ isAt rfl)

theorem attended_processFile
    (attended : ∀ other, state.AtRest other → state.Pending other ∨ other = name) :
    (state.processFile name).Attended := by
  fun_cases DirWatcher.processFile state name
  case case1 isNzb isFree =>
    intro other atRest
    refine .inl ((attended other atRest).resolve_right ?_)
    rintro rfl
    obtain ⟨-, file, isFile, -, isAt⟩ := atRest
    exact fileAt_none.mp isFree file isFile isAt
  case case2 isNzb file isAt =>
    intro other atRest
    exact (attended other atRest).imp_right Eq.symm
  case case3 notNzb =>
    intro other atRest
    refine .inl ((attended other atRest).resolve_right ?_)
    rintro rfl
    exact notNzb atRest.1

section

variable (attended : state.Attended)

include attended

theorem Attended.pending (idle : state.work = none)
    (atRest : state.AtRest name) : state.Pending name :=
  (attended name atRest).resolve_right fun settling => settling.of_work idle

theorem Attended.entry {ok : Bool} (careful : state.Careful (.entry ok))
    (move : state.entry ok = some next) : next.Attended := by
  revert move
  fun_cases DirWatcher.entry state ok <;> intro move <;> cases move
  case case1 name rest idle isPhase isOk =>
    apply attended_processFile
    intro other atRest
    have isListed : other ∈ name :: rest := (pending_iff isPhase).mp (attended.pending idle atRest)
    exact (List.mem_cons.mp isListed).symm
  case case2 name rest idle isPhase notOk =>
    intro other atRest
    have isListed : other ∈ name :: rest := (pending_iff isPhase).mp (attended.pending idle atRest)
    rcases List.mem_cons.mp isListed with rfl | isLater
    · simp only [Bool.not_eq_true] at notOk
      rw [notOk] at careful
      exact .inl ((careful.of_phase isPhase) atRest)
    · exact .inl isLater

theorem Attended.watch (move : state.watch = some next) : next.Attended := by
  revert move
  fun_cases DirWatcher.watch state <;> intro move <;> cases move
  case case1 idle isPhase =>
    intro name atRest
    exact absurd ((pending_iff isPhase).mp (attended.pending idle atRest)) List.not_mem_nil

theorem Attended.recv (move : state.recv = some next) : next.Attended := by
  revert move
  fun_cases DirWatcher.recv state <;> intro move <;> cases move
  case case1 name events isEvents idle isPhase =>
    apply attended_processFile
    intro other atRest
    have isListed : other ∈ state.events := (pending_iff isPhase).mp (attended.pending idle atRest)
    rw [isEvents] at isListed
    have watching : ({ state with events := events }).phase = .watching := isPhase
    exact (List.mem_cons.mp isListed).symm.imp_left (pending_iff watching).mpr

theorem Attended.advance {work : Option Work} {claimed : List ℕ} {enqueued : List (ℕ × ℕ)}
    (atRest : ∀ name, ({ state with files := files, work := work }).AtRest name →
      state.AtRest name ∧ (state.Settling name → state.Pending name ∨
        ({ state with work := work }).Settling name)) :
    ({ state with
        files := files, work := work, claimed := claimed, enqueued := enqueued }).Attended := by
  intro name isThere
  obtain ⟨wasThere, settled⟩ := atRest name isThere
  rcases attended name wasThere with pending | settling
  · exact .inl pending
  · exact settled settling

theorem Attended.settle {late : Bool} (move : state.settle late = some next) : next.Attended := by
  revert move
  fun_cases DirWatcher.settle state late <;> intro move <;> cases move
  case case1 name size modified isWork isFree =>
    apply attended.advance
    intro other atRest
    refine ⟨atRest, fun settling => ?_⟩
    have same : name = other := settling.of_work isWork
    subst same
    obtain ⟨-, file, isFile, -, isAt⟩ := atRest
    exact absurd isAt (fileAt_none.mp isFree file isFile)
  case case2 name size modified isWork _ _ _ =>
    apply attended.advance
    intro other atRest
    exact ⟨atRest, fun settling => .inr (show name = other from settling.of_work isWork)⟩
  case case3 name size modified isWork _ _ _ =>
    apply attended.advance
    intro other atRest
    exact ⟨atRest, fun settling => .inr (show name = other from settling.of_work isWork)⟩

theorem Attended.claim {ok : Bool} (careful : state.Careful (.claim ok))
    (move : state.claim ok = some next) : next.Attended := by
  revert move
  fun_cases DirWatcher.claim state ok <;> intro move <;> cases move
  case case1 name isWork isFree =>
    apply attended.advance
    intro other atRest
    refine ⟨atRest, fun settling => ?_⟩
    have same : name = other := settling.of_work isWork
    subst same
    obtain ⟨-, file, isFile, -, isAt⟩ := atRest
    exact absurd isAt (fileAt_none.mp isFree file isFile)
  case case2 name isWork file isAt isOk =>
    apply attended.advance
    rintro other ⟨isNzb, claimed, isClaimed, isComplete, isThere⟩
    obtain ⟨old, isOld, rfl⟩ := List.mem_map.mp isClaimed
    rw [File.rename_complete] at isComplete
    rw [File.rename_place] at isThere
    split at isThere
    · cases isThere
      simp [isNzbFile_claimed] at isNzb
    next elsewhere =>
      split at isThere
      · simp at isThere
      refine ⟨⟨isNzb, old, isOld, isComplete, isThere⟩, fun settling => ?_⟩
      have same : name = other := settling.of_work isWork
      subst same
      exact absurd isThere elsewhere
  case case3 name isWork file isAt notOk =>
    apply attended.advance
    intro other atRest
    simp only [Bool.not_eq_true] at notOk
    rw [notOk] at careful
    refine ⟨atRest, fun settling => .inl ?_⟩
    have same : name = other := settling.of_work isWork
    subst same
    exact careful _ isWork atRest

theorem Attended.pastClaim {current work : Option Work} {enqueued : List (ℕ × ℕ)}
    (isWork : state.work = current) (past : ∀ name, ¬({ state with work := current }).Settling name)
    (atRest : ∀ name, ({ state with files := files }).AtRest name → state.AtRest name) :
    ({ state with files := files, work := work, enqueued := enqueued }).Attended :=
  attended.advance fun name isThere =>
    ⟨atRest name isThere, fun settling => absurd (settling.of_work isWork) (past name)⟩

theorem Attended.unpack {count : Option ℕ}
    (move : state.unpack count = some next) : next.Attended := by
  revert move
  fun_cases DirWatcher.unpack state count <;> intro move <;> cases move
  case case1 isWork _ _ _ _ =>
    exact attended.pastClaim isWork (fun _ => id) fun _ => id
  case case2 isWork _ _ _ _ =>
    exact attended.pastClaim isWork (fun _ => id) fun _ => id
  case case3 isWork _ =>
    exact attended.pastClaim isWork (fun _ => id) fun _ => id

theorem Attended.enqueue {ok : Bool} (move : state.enqueue ok = some next) : next.Attended := by
  revert move
  fun_cases DirWatcher.enqueue state ok <;> intro move <;> cases move
  case case1 isWork _ =>
    exact attended.pastClaim isWork (fun _ => id) fun _ => id
  case case2 isWork _ =>
    exact attended.pastClaim isWork (fun _ => id) fun _ => id

theorem Attended.moveInto {made renamed : Bool}
    (move : state.moveInto made renamed = some next) : next.Attended := by
  revert move
  fun_cases DirWatcher.moveInto state made renamed <;> intro move <;> cases move
  case case1 isWork _ =>
    exact attended.pastClaim isWork (fun _ => id) fun _ => id
  case case2 isWork _ _ =>
    exact attended.pastClaim isWork (fun _ => id) fun _ =>
      AtRest.of_map (tame_rename _ _ _) (fun _ => File.rename_complete _ _ _) rfl
  case case3 isWork _ _ =>
    exact attended.pastClaim isWork (fun _ => id) fun _ => id

end

theorem AtRest.of_copied {file : File} {content : Content} {subdir : Subdir} {taken : Name}
    (atRest : ({ state with
      files := state.copied file content ⟨.subdir subdir, taken⟩ }).AtRest name) :
    state.AtRest name :=
  AtRest.of_map (tame_leave _) (fun _ => File.leave_complete _ _) rfl
    (AtRest.of_append rfl (by simp) atRest)

theorem Attended.copy {result : CopyResult} (attended : state.Attended)
    (move : state.copy result = some next) : next.Attended := by
  revert move
  fun_cases DirWatcher.copy state result <;> intro move <;> cases move
  case case1 isWork _ _ =>
    exact attended.pastClaim isWork (fun _ => id) fun _ => AtRest.of_copied
  case case2 isWork _ _ _ =>
    exact attended.pastClaim isWork (fun _ => id) fun _ => AtRest.of_copied
  case case3 isWork _ _ =>
    exact attended.pastClaim isWork (fun _ => id) fun _ => id

theorem Attended.removeFile {ok : Bool} (attended : state.Attended)
    (move : state.removeFile ok = some next) : next.Attended := by
  revert move
  fun_cases DirWatcher.removeFile state ok <;> intro move <;> cases move
  case case1 isWork _ =>
    exact attended.pastClaim isWork (fun _ => id) fun _ =>
      AtRest.of_map (tame_leave _) (fun _ => File.leave_complete _ _) rfl
  case case2 isWork _ =>
    exact attended.pastClaim isWork (fun _ => id) fun _ => id

end Attended

def Kept (files : List File) : Prop :=
  ∀ file ∈ files, file.copy = false → file.withdrawn = false → Found files file

section Kept

variable {state next : DirWatcher} {files : List File} {claimed : List ℕ}

theorem kept_init : Kept init.files := by
  simp [init, Kept]

theorem Kept.append {file : File} (kept : Kept files) (isPlaced : file.place ≠ none) :
    Kept (files ++ [file]) := by
  intro other isOther isOriginal stays
  rcases List.mem_append.mp isOther with isOld | isNew
  · obtain ⟨found, isFound, same⟩ := kept other isOld isOriginal stays
    exact ⟨found, List.mem_append_left _ isFound, same⟩
  · rw [List.mem_singleton.mp isNew]
    exact ⟨file, List.mem_append_right _ (List.mem_singleton_self _), rfl, rfl, isPlaced⟩

theorem Kept.map {change : File → File} (kept : Kept files)
    (drop : ∀ file, (change file).drop = file.drop) (copy : ∀ file, (change file).copy = file.copy)
    (content : ∀ file, (change file).content = file.content)
    (survives : ∀ file ∈ files, file.copy = false → (change file).withdrawn = false →
      file.withdrawn = false ∧ (Found files file →
        ∃ found ∈ files, found.drop = file.drop ∧ found.content = file.content ∧
          (change found).place ≠ none)) : Kept (files.map change) := by
  simp only [Kept, List.forall_mem_map, copy]
  intro file isFile isOriginal stays
  obtain ⟨stayed, survive⟩ := survives file isFile isOriginal stays
  obtain ⟨found, isFound, isDrop, isContent, isPlaced⟩ :=
    survive (kept file isFile isOriginal stayed)
  refine ⟨change found, List.mem_map_of_mem isFound, ?_, ?_, isPlaced⟩
  · rw [drop, drop, isDrop]
  · rw [content, content, isContent]

section

variable (kept : Kept state.files)

include kept

theorem Kept.rename {source destination : Place} (free : state.Free destination) :
    Kept (state.files.map fun file => file.rename source destination) := by
  apply kept.map (by simp) (by simp) (by simp)
  intro file isFile _ stays
  rw [File.rename_withdrawn] at stays
  refine ⟨stays, fun ⟨found, isFound, isDrop, isContent, isPlaced⟩ =>
    ⟨found, isFound, isDrop, isContent, ?_⟩⟩
  rw [File.rename_place, if_neg (free found isFound)]
  split <;> simp [isPlaced]

theorem Kept.copied {file : File} {content : Content} {place : Place}
    (free : state.Free place) : Kept (state.copied file content place) := by
  have same : state.files.map (fun file => file.leave place) = state.files.map id :=
    List.map_congr_left fun other isOther => leave_of_free free isOther
  rw [DirWatcher.copied, same, List.map_id]
  exact kept.append (by simp)

theorem Kept.dropped {name : Name} {content : Content} {modified : ℕ} {complete : Bool}
    (sound : FilesSound state.files state.claimed)
    (move : state.dropped name content modified complete = some next) : Kept next.files := by
  revert move
  fun_cases DirWatcher.dropped state name content modified complete <;> intro move <;> cases move
  case case1 isNzb =>
    refine Kept.append ?_ (by simp)
    apply kept.map (by simp) (by simp) (by simp)
    intro file isFile isOriginal stays
    rw [File.withdraw_withdrawn] at stays
    split at stays
    · simp at stays
    next elsewhere =>
      refine ⟨stays, fun ⟨found, isFound, isDrop, isContent, isPlaced⟩ =>
        ⟨found, isFound, isDrop, isContent, ?_⟩⟩
      rw [File.withdraw_place, if_neg]
      · exact isPlaced
      · intro isAt
        have same := sound.unique isFound isFile (sound.original found isFound name isAt)
          isOriginal isDrop
        exact elsewhere (same ▸ isAt)

theorem Kept.write {drop : ℕ} {content : Content} {modified : ℕ} {last : Bool}
    (linked : ∀ file ∈ state.files, file.drop = drop → file.copy = false → file.place ≠ none)
    (move : state.write drop content modified last = some next) : Kept next.files := by
  revert move
  fun_cases DirWatcher.write state drop content modified last <;> intro move <;> cases move
  case case1 =>
    simp only [Kept, List.forall_mem_map, File.write_copy, File.write_withdrawn]
    intro file isFile isOriginal stays
    by_cases isWritten : file.drop = drop
    · refine ⟨_, List.mem_map_of_mem isFile, rfl, rfl, ?_⟩
      rw [File.write_place]
      exact linked file isFile isWritten isOriginal
    · obtain ⟨found, isFound, isDrop, isContent, isPlaced⟩ := kept file isFile isOriginal stays
      refine ⟨_, List.mem_map_of_mem isFound, ?_, ?_, ?_⟩
      · simpa using isDrop
      · simpa [File.write, isWritten, isDrop] using isContent
      · simpa using isPlaced

theorem Kept.claim {ok : Bool} (careful : state.Careful (.claim ok))
    (move : state.claim ok = some next) : Kept next.files := by
  revert move
  fun_cases DirWatcher.claim state ok <;> intro move <;> cases move
  case case1 => exact kept
  case case2 name isWork file isAt isOk =>
    subst isOk
    exact kept.rename (Unoccupied.of_work careful isWork)
  case case3 => exact kept

theorem Kept.moveInto {made renamed : Bool} (careful : state.Careful (.move made renamed))
    (move : state.moveInto made renamed = some next) : Kept next.files := by
  revert move
  fun_cases DirWatcher.moveInto state made renamed <;> intro move <;> cases move
  case case1 => exact kept
  case case2 name subdir isWork isMade isRenamed =>
    rw [Bool.not_eq_false] at isMade
    rw [isMade, isRenamed.1] at careful
    exact kept.rename (Unoccupied.of_work careful isWork)
  case case3 => exact kept

theorem Kept.copy {result : CopyResult} (careful : state.Careful (.copy result))
    (move : state.copy result = some next) : Kept next.files := by
  revert move
  fun_cases DirWatcher.copy state result <;> intro move <;> cases move
  case case1 name subdir isWork file isAt =>
    exact kept.copied (Unoccupied.of_work careful isWork)
  case case2 name subdir isWork file content isAt =>
    exact kept.copied (Unoccupied.of_work careful isWork)
  case case3 => exact kept

theorem Kept.removeFile {ok : Bool} (careful : state.Careful (.remove ok))
    (move : state.removeFile ok = some next) : Kept next.files := by
  revert move
  fun_cases DirWatcher.removeFile state ok <;> intro move <;> cases move
  case case1 name subdir isWork isOk =>
    rw [isOk] at careful
    have copied := Copied.of_work careful isWork
    apply kept.map (by simp) (by simp) (by simp)
    intro file isFile _ stays
    rw [File.leave_withdrawn] at stays
    refine ⟨stays, fun ⟨found, isFound, isDrop, isContent, isPlaced⟩ => ?_⟩
    by_cases isAt : found.place = some (.claimed name)
    · obtain ⟨other, isOther, isThere, sameDrop, sameContent⟩ := copied found isFound isAt
      refine ⟨other, isOther, sameDrop.trans isDrop, sameContent.trans isContent, ?_⟩
      rw [File.leave_place, isThere, if_neg (by simp [Place.claimed])]
      simp
    · refine ⟨found, isFound, isDrop, isContent, ?_⟩
      rw [File.leave_place, if_neg isAt]
      exact isPlaced
  case case2 => exact kept

end

end Kept

section Soundness

variable {state next : DirWatcher} {label : Label}

theorem processFile_files (name : Name) : (state.processFile name).files = state.files := by
  fun_cases DirWatcher.processFile state name <;> rfl

theorem entry_files {ok : Bool} (move : state.entry ok = some next) : next.files = state.files := by
  revert move
  fun_cases DirWatcher.entry state ok <;> intro move <;> cases move
  · exact processFile_files _
  · rfl

theorem recv_files (move : state.recv = some next) : next.files = state.files := by
  revert move
  fun_cases DirWatcher.recv state <;> intro move <;> cases move
  exact processFile_files _

theorem settle_files {late : Bool} (move : state.settle late = some next) :
    next.files = state.files := by
  revert move
  fun_cases DirWatcher.settle state late <;> intro move <;> cases move <;> rfl

theorem unpack_files {count : Option ℕ} (move : state.unpack count = some next) :
    next.files = state.files := by
  revert move
  fun_cases DirWatcher.unpack state count <;> intro move <;> cases move <;> rfl

theorem enqueue_files {ok : Bool} (move : state.enqueue ok = some next) :
    next.files = state.files := by
  revert move
  fun_cases DirWatcher.enqueue state ok <;> intro move <;> cases move <;> rfl

theorem readDir_files {entries : Option (List Name)} (move : state.readDir entries = some next) :
    next.files = state.files := by
  revert move
  fun_cases DirWatcher.readDir state entries <;> intro move <;> cases move <;> rfl

theorem watch_files (move : state.watch = some next) : next.files = state.files := by
  revert move
  fun_cases DirWatcher.watch state <;> intro move <;> cases move
  rfl

theorem Attended.keep (attended : state.Attended) (careful : state.Careful label)
    (move : state.Step label next) : next.Attended := by
  cases label with
  | drop name content modified complete => exact attended.dropped careful move
  | write drop content modified last => exact attended.write careful.2 move
  | notify name =>
      cases move
      exact fun name atRest => (attended name atRest).imp_left Pending.notified
  | start ok =>
      dsimp only [Step, DirWatcher.step] at move
      split at move <;> cases move
      cases ok <;> exact fun name atRest => .inl trivial
  | readDir entries => exact attended_readDir careful move
  | entry ok => exact attended.entry careful move
  | watch => exact attended.watch move
  | recv => exact attended.recv move
  | settle late => exact attended.settle move
  | claim ok => exact attended.claim careful move
  | unpack count => exact attended.unpack move
  | enqueue ok => exact attended.enqueue move
  | move made renamed => exact attended.moveInto move
  | copy result => exact attended.copy move
  | remove ok => exact attended.removeFile move
  | stop =>
      cases move
      exact fun name atRest => .inl trivial

theorem Kept.keep (kept : Kept state.files) (once : state.Once) (careful : state.Careful label)
    (move : state.Step label next) : Kept next.files := by
  cases label with
  | drop name content modified complete => exact kept.dropped once.files move
  | write drop content modified last => exact kept.write careful.1 move
  | claim ok => exact kept.claim careful move
  | move made renamed => exact kept.moveInto careful move
  | copy result => exact kept.copy careful move
  | remove ok => exact kept.removeFile careful move
  | entry ok => exact entry_files move ▸ kept
  | recv => exact recv_files move ▸ kept
  | settle late => exact settle_files move ▸ kept
  | unpack count => exact unpack_files move ▸ kept
  | enqueue ok => exact enqueue_files move ▸ kept
  | start ok =>
      dsimp only [Step, DirWatcher.step] at move
      split at move <;> cases move
      exact kept
  | readDir entries => exact readDir_files move ▸ kept
  | watch => exact watch_files move ▸ kept
  | notify name =>
      cases move
      exact kept
  | stop =>
      cases move
      exact kept

/-- Each file is imported at most once, whatever happens. None is left behind and none lost if
every step is careful. -/
theorem imports_once {labels : List Label} {state : DirWatcher} (run : Run Step init labels state) :
    state.ImportsOnce ∧
      (Run.Always Step init (fun _ => Careful) labels → state.LosesNone) := by
  have once : state.Once := by
    apply run.invariant (fun _ state => state.Once) once_init
    intro labels state label next _ once move
    exact once.keep move
  refine ⟨⟨once.claimed, once.enqueued⟩, fun careful => ?_⟩
  obtain ⟨-, attended, kept⟩ : state.Once ∧ state.Attended ∧ Kept state.files := by
    apply run.invariant_of_steps (fun _ state => state.Once ∧ state.Attended ∧ Kept state.files)
      careful ⟨once_init, attended_init, kept_init⟩
    rintro labels state label next _ ⟨once, attended, kept⟩ careful move
    exact ⟨once.keep move, attended.keep careful move, kept.keep once careful move⟩
  refine ⟨fun isWatching idle noEvents file isFile isComplete name isAt => ?_, kept⟩
  by_contra notPlain
  have pending : state.Pending name := attended.pending idle
    ⟨by simpa using notPlain, file, isFile, isComplete, isAt⟩
  have isListed : name ∈ state.events := (pending_iff isWatching).mp pending
  rw [noEvents] at isListed
  exact absurd isListed List.not_mem_nil

end Soundness

theorem step_functional (state : DirWatcher) (label : Label) (next other : DirWatcher)
    (move : Step state label next) (again : Step state label other) : next = other :=
  Option.some.inj (move.symm.trans again)

theorem exists_run {labels : List Label} {goal : DirWatcher → Prop}
    (executed : ∃ state ∈ execute step init labels, goal state) :
    ∃ state, Run Step init labels state ∧ goal state := by
  obtain ⟨state, isEnd, isGoal⟩ := executed
  exact ⟨state, Run.of_execute (fun _ _ _ move => move) Run.start isEnd, isGoal⟩

instance (files : List File) (file : File) : Decidable (Found files file) :=
  inferInstanceAs (Decidable (∃ found ∈ files, found.drop = file.drop ∧
    found.content = file.content ∧ found.place ≠ none))

instance (state : DirWatcher) (name : Name) : Decidable (state.Settling name) := by
  unfold Settling
  split <;> infer_instance

instance (state : DirWatcher) (name : Name) : Decidable (state.Pending name) := by
  unfold Pending
  split <;> infer_instance

instance (state : DirWatcher) (name : Name) : Decidable (state.Listed name) := by
  unfold Listed
  split <;> infer_instance

instance (state : DirWatcher) (name : Name) : Decidable (state.AtRest name) :=
  inferInstanceAs (Decidable (isNzbFile name = true ∧
    ∃ file ∈ state.files, file.complete = true ∧ file.place = some ⟨.watch, name⟩))

instance (state : DirWatcher) (place : Place) : Decidable (state.Free place) :=
  inferInstanceAs (Decidable (∀ file ∈ state.files, file.place ≠ some place))

instance (state : DirWatcher) : Decidable state.Copied := by
  unfold Copied
  split <;> infer_instance

instance (state : DirWatcher) : Decidable state.Unoccupied := by
  unfold Unoccupied
  split <;> infer_instance

instance (state : DirWatcher) (label : Label) : Decidable (state.Careful label) := by
  unfold Careful
  split <;> try infer_instance
  split <;> infer_instance

def carefulStep (state : DirWatcher) (label : Label) : Option DirWatcher :=
  if state.Careful label then state.step label else none

theorem careful_carefulStep (state : DirWatcher) (label : Label) (next : DirWatcher)
    (move : state.carefulStep label = some next) : Step state label next ∧ state.Careful label := by
  rcases Option.ite_none_right_eq_some.mp move with ⟨careful, step⟩
  exact ⟨step, careful⟩

def film : Name := "film.nzb".toList

/-- A watched file is found to be complete, claimed and enqueued. -/
def imported : List Label :=
  [.settle false, .claim true, .unpack (some 1), .enqueue true]

/-- A file is there at the start, and another comes later and cannot be renamed. -/
theorem imports_once_two : ∃ state,
    Run Step init (([.drop film [1] 0 true, .start true, .readDir (some [film]), .entry true] :
        List Label) ++ imported ++ ([.move true true, .watch, .drop "show.zip".toList [2] 0 false,
        .write 1 [2, 3] 1 true, .recv] : List Label) ++ imported ++ ([.move true false, .copy .done,
        .remove true, .recv] : List Label)) state ∧
      state.claimed = [0, 1] ∧ state.LosesNone := by
  have ends : (execute carefulStep init (([.drop film [1] 0 true, .start true,
      .readDir (some [film]), .entry true] : List Label) ++ imported ++ ([.move true true, .watch,
        .drop "show.zip".toList [2] 0 false, .write 1 [2, 3] 1 true, .recv] : List Label) ++
        imported ++ ([.move true false, .copy .done, .remove true, .recv] : List Label))).map
        claimed = some [0, 1] := by
    decide
  rcases Option.map_eq_some_iff.mp ends with ⟨state, executed, claimed⟩
  rcases Run.always_of_execute step_functional careful_carefulStep Run.start Run.Always.nil
    executed with ⟨run, careful⟩
  exact ⟨state, run, claimed, (imports_once run).2 careful⟩

/-- A file that comes to rest between the scan and the watch is left; so is one that cannot be
claimed at the first try. Of two files of one name, the second takes the place of the first among
the processed ones, and of one that is still claimed. -/
theorem not_imports_once :
    (∃ state, Run Step init [.start true, .readDir (some []), .drop film [1] 0 true, .watch] state ∧
      state.phase = .watching ∧ state.work = none ∧ state.events = [] ∧ state.AtRest film) ∧
    (∃ state, Run Step init [.start true, .readDir (some []), .watch, .drop film [1] 0 true, .recv,
        .settle false, .claim false] state ∧
      state.phase = .watching ∧ state.work = none ∧ state.events = [] ∧ state.AtRest film) ∧
    (∃ state, Run Step init (([.start true, .readDir (some []), .watch, .drop film [1] 0 true,
        .recv] : List Label) ++ imported ++ ([.move true true, .drop film [2] 0 true, .recv] :
        List Label) ++ imported ++ ([.move true true] : List Label)) state ∧
      ∃ file ∈ state.files, file.copy = false ∧ file.withdrawn = false ∧
        ¬ Found state.files file) ∧
    ∃ state, Run Step init (([.start true, .readDir (some []), .watch, .drop film [1] 0 true,
        .recv] : List Label) ++ imported ++ ([.move false false, .drop film [2] 0 true, .recv,
        .settle false, .claim true] : List Label)) state ∧
      ∃ file ∈ state.files, file.copy = false ∧ file.withdrawn = false ∧
        ¬ Found state.files file :=
  ⟨exists_run (by decide), exists_run (by decide), exists_run (by decide),
    exists_run (by decide)⟩

end DirWatcher

end Rustnzb.Web.Watch
