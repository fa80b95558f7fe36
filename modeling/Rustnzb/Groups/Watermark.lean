import Rustnzb.Groups.HeaderFetch

/-!
# What lies below a group's watermark

Each number up to a server's watermark was asked of that server, or a batch that started above it
left it out: the server did not have it then, or it was older than the newest that one fetch scans.
The watermark moves forward as long as its server stays the same.

This holds of the runs in which a request takes the guard with the current watermark in hand, and
the watermark fits its column; `Steady` says so of each step.
-/

namespace Rustnzb.Groups

open Lib

def numbers (ranges : List (ℕ × ℕ)) : List ℕ :=
  ranges.flatMap fun range => List.range' range.1 (range.2 + 1 - range.1)

/-- The fetch has asked for consecutive numbers, in a bounded number of batches. -/
def Fetch.Bounded (fetch : Fetch) : Prop :=
  fetch.requested.length * headerFetchBatch ≤ headerFetchMaxArticles ∧
    ∃ start count, numbers fetch.requested = List.range' start count

def Holder.requested : Holder → List (ℕ × ℕ)
  | .fetch running => running.requested
  | .clear _ => []

namespace Group

/-- The number was asked of the server since the last clear, and what it sent was stored. -/
def Requested (group : Group) (server : ServerId) (number : ℕ) : Prop :=
  ∃ stored ∈ group.stored, stored.server = server ∧ stored.first ≤ number ∧ number ≤ stored.last

def LeftOut (group : Group) (server : ServerId) (number : ℕ) : Prop :=
  ∃ mark ∈ group.marks, mark.server = server ∧ mark.passedFrom ≤ number ∧
    number < mark.passedTo ∧ (number < mark.first ∨ number + headerFetchMaxArticles ≤ mark.last)

/-- The view of the watermark that a request takes the guard with is the current one. -/
def Fresh (group : Group) : Request → Prop
  | .ready server lastScanned =>
      lastScanned = lastScannedFor group.lastScanned group.scanServer server
  | _ => True

/-- The watermark that the fetch is about to write fits its column. -/
def Fits (group : Group) : Prop :=
  match group.guard with
  | some (.fetch ⟨_, _, .updating batch, _⟩) => batch.batchEnd < 2 ^ 63
  | _ => True

def Steady (group : Group) : Label → Prop
  | .tryStart index => group.guard = none → ∀ request ∈ group.requests[index]?, group.Fresh request
  | .groupUpdateWatermark => group.Fits
  | _ => True

/-- The watermark moves forward while its server stays the same. -/
def Forward (marks : List Mark) : Prop :=
  marks.IsChain fun mark next => mark.server = next.server → mark.value < next.value

structure NeverSkips (group : Group) : Prop where
  covered : ∀ server, group.scanServer = some server → ∀ number : ℕ,
    (number : ℤ) ≤ group.lastScanned →
      group.Requested server number ∨ group.LeftOut server number
  bounded : ∀ fetch, group.guard = some (.fetch fetch) → fetch.Bounded
  /-- A fetch that ends as it should has asked for each number of its plan once. -/
  complete : ∀ finished ∈ group.finished,
    numbers finished.requested =
      List.range' finished.start (finished.finish + 1 - finished.start)
  forward : Forward group.marks

end Group

section Plan

variable {lastScanned : Option ℕ} {first last start finish : ℕ}

theorem saturatingAdd_le (left right : ℕ) : saturatingAdd left right ≤ left + right :=
  Nat.min_le_left _ _

theorem saturatingAdd_eq {left right : ℕ} (fits : left + right < 2 ^ 64) :
    saturatingAdd left right = left + right :=
  Nat.min_eq_left (Nat.le_sub_one_of_lt fits)

theorem planHeaderFetch_spec
    (planned : planHeaderFetch lastScanned first last headerFetchMaxArticles =
      some (start, finish)) :
    finish = last ∧ 0 < last ∧ start ≤ last ∧ last < start + headerFetchMaxArticles ∧
      (∀ scanned ∈ lastScanned, scanned < 2 ^ 63 → scanned < start) ∧
      ∀ number < start, (∀ scanned ∈ lastScanned, scanned < number) →
        number < first ∨ number + headerFetchMaxArticles ≤ last := by
  have cap : headerFetchMaxArticles = 10000 := rfl
  unfold planHeaderFetch at planned
  split at planned
  · simp at planned
  next hasArticles =>
    cases lastScanned with
    | none =>
        dsimp only at planned
        split at planned
        · simp at planned
        rw [Option.some.injEq, Prod.mk.injEq] at planned
        refine ⟨by omega, by omega, by omega, by omega, by simp, ?_⟩
        intro number below _
        omega
    | some scanned =>
        have upper := saturatingAdd_le scanned 1
        dsimp only at planned
        split at planned
        · simp at planned
        rw [Option.some.injEq, Prod.mk.injEq] at planned
        refine ⟨by omega, by omega, by omega, by omega, ?_, ?_⟩
        · rintro _ ⟨⟩ fits
          have exact : saturatingAdd scanned 1 = scanned + 1 := saturatingAdd_eq (by omega)
          omega
        · intro number below above
          have isAbove := above scanned rfl
          omega

theorem batchEnd_spec {batch : Batch} (inPlan : batch.batchStart ≤ batch.finish)
    (isU64 : batch.finish < 2 ^ 64) :
    batch.batchStart ≤ batch.batchEnd ∧ batch.batchEnd ≤ batch.finish ∧
      (batch.batchEnd < batch.finish →
        batch.batchEnd + 1 = batch.batchStart + headerFetchBatch) := by
  have size : headerFetchBatch = 2000 := rfl
  have upper := saturatingAdd_le batch.batchStart (headerFetchBatch - 1)
  have lower : min (batch.batchStart + (headerFetchBatch - 1)) (2 ^ 64 - 1) =
      saturatingAdd batch.batchStart (headerFetchBatch - 1) := rfl
  unfold Batch.batchEnd
  omega

theorem Batch.nextStart_eq {batch : Batch} (fits : batch.batchEnd < 2 ^ 63) :
    batch.nextStart = batch.batchEnd + 1 :=
  Nat.mod_eq_of_lt (by omega)

theorem toI64_eq {number : ℕ} (fits : number < 2 ^ 63) : toI64 number = number :=
  if_pos fits

theorem numbers_append (ranges : List (ℕ × ℕ)) (range : ℕ × ℕ) :
    numbers (ranges ++ [range]) =
      numbers ranges ++ List.range' range.1 (range.2 + 1 - range.1) := by
  simp [numbers]

end Plan

namespace Group

section Marks

variable {group : Group} {server : ServerId}

theorem lastMark_append {next : Group} {mark : Mark}
    (isMarks : next.marks = group.marks ++ [mark]) :
    next.lastMark server =
      if mark.server = server then some mark.value else group.lastMark server := by
  unfold lastMark
  rw [isMarks]
  by_cases same : mark.server = server <;> simp [List.filter_append, same]

theorem unpassed_le_iff {number : ℕ} :
    group.unpassed server ≤ number ↔ ∀ value ∈ group.lastMark server, value < number := by
  unfold unpassed
  cases group.lastMark server with
  | none => simp
  | some value =>
      simp only [Option.mem_def, Option.some.injEq, forall_eq']
      omega

end Marks

/-- What a running fetch relies on for its current batch, with the last mark and the watermark of
its server. -/
structure BatchSound (last : Option Mark) (watermark : Option ℤ) (server : ServerId)
    (batch : Batch) : Prop where
  begun : batch.start ≤ batch.batchStart
  inPlan : batch.batchStart ≤ batch.finish
  finish : batch.finish = batch.last
  positive : 0 < batch.last
  isU64 : batch.last < 2 ^ 64
  short : batch.finish < batch.start + headerFetchMaxArticles
  ahead : ∀ mark ∈ last, mark.server = server → mark.value < batch.batchStart
  leavesOut : ∀ number < batch.batchStart, (∀ value ∈ watermark, value < number) →
    number < batch.first ∨ number + headerFetchMaxArticles ≤ batch.last

def FetchSound (group : Group) (fetch : Fetch) : Prop :=
  let sound := BatchSound group.marks.getLast? (group.lastMark fetch.server) fetch.server
  match fetch.stage with
  | .connecting =>
      fetch.requested = [] ∧
        fetch.lastScanned = lastScannedFor group.lastScanned group.scanServer fetch.server
  | .requesting batch =>
      sound batch ∧
        fetch.requested.length * headerFetchBatch = batch.batchStart - batch.start ∧
          numbers fetch.requested = List.range' batch.start (batch.batchStart - batch.start)
  | .inserting batch =>
      sound batch ∧
        fetch.requested.length * headerFetchBatch =
            batch.batchStart - batch.start + headerFetchBatch ∧
          numbers fetch.requested = List.range' batch.start (batch.batchEnd + 1 - batch.start)
  | .updating batch =>
      (sound batch ∧
        ⟨fetch.server, batch.batchStart, batch.batchEnd⟩ ∈ group.stored) ∧
        fetch.requested.length * headerFetchBatch =
            batch.batchStart - batch.start + headerFetchBatch ∧
          numbers fetch.requested = List.range' batch.start (batch.batchEnd + 1 - batch.start)
  | .ending => fetch.Bounded

structure Sound (group : Group) : Prop where
  table : (group.lastScanned, group.scanServer) =
    match group.marks.getLast? with
    | none => (0, none)
    | some mark => (mark.value, some mark.server)
  positive : ∀ mark ∈ group.marks, 0 < mark.value ∧ mark.value < 2 ^ 63
  forward : Forward group.marks
  accounted : ∀ server, ∀ value ∈ group.lastMark server, ∀ number : ℕ, number ≤ value →
    group.Requested server number ∨ group.LeftOut server number
  fetch : ∀ fetch, group.guard = some (.fetch fetch) → group.FetchSound fetch
  complete : ∀ finished ∈ group.finished,
    numbers finished.requested =
      List.range' finished.start (finished.finish + 1 - finished.start)

section Steps

variable {group next : Group} {index : ℕ}

theorem FetchSound.bounded {fetch : Fetch} (fetchSound : group.FetchSound fetch) :
    fetch.Bounded := by
  have size : headerFetchBatch = 2000 := rfl
  have cap : headerFetchMaxArticles = 10000 := rfl
  rcases fetch with ⟨server, lastScanned, stage, requested⟩
  cases stage with
  | connecting =>
      obtain ⟨isEmpty, -⟩ := fetchSound
      dsimp only at isEmpty
      subst isEmpty
      exact ⟨by simp, 0, 0, rfl⟩
  | requesting batch =>
      obtain ⟨⟨begun, inPlan, isFinish, positive, isU64, short, -, -⟩, isLength, isNumbers⟩ :=
        fetchSound
      dsimp only at isLength isNumbers
      refine ⟨?_, _, _, isNumbers⟩
      dsimp only
      rw [size] at isLength ⊢
      omega
  | inserting batch =>
      obtain ⟨⟨begun, inPlan, isFinish, positive, isU64, short, -, -⟩, isLength, isNumbers⟩ :=
        fetchSound
      dsimp only at isLength isNumbers
      refine ⟨?_, _, _, isNumbers⟩
      dsimp only
      rw [size] at isLength ⊢
      omega
  | updating batch =>
      obtain ⟨⟨⟨begun, inPlan, isFinish, positive, isU64, short, -, -⟩, -⟩, isLength, isNumbers⟩ :=
        fetchSound
      dsimp only at isLength isNumbers
      refine ⟨?_, _, _, isNumbers⟩
      dsimp only
      rw [size] at isLength ⊢
      omega
  | ending => exact fetchSound

theorem sound_start : start.Sound where
  table := rfl
  positive := by simp [start]
  forward := by simp [start, Forward]
  accounted := by simp [start, lastMark]
  fetch := by simp [start]
  complete := by simp [start]

section

variable (sound : group.Sound)

include sound

theorem Sound.withGuard {requests : List Request} {guard : Option Holder}
    (fetch : ∀ fetch, guard = some (.fetch fetch) → group.FetchSound fetch) :
    ({ group with requests := requests, guard := guard }).Sound :=
  ⟨sound.table, sound.positive, sound.forward, sound.accounted, fetch, sound.complete⟩

theorem Sound.groupScanServer (move : group.groupScanServer index = some next) : next.Sound := by
  revert move
  fun_cases Group.groupScanServer group index <;> intro move <;> cases move
  exact sound.withGuard sound.fetch

theorem Sound.browseServer {server : ServerId}
    (move : group.browseServer index server = some next) : next.Sound := by
  revert move
  fun_cases Group.browseServer group index server <;> intro move <;> cases move
  exact sound.withGuard sound.fetch

theorem Sound.tryStart
    (fresh : group.guard = none → ∀ request ∈ group.requests[index]?, group.Fresh request)
    (move : group.tryStart index = some next) : next.Sound := by
  revert move
  fun_cases Group.tryStart group index <;> intro move <;> cases move
  case case1 server lastScanned isReady taken => exact sound.withGuard sound.fetch
  case case2 server lastScanned isReady free =>
    apply sound.withGuard
    rintro fetch ⟨⟩
    exact ⟨rfl, fresh (by simpa using free) _ isReady⟩

theorem Sound.getLast_eq {server : ServerId} (scanned : group.scanServer = some server) :
    ∃ mark, group.marks.getLast? = some mark ∧ mark.server = server ∧
      mark.value = group.lastScanned := by
  have table := sound.table
  cases isLast : group.marks.getLast? with
  | none => simp [isLast, scanned] at table
  | some mark =>
      simp only [isLast, scanned, Prod.mk.injEq, Option.some.injEq] at table
      exact ⟨mark, rfl, table.2.symm, table.1.symm⟩

theorem Sound.lastMark_eq {server : ServerId} (scanned : group.scanServer = some server) :
    group.lastMark server = some group.lastScanned := by
  obtain ⟨mark, isLast, isServer, isValue⟩ := sound.getLast_eq scanned
  obtain ⟨older, isAppend⟩ := List.getLast?_eq_some_iff.mp isLast
  simp [lastMark, isAppend, List.filter_append, isServer, isValue]

theorem Sound.getLast_ne {server : ServerId} {mark : Mark}
    (isView : lastScannedFor group.lastScanned group.scanServer server = none)
    (isLast : group.marks.getLast? = some mark) : mark.server ≠ server := by
  rintro rfl
  have table := sound.table
  simp only [isLast, Prod.mk.injEq] at table
  have positive := (sound.positive mark (List.mem_of_getLast? isLast)).1
  simp only [lastScannedFor, table, positive, and_self, if_true] at isView
  simp at isView

theorem Sound.knows {server : ServerId} {scanned : ℕ}
    (isValid : lastScannedFor group.lastScanned group.scanServer server = some scanned) :
    group.lastMark server = some (scanned : ℤ) ∧ scanned < 2 ^ 63 ∧
      ∃ mark, group.marks.getLast? = some mark ∧ mark.value = scanned := by
  unfold lastScannedFor at isValid
  split at isValid
  next valid =>
    obtain ⟨mark, isLast, -, isValue⟩ := sound.getLast_eq valid.1
    have isNat : (scanned : ℤ) = group.lastScanned := by
      rw [← Option.some.inj isValid]
      exact Int.toNat_of_nonneg (by omega)
    have small := (sound.positive mark (List.mem_of_getLast? isLast)).2
    rw [isNat]
    exact ⟨sound.lastMark_eq valid.1, by omega, mark, isLast, isValue⟩
  · simp at isValid

end

theorem Requested.mono {server : ServerId} {number : ℕ}
    (isStored : ∀ stored ∈ group.stored, stored ∈ next.stored)
    (requested : group.Requested server number) : next.Requested server number := by
  obtain ⟨stored, isOld, isRange⟩ := requested
  exact ⟨stored, isStored stored isOld, isRange⟩

theorem LeftOut.mono {server : ServerId} {number : ℕ}
    (isMark : ∀ mark ∈ group.marks, mark ∈ next.marks)
    (leftOut : group.LeftOut server number) : next.LeftOut server number := by
  obtain ⟨mark, isOld, isRange⟩ := leftOut
  exact ⟨mark, isMark mark isOld, isRange⟩

theorem Sound.planned {first last : ℕ} (sound : group.Sound)
    (move : group.planned first last = some next) : next.Sound := by
  revert move
  fun_cases Group.planned group first last <;> intro move <;> cases move
  case case1 server lastScanned requested isHeld isU64 noPlan =>
    apply sound.withGuard
    rintro fetch ⟨⟩
    exact (sound.fetch _ isHeld).bounded
  case case2 server lastScanned requested isHeld isU64 start finish plan =>
    obtain ⟨isEmpty, isView⟩ := sound.fetch _ isHeld
    dsimp only at isEmpty isView
    obtain ⟨isFinish, positive, inPlan, short, ahead, leavesOut⟩ := planHeaderFetch_spec plan
    apply sound.withGuard
    rintro fetch ⟨⟩
    refine ⟨⟨le_rfl, isFinish ▸ inPlan, isFinish, positive, isU64.2, isFinish ▸ short,
      ?_, ?_⟩, by simp [isEmpty], by simp [isEmpty, numbers]⟩
    · intro mark isLast isServer
      cases isScanned : lastScanned with
      | none => exact absurd isServer (sound.getLast_ne (isView ▸ isScanned) isLast)
      | some scanned =>
          obtain ⟨-, small, known, isKnown, isValue⟩ := sound.knows (isView ▸ isScanned)
          cases isKnown.symm.trans isLast
          rw [isValue]
          exact_mod_cast ahead scanned isScanned small
    · intro number below above
      apply leavesOut number below
      intro scanned isScanned
      have isAbove := above scanned (sound.knows (isView ▸ isScanned)).1
      exact_mod_cast isAbove

theorem Sound.xover (sound : group.Sound) (move : group.xover = some next) : next.Sound := by
  revert move
  fun_cases Group.xover group <;> intro move <;> cases move
  case case1 server lastScanned batch requested isHeld =>
    obtain ⟨batchSound, isLength, isNumbers⟩ := sound.fetch _ isHeld
    dsimp only at isLength isNumbers
    obtain ⟨fromStart, -, -⟩ := batchEnd_spec batchSound.inPlan
      (batchSound.finish ▸ batchSound.isU64)
    have begun := batchSound.begun
    apply sound.withGuard
    rintro fetch ⟨⟩
    refine ⟨batchSound, ?_, ?_⟩
    · rw [List.length_append, List.length_singleton, Nat.add_mul, isLength, Nat.one_mul]
    · rw [numbers_append, isNumbers]
      have isNext : batch.start + (batch.batchStart - batch.start) = batch.batchStart := by omega
      have isCount : batch.batchStart - batch.start + (batch.batchEnd + 1 - batch.batchStart) =
          batch.batchEnd + 1 - batch.start := by
        omega
      rw [← isCount, ← List.range'_append_1, isNext]

theorem Sound.headerInsertBatch (sound : group.Sound)
    (move : group.headerInsertBatch = some next) : next.Sound := by
  revert move
  fun_cases Group.headerInsertBatch group <;> intro move <;> cases move
  case case1 server lastScanned batch requested isHeld =>
    have isStored : ∀ stored ∈ group.stored, stored ∈ group.stored ++
        [Stored.mk server batch.batchStart batch.batchEnd] :=
      fun _ => List.mem_append_left _
    refine ⟨sound.table, sound.positive, sound.forward, ?_, ?_, sound.complete⟩
    · intro other value isValue number upTo
      exact (sound.accounted other value isValue number upTo).imp_left (Requested.mono isStored)
    · rintro fetch ⟨⟩
      obtain ⟨batchSound, counts⟩ := sound.fetch _ isHeld
      exact ⟨⟨batchSound, by simp⟩, counts⟩

section Update

variable {server : ServerId} {batch : Batch} {mark : Mark}

theorem forward_append (forward : Forward group.marks)
    (isMarks : next.marks = group.marks ++ [mark])
    (ahead : ∀ before ∈ group.marks.getLast?, before.server = mark.server →
      before.value < mark.value) : Forward next.marks := by
  unfold Forward at forward ⊢
  rw [isMarks]
  apply forward.append
  · simp
  · simpa using ahead

theorem accounted_append
    (accounted : ∀ server, ∀ value ∈ group.lastMark server, ∀ number : ℕ, number ≤ value →
      group.Requested server number ∨ group.LeftOut server number)
    (isMarks : next.marks = group.marks ++ [mark])
    (isFrom : mark.passedFrom = group.unpassed mark.server)
    (isStored : ∀ stored ∈ group.stored, stored ∈ next.stored)
    (requested : ∀ number : ℕ, mark.passedTo ≤ number → number ≤ mark.value →
      next.Requested mark.server number)
    (leavesOut : ∀ number < mark.passedTo, (∀ value ∈ group.lastMark mark.server, value < number) →
      number < mark.first ∨ number + headerFetchMaxArticles ≤ mark.last) :
    ∀ server, ∀ value ∈ next.lastMark server, ∀ number : ℕ, number ≤ value →
      next.Requested server number ∨ next.LeftOut server number := by
  have isOld : ∀ old ∈ group.marks, old ∈ next.marks := by simp +contextual [isMarks]
  intro server value isValue number upTo
  rw [lastMark_append isMarks] at isValue
  split at isValue
  next isServer =>
    subst isServer
    cases isValue
    by_cases inBatch : mark.passedTo ≤ number
    · exact .inl (requested number inBatch upTo)
    by_cases above : group.unpassed mark.server ≤ number
    · right
      exact ⟨mark, by simp [isMarks], rfl, isFrom ▸ above, by omega,
        leavesOut number (by omega) (unpassed_le_iff.mp above)⟩
    rw [unpassed_le_iff] at above
    push Not at above
    obtain ⟨before, isBefore, isBelow⟩ := above
    exact (accounted _ before isBefore number isBelow).imp (Requested.mono isStored)
      (LeftOut.mono isOld)
  · exact (accounted server value isValue number upTo).imp (Requested.mono isStored)
      (LeftOut.mono isOld)

theorem BatchSound.following {last : Option Mark} {watermark : Option ℤ} {batchEnd : ℕ}
    (batchSound : BatchSound last watermark server batch) (begun : batch.start ≤ batchEnd)
    (more : batchEnd + 1 ≤ batch.finish) (isValue : mark.value = batchEnd) :
    BatchSound (some mark) (some (batchEnd : ℤ)) server
      { batch with batchStart := batchEnd + 1 } where
  begun := Nat.le_succ_of_le begun
  inPlan := more
  finish := batchSound.finish
  positive := batchSound.positive
  isU64 := batchSound.isU64
  short := batchSound.short
  ahead := by
    rintro _ ⟨⟩ -
    dsimp only
    omega
  leavesOut := by
    intro number below above
    have isAbove := above _ rfl
    dsimp only at below
    omega

theorem Sound.groupUpdateWatermark (sound : group.Sound) (fits : group.Fits)
    (move : group.groupUpdateWatermark = some next) : next.Sound := by
  revert move
  fun_cases Group.groupUpdateWatermark group <;> intro move
  case case1 server lastScanned batch requested isHeld =>
    obtain ⟨⟨batchSound, isStored⟩, isLength, isNumbers⟩ := sound.fetch _ isHeld
    have isBounded := (sound.fetch _ isHeld).bounded
    dsimp only at batchSound isStored isLength isNumbers
    have small : batch.batchEnd < 2 ^ 63 := by simpa [Fits, isHeld] using fits
    obtain ⟨fromStart, toFinish, isFull⟩ := batchEnd_spec batchSound.inPlan
      (batchSound.finish ▸ batchSound.isU64)
    have begun := batchSound.begun
    have isFinish := batchSound.finish
    have positive := batchSound.positive
    have size : headerFetchBatch = 2000 := rfl
    rw [Batch.nextStart_eq small, toI64_eq small, Option.some.injEq] at move
    generalize batch.batchEnd = batchEnd at *
    have isMarks : next.marks = group.marks ++ [Mark.mk server batchEnd (group.unpassed server)
        batch.batchStart batch.first batch.last] := by rw [← move]
    have isSame : next.stored = group.stored := by rw [← move]
    refine ⟨?_, ?_, forward_append sound.forward isMarks ?_,
      accounted_append sound.accounted isMarks rfl (by simp [isSame]) ?_ batchSound.leavesOut,
      ?_, ?_⟩
    · rw [isMarks, List.getLast?_concat, ← move]
    · intro mark isMark
      rw [isMarks, List.mem_append, List.mem_singleton] at isMark
      rcases isMark with isOld | rfl
      · exact sound.positive mark isOld
      · dsimp only
        omega
    · intro before isBefore sameServer
      have isAhead := batchSound.ahead before isBefore sameServer
      dsimp only
      omega
    · intro number inBatch upTo
      exact ⟨_, isSame ▸ isStored, rfl, inBatch, Int.ofNat_le.mp upTo⟩
    · intro fetch isFetch
      rw [← move] at isFetch
      cases isFetch
      by_cases more : batchEnd + 1 ≤ batch.finish
      · rw [if_pos more]
        have isLast : next.lastMark server = some (batchEnd : ℤ) :=
          (lastMark_append isMarks).trans (if_pos rfl)
        have isCount : requested.length * headerFetchBatch = batchEnd + 1 - batch.start := by
          have isFull := isFull (by omega)
          omega
        refine ⟨?_, isCount, isNumbers⟩
        dsimp only
        rw [isLast, isMarks, List.getLast?_concat]
        exact batchSound.following (by omega) more rfl
      · rw [if_neg more]
        exact isBounded
    · intro finished isFinished
      rw [← move] at isFinished
      dsimp only at isFinished
      split at isFinished
      · exact sound.complete finished isFinished
      next noMore =>
        rw [List.mem_append, List.mem_singleton] at isFinished
        rcases isFinished with isOlder | rfl
        · exact sound.complete finished isOlder
        have isEnd : batchEnd = batch.finish := by omega
        exact isEnd ▸ isNumbers
  case case2 => simp at move

end Update

theorem Sound.headerClearGroup {ok : Bool} (sound : group.Sound)
    (move : group.headerClearGroup ok = some next) : next.Sound := by
  revert move
  fun_cases Group.headerClearGroup group ok <;> intro move <;> cases move
  case case1 =>
    exact ⟨rfl, by simp, by simp [Forward], by simp [lastMark], by simp, sound.complete⟩
  case case2 => exact sound.withGuard (by simp)

theorem Sound.fail (sound : group.Sound) (move : group.fail = some next) : next.Sound := by
  revert move
  fun_cases Group.fail group <;> intro move <;> cases move
  case case1 fetch isHeld =>
    apply sound.withGuard
    rintro _ ⟨⟩
    exact (sound.fetch fetch isHeld).bounded

theorem Sound.drop (sound : group.Sound) (move : group.drop = some next) : next.Sound := by
  revert move
  fun_cases Group.drop group <;> intro move <;> cases move
  · exact sound.withGuard (by simp)
  · exact sound.withGuard (by simp)

theorem Sound.keep {label : Label} (sound : group.Sound) (steady : group.Steady label)
    (move : group.Step label next) : next.Sound := by
  cases label with
  | groupGet =>
      cases move
      exact sound.withGuard sound.fetch
  | browseServer index server => exact sound.browseServer move
  | groupScanServer index => exact sound.groupScanServer move
  | refuse index =>
      cases move
      exact sound.withGuard sound.fetch
  | tryStart index => exact sound.tryStart steady move
  | fail => exact sound.fail move
  | group first last => exact sound.planned move
  | xover => exact sound.xover move
  | headerInsertBatch => exact sound.headerInsertBatch move
  | groupUpdateWatermark => exact sound.groupUpdateWatermark steady move
  | tryStartClear =>
      dsimp only [Step, Group.step] at move
      split at move <;> cases move
      · exact sound
      · exact sound.withGuard (by simp)
  | headerClearGroup ok => exact sound.headerClearGroup move
  | drop => exact sound.drop move
  | restart =>
      cases move
      exact sound.withGuard (by simp)

theorem Sound.neverSkips (sound : group.Sound) : group.NeverSkips where
  covered server scanned number upTo :=
    sound.accounted server _ (sound.lastMark_eq scanned) number upTo
  bounded fetch isHeld := (sound.fetch fetch isHeld).bounded
  complete := sound.complete
  forward := sound.forward

end Steps

/-- Where no step is against it, the headers of a group are scanned without a gap. -/
theorem never_skips {labels : List Label} {group : Group} (run : Run Step start labels group)
    (steady : Run.Always Step start (fun _ => Steady) labels) : group.NeverSkips :=
  (run.invariant_of_steps (fun _ => Sound) steady sound_start
    fun _ _ _ _ _ sound steady move => sound.keep steady move).neverSkips

theorem step_functional (group : Group) (label : Label) (next other : Group)
    (move : Step group label next) (again : Step group label other) : next = other :=
  Option.some.inj (move.symm.trans again)

theorem run_of_execute {labels : List Label} {group : Group}
    (executed : execute step start labels = some group) : Run Step start labels group :=
  Run.of_execute (fun _ _ _ move => move) Run.start executed

theorem exists_run {labels : List Label} {goal : Group → Prop}
    (executed : ∃ group ∈ execute step start labels, goal group) :
    ∃ group, Run Step start labels group ∧ goal group := by
  obtain ⟨group, isEnd, isGoal⟩ := executed
  exact ⟨group, run_of_execute isEnd, isGoal⟩

instance (group : Group) (server : ServerId) (number : ℕ) :
    Decidable (group.Requested server number) :=
  inferInstanceAs (Decidable (∃ stored ∈ group.stored, stored.server = server ∧
    stored.first ≤ number ∧ number ≤ stored.last))

instance (group : Group) (server : ServerId) (number : ℕ) :
    Decidable (group.LeftOut server number) :=
  inferInstanceAs (Decidable (∃ mark ∈ group.marks, mark.server = server ∧
    mark.passedFrom ≤ number ∧ number < mark.passedTo ∧
      (number < mark.first ∨ number + headerFetchMaxArticles ≤ mark.last)))

instance (group : Group) (request : Request) : Decidable (group.Fresh request) := by
  unfold Fresh
  split <;> infer_instance

instance (group : Group) : Decidable group.Fits := by
  unfold Fits
  split <;> infer_instance

instance (group : Group) (label : Label) : Decidable (group.Steady label) := by
  unfold Steady
  split <;> infer_instance

def steadyStep (group : Group) (label : Label) : Option Group :=
  if group.Steady label then group.step label else none

theorem steady_steadyStep (group : Group) (label : Label) (next : Group)
    (move : group.steadyStep label = some next) : Step group label next ∧ group.Steady label := by
  rcases Option.ite_none_right_eq_some.mp move with ⟨steady, step⟩
  exact ⟨step, steady⟩

def request (server : ServerId) : List Label :=
  [.groupGet, .browseServer 0 server, .groupScanServer 0]

def batch : List Label := [.xover, .headerInsertBatch, .groupUpdateWatermark]

def fetched (first last : ℕ) : List Label :=
  ([.tryStart 0, .group first last] : List Label) ++ batch ++ ([.drop] : List Label)

/-- The group grows, and its oldest articles expire. -/
theorem never_skips_growing : ∃ group,
    Run Step start (request "s" ++ fetched 1 5 ++ request "s" ++ fetched 3 8) group ∧
      group.lastScanned = 8 ∧ group.NeverSkips := by
  have ends : (execute steadyStep start (request "s" ++ fetched 1 5 ++ request "s" ++
      fetched 3 8)).map lastScanned = some 8 := by decide
  rcases Option.map_eq_some_iff.mp ends with ⟨group, executed, scanned⟩
  rcases Run.always_of_execute step_functional steady_steadyStep Run.start Run.Always.nil
    executed with ⟨run, steady⟩
  exact ⟨group, run, scanned, never_skips run steady⟩

def fetchedTwo (server : ServerId) : List Label :=
  request server ++ ([.tryStart 0, .group 1 3000] : List Label) ++ batch ++ batch

/-- The server has the number 3 again after the watermark has passed it; another server is browsed
in between, and the first one is scanned anew; the headers are cleared between a request's look at
the watermark and its guard; of two requests that look at once the second moves the watermark back;
after the largest number a fetch goes on from 0. -/
theorem not_never_skips :
    (∃ group, Run Step start (request "s" ++ fetched 4 8 ++ request "s" ++ fetched 1 9) group ∧
      group.guard = none ∧ group.scanServer = some "s" ∧ group.lastScanned = 9 ∧
      ¬ group.Requested "s" 3 ∧ ∀ mark ∈ group.marks, mark.last < 3 + headerFetchMaxArticles) ∧
    (∃ group, Run Step start (fetchedTwo "s" ++ ([.drop] : List Label) ++ request "t" ++
        fetched 1 5 ++ fetchedTwo "s") group ∧
      group.marks.map (fun mark => (mark.server, mark.value)) =
        [("s", 2000), ("s", 3000), ("t", 5), ("s", 2000), ("s", 3000)]) ∧
    (∃ group, Run Step start (request "s" ++ fetched 1 5 ++ request "s" ++
        ([.tryStartClear, .headerClearGroup true, .drop] : List Label) ++ fetched 1 8) group ∧
      group.guard = none ∧ group.scanServer = some "s" ∧ group.lastScanned = 8 ∧
      ¬ group.Requested "s" 3 ∧ ¬ group.LeftOut "s" 3) ∧
    (∃ group, Run Step start (([.groupGet, .browseServer 0 "s", .groupScanServer 0] :
        List Label) ++ ([.groupGet, .browseServer 1 "s", .groupScanServer 1] : List Label) ++
        ([.tryStart 0, .group 1 3000] : List Label) ++ batch ++ batch ++
        ([.drop, .tryStart 0, .group 1 3000] : List Label) ++ batch) group ∧
      group.marks.map Mark.value = [2000, 3000, 2000]) ∧
    ∃ group, Run Step start (request "s" ++
        ([.tryStart 0, .group (2 ^ 64 - 1) (2 ^ 64 - 1)] : List Label) ++ batch ++ batch ++
        batch ++ batch ++ batch ++ batch) group ∧
      ∃ fetch, group.guard = some (.fetch fetch) ∧ ¬ fetch.Bounded := by
  refine ⟨exists_run (by decide), exists_run (by decide),
    exists_run (by decide), exists_run (by decide), exists_run ?_⟩
  have six : ∃ group ∈ execute step start (request "s" ++
      ([.tryStart 0, .group (2 ^ 64 - 1) (2 ^ 64 - 1)] : List Label) ++ batch ++ batch ++ batch ++
        batch ++ batch ++ batch),
      ∃ holder ∈ group.guard, holder.requested.length = 6 := by decide
  obtain ⟨group, isEnd, holder, isHeld, isLong⟩ := six
  cases holder with
  | fetch fetch =>
      refine ⟨group, isEnd, fetch, isHeld, fun bounded => ?_⟩
      have tooMany := bounded.1
      rw [show fetch.requested.length = 6 from isLong] at tooMany
      exact absurd tooMany (by decide)
  | clear => simp [Holder.requested] at isLong

end Group

end Rustnzb.Groups
