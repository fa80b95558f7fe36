import Rustnzb.Lib.Run
import Rustnzb.Lib.Coverage
import Rustnzb.Decode.SliceMap

/-!
# When a slice is handed to verification

The verifier counts bytes instead of tracking ranges. This file follows any sequence of calls on
a new verifier and shows what the count means: until an undecided slice is handed over, it is the
sum of the overlaps of the writes with the slice, in 64 bits. Writes that overlap can make the sum
reach the length of the slice early, and a sum beyond 64 bits can miss it. The hand-over is right
exactly as long as the sum reaches the length with the write that covers the slice.
-/

namespace Rustnzb.Decode

open Lib

inductive SliceOp where
  | markWritten (fileIndex offset len : ℕ)
  | verify (globalIndex : ℕ) (bytes : Bytes)
  | markDamaged (globalIndex : ℕ)

abbrev SliceCall := SliceOp × List ℕ

namespace SliceVerifier

/-- One call that returns. The end of a write fits in 64 bits. -/
inductive Step (hashes : Hashes) : SliceVerifier → SliceCall → SliceVerifier → Prop
  | markWritten {verifier marked : SliceVerifier} {fileIndex offset len : ℕ}
      {completed : List ℕ} (fits : offset + len < 2 ^ 64)
      (call : verifier.markWritten fileIndex offset len = some (marked, completed)) :
      Step hashes verifier (.markWritten fileIndex offset len, completed) marked
  | verify {verifier : SliceVerifier} (globalIndex : ℕ) (bytes : Bytes) :
      Step hashes verifier (.verify globalIndex bytes, [])
        (verify hashes verifier globalIndex bytes).1
  | markDamaged {verifier : SliceVerifier} (globalIndex : ℕ) :
      Step hashes verifier (.markDamaged globalIndex, []) (verifier.markDamaged globalIndex)

end SliceVerifier

def writesTo (fileIndex : ℕ) (calls : List SliceCall) : List (Finset ℕ) :=
  calls.filterMap fun call =>
    match call.1 with
    | .markWritten file offset len =>
        if file = fileIndex then some (Finset.Ico offset (offset + len)) else none
    | _ => none

def HandedOver (calls : List SliceCall) (globalIndex : ℕ) : Prop :=
  ∃ call ∈ calls, globalIndex ∈ call.2

namespace SliceCell

def bytes (cell : SliceCell) : Finset ℕ :=
  Finset.Ico cell.start (cell.start + cell.len)

def Written (calls : List SliceCall) (cell : SliceCell) : Prop :=
  covered cell.bytes (writesTo cell.fileIndex calls) = cell.bytes

def count (calls : List SliceCall) (cell : SliceCell) : ℕ :=
  counted cell.bytes (writesTo cell.fileIndex calls)

theorem bytes_congr {left right : SliceCell} (same : left.range = right.range) :
    left.bytes = right.bytes := by
  simp only [range, Prod.mk.injEq] at same
  simp [bytes, same]

theorem count_congr {left right : SliceCell} (same : left.range = right.range)
    (calls : List SliceCall) : left.count calls = right.count calls := by
  have file : left.fileIndex = right.fileIndex := congrArg Prod.fst same
  simp only [count, bytes_congr same, file]

theorem overlap_eq_card (cell : SliceCell) (offset len : ℕ) :
    overlap cell.start (cell.start + cell.len) offset (offset + len) =
      (cell.bytes ∩ Finset.Ico offset (offset + len)).card := by
  rw [bytes, card_Ico_inter_Ico, overlap]

end SliceCell

@[simp]
theorem writesTo_append (fileIndex : ℕ) (calls : List SliceCall) (call : SliceCall) :
    writesTo fileIndex (calls ++ [call]) =
      writesTo fileIndex calls ++ writesTo fileIndex [call] := by
  simp [writesTo]

theorem HandedOver.append {calls : List SliceCall} {g : ℕ} (handed : HandedOver calls g)
    (more : List SliceCall) : HandedOver (calls ++ more) g := by
  rcases handed with ⟨call, callMem, gMem⟩
  exact ⟨call, List.mem_append_left _ callMem, gMem⟩

theorem SliceCell.Written.append {calls : List SliceCall} {cell : SliceCell}
    (written : cell.Written calls) (more : List SliceCall) : cell.Written (calls ++ more) := by
  apply Finset.Subset.antisymm (covered_subset _ _)
  have earlier : cell.bytes ⊆ covered cell.bytes (writesTo cell.fileIndex calls) :=
    written.symm.subset
  refine earlier.trans ?_
  simp only [writesTo, List.filterMap_append]
  exact covered_mono_append _

theorem SliceCell.written_of_len_eq_zero {calls : List SliceCall} {cell : SliceCell}
    (empty : cell.len = 0) : cell.Written calls := by
  have none : cell.bytes = ∅ := by simp [SliceCell.bytes, empty]
  simp [SliceCell.Written, none, covered]

section Count

variable {hashes : Hashes} {layout : SliceLayout} {calls : List SliceCall}
  {verifier : SliceVerifier}

/-- What one call does to cell `g`. -/
inductive SliceCell.Moves (call : SliceCall) (g : ℕ) (cell : SliceCell) : SliceCell → Prop
  | stays (silent : writesTo cell.fileIndex [call] = []) (notReturned : g ∉ call.2) :
      Moves call g cell cell
  | decided {state : SliceState} (silent : writesTo cell.fileIndex [call] = [])
      (notReturned : g ∉ call.2) (isDecided : state ≠ .unknown) :
      Moves call g cell (cell.setState state)
  | wrote {offset len : ℕ}
      (writes : writesTo cell.fileIndex [call] = [Finset.Ico offset (offset + len)])
      (returned : g ∈ call.2 ↔ cell.completes offset (offset + len)) :
      Moves call g cell (cell.markWritten offset (offset + len))

variable {call : SliceCall}

theorem cells_of_step {next : SliceVerifier} (move : SliceVerifier.Step hashes verifier call next)
    (g : ℕ) :
    ∃ change : SliceCell → SliceCell, next.cells[g]? = verifier.cells[g]?.map change ∧
      (∀ cell, verifier.cells[g]? = some cell → cell.Moves call g (change cell)) ∧
      (g ∈ call.2 → ∃ cell, verifier.cells[g]? = some cell) := by
  cases move with
  | @markWritten _ fileIndex _ _ completed fits call =>
      have returned := SliceVerifier.mem_completed_of_markWritten fits call g
      refine ⟨_, SliceVerifier.cells_of_markWritten fits call g, fun cell found => ?_,
        fun mem => (returned.mp mem).imp fun _ => And.left⟩
      simp only [found, Option.some.injEq, exists_eq_left'] at returned
      split
      next owned => exact .wrote (by simp [writesTo, owned]) (by simpa [owned] using returned)
      next notOwned =>
        exact .stays (by simp [writesTo, Ne.symm notOwned]) (by simpa [notOwned] using returned)
  | verify globalIndex bytes =>
      unfold SliceVerifier.verify
      split
      · exact ⟨id, by simp, fun _ _ => .stays rfl (by simp), by simp⟩
      · refine ⟨_, SliceVerifier.getElem?_setState .., fun cell _ => ?_, by simp⟩
        split
        · exact .decided rfl (by simp) (SliceVerifier.verdict_ne_unknown _ _ _ _)
        · exact .stays rfl (by simp)
  | markDamaged globalIndex =>
      refine ⟨_, SliceVerifier.getElem?_setState .., fun cell _ => ?_, by simp⟩
      split
      · exact .decided rfl (by simp) (by simp)
      · exact .stays rfl (by simp)

variable {cell next : SliceCell}

theorem SliceCell.Moves.range_eq {g : ℕ} (moves : cell.Moves call g next) :
    next.range = cell.range := by
  cases moves <;> simp

theorem SliceCell.Moves.len_eq {g : ℕ} (moves : cell.Moves call g next) : next.len = cell.len :=
  congrArg (fun range => range.2.2) moves.range_eq

theorem SliceCell.Moves.undecided {g : ℕ} (moves : cell.Moves call g next)
    (undecided : next.state = .unknown) : cell.state = .unknown := by
  cases moves with
  | stays => exact undecided
  | decided _ _ isDecided => exact absurd undecided isDecided
  | wrote => rwa [SliceCell.state_markWritten] at undecided

theorem SliceCell.Moves.handed {g : ℕ} (moves : cell.Moves call g next) (mem : g ∈ call.2) :
    next.state = .unknown ∧ 0 < next.len := by
  have sameLen := moves.len_eq
  cases moves with
  | stays _ notReturned => exact absurd mem notReturned
  | decided _ notReturned => exact absurd mem notReturned
  | wrote _ returned =>
      have done := returned.mp mem
      simp only [SliceCell.completes, Bool.and_eq_true, decide_eq_true_eq] at done
      exact ⟨by simpa using done.1.1.1, sameLen ▸ done.2⟩

/-- The cell keeps its range. While it is undecided and not handed over, it holds the sum of the
overlaps in 64 bits, and that is below its length. -/
structure CellCounts (layout : SliceLayout) (calls : List SliceCall) (g : ℕ)
    (cell : SliceCell) : Prop where
  range : (SliceVerifier.new layout).sliceRange g = some cell.range
  filled : cell.state = .unknown → ¬HandedOver calls g →
    cell.filled = cell.count calls % 2 ^ 64 ∧ (0 < cell.len → cell.filled < cell.len)

/-- A write to an open cell completes it exactly when the sum reaches its length. -/
theorem SliceCell.markWritten_spec (cell : SliceCell) (w0 w1 : ℕ)
    (undecided : cell.state = .unknown) (small : cell.filled < 2 ^ 64)
    (isOpen : 0 < cell.len → cell.filled < cell.len) {sum : ℕ}
    (isSum : sum = (cell.filled + overlap cell.start (cell.start + cell.len) w0 w1) % 2 ^ 64) :
    (cell.completes w0 w1 ↔ 0 < cell.len ∧ cell.len ≤ sum) ∧
      (¬cell.completes w0 w1 → (cell.markWritten w0 w1).filled = sum) := by
  by_cases none : overlap cell.start (cell.start + cell.len) w0 w1 = 0
  · rw [none, Nat.add_zero, Nat.mod_eq_of_lt small] at isSum
    simp [completes, markWritten, undecided, none, isSum]
    exact isOpen
  · have positive : 0 < cell.len := by
      simp only [overlap] at none
      omega
    simp [completes, markWritten, undecided, none, positive, isSum]
    omega

theorem CellCounts.mem_iff {g : ℕ} (counts : CellCounts layout calls g cell)
    (moves : cell.Moves call g next) (undecided : cell.state = .unknown)
    (never : ¬HandedOver calls g) :
    (g ∈ call.2 ↔ 0 < cell.len ∧ cell.len ≤ cell.count (calls ++ [call]) % 2 ^ 64) ∧
      (g ∉ call.2 → next.state = .unknown →
        next.filled = cell.count (calls ++ [call]) % 2 ^ 64) := by
  rcases counts.filled undecided never with ⟨filled, isOpen⟩
  cases moves with
  | stays silent notReturned =>
      have same : cell.count (calls ++ [call]) = cell.count calls := by
        simp [SliceCell.count, silent]
      rw [same, ← filled]
      simpa [notReturned] using isOpen
  | decided silent notReturned isDecided =>
      have same : cell.count (calls ++ [call]) = cell.count calls := by
        simp [SliceCell.count, silent]
      rw [same, ← filled]
      refine ⟨by simpa [notReturned] using isOpen, fun _ undecided => absurd undecided isDecided⟩
  | @wrote offset len writes returned =>
      have small : cell.filled < 2 ^ 64 := filled ▸ Nat.mod_lt _ (by norm_num)
      have isSum : cell.count (calls ++ [call]) % 2 ^ 64 = (cell.filled +
          overlap cell.start (cell.start + cell.len) offset (offset + len)) % 2 ^ 64 := by
        rw [filled, Nat.mod_add_mod, cell.overlap_eq_card]
        simp [SliceCell.count, writes]
      rcases cell.markWritten_spec _ _ undecided small isOpen isSum with ⟨completes, adds⟩
      rw [returned]
      exact ⟨completes, fun incomplete _ => adds incomplete⟩

theorem CellCounts.step {g : ℕ} (counts : CellCounts layout calls g cell)
    (moves : cell.Moves call g next) : CellCounts layout (calls ++ [call]) g next := by
  refine ⟨moves.range_eq ▸ counts.range, fun undecided never => ?_⟩
  have before := moves.undecided undecided
  have notReturned : g ∉ call.2 := fun mem =>
    never ⟨call, List.mem_append_right _ List.mem_cons_self, mem⟩
  have spec := counts.mem_iff moves before fun handed => never (handed.append _)
  rw [SliceCell.count_congr moves.range_eq, spec.2 notReturned undecided,
    moves.len_eq]
  exact ⟨rfl, fun positive => not_le.mp fun full => notReturned (spec.1.mpr ⟨positive, full⟩)⟩

theorem cellCounts_new {g : ℕ} (found : (SliceVerifier.new layout).cells[g]? = some cell) :
    CellCounts layout [] g cell := by
  have fresh : ∀ files first (g : ℕ) (cell : SliceCell),
      (newCells layout.sliceSize first files)[g]? = some cell → cell.filled = 0 := by
    intro files
    induction files with
    | nil => simp [newCells]
    | cons file files ih =>
        intro first g cell found
        simp only [newCells, List.getElem?_append] at found
        split at found
        · simp only [cellsOfFile, List.getElem?_mapIdx, Option.map_eq_some_iff] at found
          rcases found with ⟨digest, _, rfl⟩
          rfl
        · exact ih _ _ _ found
  refine ⟨by simp [SliceVerifier.sliceRange, found], fun _ _ => ?_⟩
  simp [fresh _ _ _ _ found, SliceCell.count, writesTo]

theorem cellCounts_of_run
    (run : Run (SliceVerifier.Step hashes) (SliceVerifier.new layout) calls verifier) :
    ∀ g cell, verifier.cells[g]? = some cell → CellCounts layout calls g cell := by
  induction run with
  | start => exact fun g cell found => cellCounts_new found
  | snoc run move ih =>
      intro g cell found
      rcases cells_of_step move g with ⟨change, changed, moves, -⟩
      rw [changed, Option.map_eq_some_iff] at found
      rcases found with ⟨old, oldFound, rfl⟩
      exact (ih g old oldFound).step (moves old oldFound)

end Count

/-- What the caller of a verifier may rely on, for the calls made so far: a slice is handed over
only when the writes cover it, and an undecided slice of positive length that the writes cover
has been handed over. -/
structure HandsOverWritten (hashes : Hashes) (layout : SliceLayout)
    (calls : List SliceCall) : Prop where
  sound : ∀ before call after, calls = before ++ call :: after → ∀ g ∈ call.2,
    ∃ fileIndex start len,
      (SliceVerifier.new layout).sliceRange g = some (fileIndex, start, len) ∧
        ∀ position, start ≤ position → position < start + len →
          ∃ write ∈ writesTo fileIndex (before ++ [call]), position ∈ write
  complete : ∀ (before after : List SliceCall) (verifier : SliceVerifier), calls = before ++ after →
    Run (SliceVerifier.Step hashes) (SliceVerifier.new layout) before verifier →
    ∀ (g : ℕ) (cell : SliceCell), verifier.cells[g]? = some cell → cell.state = .unknown →
      0 < cell.len →
      (∀ position, cell.start ≤ position → position < cell.start + cell.len →
        ∃ write ∈ writesTo cell.fileIndex before, position ∈ write) →
      HandedOver before g

/-- Whenever a slice is undecided and not covered, the next call makes the sum of the overlaps of
the writes with it, in 64 bits, reach its length exactly if it covers the slice. -/
def CountsTrue (hashes : Hashes) (layout : SliceLayout) (calls : List SliceCall) : Prop :=
  ∀ (before : List SliceCall) (call : SliceCall) (after : List SliceCall)
    (verifier next : SliceVerifier), calls = before ++ call :: after →
    Run (SliceVerifier.Step hashes) (SliceVerifier.new layout) before verifier →
    SliceVerifier.Step hashes verifier call next →
    ∀ (g : ℕ) (cell : SliceCell), verifier.cells[g]? = some cell → cell.state = .unknown →
      ¬cell.Written before →
        (cell.len ≤ cell.count (before ++ [call]) % 2 ^ 64 ↔ cell.Written (before ++ [call]))

theorem SliceCell.written_iff {calls : List SliceCall} {cell : SliceCell} :
    cell.Written calls ↔
      ∀ position, cell.start ≤ position → position < cell.start + cell.len →
        ∃ write ∈ writesTo cell.fileIndex calls, position ∈ write := by
  simp only [SliceCell.Written, covered, Finset.filter_eq_self, SliceCell.bytes, Finset.mem_Ico]
  simp only [and_imp]

theorem SliceCell.not_written_nil {cell : SliceCell} (positive : 0 < cell.len) :
    ¬cell.Written [] := by
  rw [SliceCell.written_iff]
  intro covers
  rcases covers cell.start le_rfl (by omega) with ⟨write, writeMem, -⟩
  simp [writesTo] at writeMem

@[simp]
theorem handedOver_append {calls : List SliceCall} {call : SliceCall} {g : ℕ} :
    HandedOver (calls ++ [call]) g ↔ HandedOver calls g ∨ g ∈ call.2 := by
  simp [HandedOver, or_and_right, exists_or]

theorem SliceCell.written_congr {left right : SliceCell} (same : left.range = right.range)
    (calls : List SliceCall) : left.Written calls ↔ right.Written calls := by
  have file : left.fileIndex = right.fileIndex := congrArg Prod.fst same
  simp only [Written, bytes_congr same, file]

/-- The undecided slices handed over by `calls` are those that the writes cover. -/
def HandedWhenWritten (calls : List SliceCall) (verifier : SliceVerifier) : Prop :=
  ∀ g cell, verifier.cells[g]? = some cell → cell.state = .unknown → 0 < cell.len →
    (HandedOver calls g ↔ cell.Written calls)

section Exact

variable {hashes : Hashes} {layout : SliceLayout} {calls : List SliceCall}
  {verifier : SliceVerifier}

/-- One more call keeps the agreement exactly if it counts true. -/
theorem HandedWhenWritten.concat_iff {call : SliceCall} {next : SliceVerifier}
    (agrees : HandedWhenWritten calls verifier)
    (run : Run (SliceVerifier.Step hashes) (SliceVerifier.new layout) calls verifier)
    (move : SliceVerifier.Step hashes verifier call next) :
    HandedWhenWritten (calls ++ [call]) next ↔ ∀ (g : ℕ) (cell : SliceCell),
      verifier.cells[g]? = some cell → cell.state = .unknown → ¬cell.Written calls →
        (cell.len ≤ cell.count (calls ++ [call]) % 2 ^ 64 ↔ cell.Written (calls ++ [call])) := by
  constructor
  · intro after g cell found undecided notWritten
    have positive : 0 < cell.len := by
      by_contra zero
      exact notWritten (SliceCell.written_of_len_eq_zero (by omega))
    have never := mt (agrees g cell found undecided positive).mp notWritten
    rcases cells_of_step move g with ⟨change, changed, moves, -⟩
    have moves := moves cell found
    rw [found, Option.map_some] at changed
    generalize change cell = moved at changed moves
    have handed := ((cellCounts_of_run run g cell found).mem_iff moves undecided never).1
    rw [and_iff_right positive] at handed
    rw [← handed]
    by_cases stillOpen : moved.state = .unknown
    · rw [← SliceCell.written_congr moves.range_eq, ← after g _ changed stillOpen
        (moves.len_eq ▸ positive), handedOver_append, or_iff_right never]
    · cases moves with
      | stays => exact absurd undecided stillOpen
      | decided silent notReturned =>
          simpa [notReturned, SliceCell.Written, silent] using notWritten
      | wrote => exact absurd undecided (by simpa using stillOpen)
  · intro counts g cell found undecided positive
    rcases cells_of_step move g with ⟨change, changed, moves, -⟩
    rw [changed, Option.map_eq_some_iff] at found
    rcases found with ⟨old, oldFound, rfl⟩
    have moves := moves old oldFound
    have undecided := moves.undecided undecided
    rw [moves.len_eq] at positive
    rw [SliceCell.written_congr moves.range_eq, handedOver_append]
    have before := agrees g old oldFound undecided positive
    by_cases written : old.Written calls
    · exact iff_of_true (.inl (before.mpr written)) (written.append _)
    · have never := mt before.mp written
      have handed := ((cellCounts_of_run run g old oldFound).mem_iff moves undecided never).1
      rw [or_iff_right never, handed, and_iff_right positive]
      exact counts g old oldFound undecided written

theorem handsOverWritten_iff_prefixes
    (run : Run (SliceVerifier.Step hashes) (SliceVerifier.new layout) calls verifier) :
    HandsOverWritten hashes layout calls ↔ ∀ before after middle, calls = before ++ after →
      Run (SliceVerifier.Step hashes) (SliceVerifier.new layout) before middle →
        HandedWhenWritten before middle := by
  constructor
  · intro hands before after middle split runBefore g cell found undecided positive
    constructor
    · -- The hand-over of this slice is somewhere in `before`, where it was already covered.
      rintro ⟨call, callMem, gMem⟩
      rcases List.append_of_mem callMem with ⟨early, late, rfl⟩
      have splitAtCall : calls = early ++ call :: (late ++ after) := by simp [split]
      rcases hands.sound early call _ splitAtCall g gMem with ⟨f, start, len, range, covers⟩
      rw [(cellCounts_of_run runBefore g cell found).range] at range
      simp only [SliceCell.range, Option.some.injEq, Prod.mk.injEq] at range
      rcases range with ⟨rfl, rfl, rfl⟩
      simpa using (SliceCell.written_iff.mpr covers).append late
    · intro written
      exact hands.complete before after middle split runBefore g cell found undecided positive
        (SliceCell.written_iff.mp written)
  · intro agrees
    constructor
    · rintro before call after rfl g gMem
      rcases run.exists_step with ⟨middle, next, runBefore, move, runAfter⟩
      rcases cells_of_step move g with ⟨change, changed, moves, exists_cell⟩
      rcases exists_cell gMem with ⟨cell, found⟩
      rw [found, Option.map_some] at changed
      have moves := moves cell found
      generalize change cell = moved at changed moves
      refine ⟨cell.fileIndex, cell.start, cell.len,
        (cellCounts_of_run runBefore g cell found).range, SliceCell.written_iff.mp ?_⟩
      rw [← SliceCell.written_congr moves.range_eq]
      rcases moves.handed gMem with ⟨undecided, positive⟩
      exact (agrees (before ++ [call]) after next (by simp) runAfter g moved changed undecided
        positive).mp (handedOver_append.mpr (.inr gMem))
    · intro before after middle split runBefore g cell found undecided positive covers
      exact (agrees before after middle split runBefore g cell found undecided positive).mpr
        (SliceCell.written_iff.mpr covers)

/-- The verifier hands over exactly the written slices if and only if every call counts true. -/
theorem handsOverWritten_iff
    (run : Run (SliceVerifier.Step hashes) (SliceVerifier.new layout) calls verifier) :
    HandsOverWritten hashes layout calls ↔ CountsTrue hashes layout calls := by
  rw [handsOverWritten_iff_prefixes run]
  constructor
  · rintro agrees before call after middle next rfl runBefore move
    apply ((agrees before _ middle rfl runBefore).concat_iff runBefore move).mp
    exact agrees (before ++ [call]) after next (by simp) (runBefore.snoc move)
  · intro counts before after middle split runBefore
    induction runBefore generalizing after with
    | start =>
        intro g cell found undecided positive
        simp [HandedOver, SliceCell.not_written_nil positive]
    | snoc runBefore move ih =>
        rw [List.append_assoc, List.singleton_append] at split
        exact ((ih _ split).concat_iff runBefore move).mpr
          (counts _ _ after _ _ split runBefore move)

end Exact

def oneSlice : SliceLayout :=
  { sliceSize := 100
    files := [{ size := 100, slices := [{ md5 := Vector.replicate 16 0, crc32 := 0 }] }] }

def constantHashes : Hashes where
  md5 := fun _ => Vector.replicate 16 0
  crc32 := fun _ => 0

theorem handsOverWritten_iff_halves :
    HandsOverWritten constantHashes oneSlice
        [(.markWritten 0 0 50, []), (.markWritten 0 50 50, [0])] ↔
      CountsTrue constantHashes oneSlice
        [(.markWritten 0 0 50, []), (.markWritten 0 50 50, [0])] :=
  handsOverWritten_iff
    ((Run.start.snoc (.markWritten (by norm_num) rfl)).snoc (.markWritten (by norm_num) rfl))

/-- The first half of a slice, written twice, is handed over as a whole slice. -/
theorem not_handsOverWritten_repeated_half :
    ¬∀ hashes layout calls verifier,
      Run (SliceVerifier.Step hashes) (SliceVerifier.new layout) calls verifier →
        HandsOverWritten hashes layout calls := by
  intro always
  have hands := always constantHashes oneSlice
    [(.markWritten 0 0 50, []), (.markWritten 0 0 50, [0])] _
    ((Run.start.snoc (.markWritten (by norm_num) rfl)).snoc (.markWritten (by norm_num) rfl))
  rcases hands.sound [(.markWritten 0 0 50, [])] (.markWritten 0 0 50, [0]) [] rfl 0 (by simp) with
    ⟨fileIndex, start, len, range, covers⟩
  have whole : (SliceVerifier.new oneSlice).sliceRange 0 = some (0, 0, 100) := rfl
  rw [whole] at range
  simp only [Option.some.injEq, Prod.mk.injEq] at range
  rcases range with ⟨rfl, rfl, rfl⟩
  rcases covers 99 (by norm_num) (by norm_num) with ⟨write, writeMem, inWrite⟩
  simp only [writesTo, List.filterMap_cons, List.filterMap_nil, List.cons_append, List.nil_append,
    if_true, List.mem_cons, List.not_mem_nil, or_false, or_self] at writeMem
  subst writeMem
  simp at inWrite

end Rustnzb.Decode
