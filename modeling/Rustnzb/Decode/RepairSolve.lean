import Rustnzb.Decode.RepairFoldExact

/-!
# Runs of a repair fold and what they solve

The operations of a fold as labels of a run, the run lemma for `RepairFold.Exact`, and the result
of a successful `solve`: the true damaged slices, in the order asked for.
-/

namespace Rustnzb.Decode

open Lib

universe u

inductive FoldOp where
  | feed (index : ℕ) (bytes : Bytes)
  | feedBatch (batch : List (ℕ × Bytes))
  | feedMissing (damaged : List ℕ) (read : ℕ → Except String Bytes)
  | extendRows (exponents : List ℕ) (read : ℕ → Except String Bytes)
  | beginGrowth (exponents : List ℕ)
  | backfill (generation : ℕ) (batch : List (ℕ × Bytes))
  | abandonGrowth
  | abandonGrowthOf (generation : ℕ)
  | noteCorrupt (index : ℕ)
  | withRowLimit (rows : ℕ)

namespace FoldOp

def OnTrueData (D : ℕ → Bytes) : FoldOp → Prop
  | feed index bytes => bytes = D index
  | feedBatch batch => TrueBatch D batch
  | feedMissing _ read => TrueRead D read
  | extendRows _ read => TrueRead D read
  | backfill _ batch => TrueBatch D batch
  | _ => True

variable {K : Type u} {n : ℕ} [Field K] [Module K (Buf n)] (gf : Gf K n)

def run (fold : RepairFold K n) : FoldOp → RepairFold K n
  | feed index bytes => (fold.feed gf index bytes).1
  | feedBatch batch => (fold.feedBatch gf batch).1
  | feedMissing damaged read => (fold.feedMissing gf damaged read).1
  | extendRows exponents read => (fold.extendRows gf exponents read).1
  | beginGrowth exponents => (fold.beginGrowth exponents).1
  | backfill generation batch => (fold.backfill gf generation batch).1
  | abandonGrowth => fold.abandonGrowth
  | abandonGrowthOf generation => fold.abandonGrowthOf generation
  | noteCorrupt index => fold.noteCorrupt index
  | withRowLimit rows => fold.withRowLimit rows

end FoldOp

namespace RepairFold

variable {K : Type u} {n : ℕ} [Field K] [Module K (Buf n)]
  (gf : Gf K n) {constants : List K} {D : ℕ → Bytes} {fold : RepairFold K n}

def Step (D : ℕ → Bytes) (fold : RepairFold K n) (op : FoldOp) (next : RepairFold K n) : Prop :=
  op.OnTrueData D ∧ next = op.run gf fold

theorem exact_step {op : FoldOp} {next : RepairFold K n} (exact : Exact constants D fold)
    (move : Step gf D fold op next) : Exact constants D next := by
  rcases move with ⟨onTrue, rfl⟩
  cases op with
  | feed index bytes =>
      have single : TrueBatch D [(index, bytes)] := by
        intro entry mem
        rw [List.mem_singleton.mp mem]
        exact onTrue
      exact exact_feedBatch gf exact single
  | feedBatch batch => exact exact_feedBatch gf exact onTrue
  | feedMissing damaged read => exact exact_feedMissing gf exact onTrue
  | extendRows exponents read => exact exact_extendRows gf exact onTrue
  | beginGrowth exponents => exact exact_beginGrowth exact
  | backfill generation batch => exact exact_backfill gf exact onTrue
  | abandonGrowth => exact exact_abandonGrowth exact
  | abandonGrowthOf generation =>
      simp only [FoldOp.run, abandonGrowthOf]
      split
      · exact exact_abandonGrowth exact
      · exact exact
  | noteCorrupt index => exact exact_noteCorrupt exact index
  | withRowLimit rows => exact ⟨exact.1, exact.2, exact.3, exact.4, exact.5, exact.6, exact.7⟩

theorem exact_of_run {fold₀ : RepairFold K n} {ops : List FoldOp} {totalSlices : ℕ}
    {exponents : List ℕ} (accepted : new gf totalSlices exponents = .ok fold₀)
    (run : Run (Step gf D) fold₀ ops fold) : Exact (gf.par2InputConstants totalSlices) D fold :=
  run.invariant (fun _ fold => Exact (gf.par2InputConstants totalSlices) D fold)
    (exact_new gf accepted) (fun _ _ _ _ _ exact move => exact_step gf exact move)

theorem sum_zipWith_finRange {d : ℕ} (weight : Fin d → K) {bufs : List (Buf n)}
    (sameLength : bufs.length = d) :
    (List.zipWith (· • ·) ((List.finRange d).map weight) bufs).sum =
      ∑ e : Fin d, weight e • bufs.getD e 0 := by
  have eachBuf : bufs = (List.finRange d).map fun e : Fin d => bufs.getD e.val 0 := by
    apply List.ext_getElem
    · simp [sameLength]
    · intro i inBufs _
      simp [List.getD_eq_getElem?_getD, inBufs]
  conv_lhs => rw [eachBuf]
  rw [List.zipWith_map, List.zipWith_self, ← List.sum_toFinset _ (List.nodup_finRange d)]
  congr 1
  ext e
  simp

/-- The recovery data that can be used is the true PAR2 recovery data: the power sum of all
slices of the set at the exponent. -/
def TrueRecovery (n : ℕ) [Module K (Buf n)] (constants : List K) (D : ℕ → Bytes)
    (recovery : ℕ → Option Bytes) : Prop :=
  ∀ e data (sized : data.length = n), recovery e = some data →
    (⟨data, sized⟩ : Buf n) =
      powerSum (fun i => constants.getD i 0) (slice n D) e (Finset.range constants.length)

omit [Field K] [Module K (Buf n)] in
variable {recovery : ℕ → Option Bytes}

omit [Field K] [Module K (Buf n)] in
theorem mem_usableRows {d r : ℕ} (usable : r ∈ fold.usableRows recovery d) :
    r < fold.completeRows ∧
      ∃ data, recovery (fold.exponents.getD r 0) = some data ∧ data.length = n := by
  have := List.mem_of_mem_take usable
  simpa [Option.any_eq_true] using this

theorem exact_completeRow {r : ℕ} (exact : Exact constants D fold)
    (complete : r < fold.completeRows) :
    ∃ e, fold.exponents[r]? = some e ∧ fold.rows[r]? = some
      (powerSum (fun i => constants.getD i 0) (slice n D) e fold.fedSlices) := by
  have inRows : r < fold.rows.length ∧ fold.owed r = ∅ := by
    unfold completeRows at complete
    split at complete
    next noGrowth => simp [owed, noGrowth, complete]
    next growth found =>
      have := exact.growth_start growth found
      simp only [owed, found, if_neg (show ¬growth.start ≤ r by omega), and_true]
      omega
  have inExponents : r < fold.exponents.length := exact.exponents_length ▸ inRows.1
  refine ⟨_, List.getElem?_eq_getElem inExponents, ?_⟩
  have row := exact.row_eq r _ _ (List.getElem?_eq_getElem inRows.1)
    (List.getElem?_eq_getElem inExponents)
  rw [List.getElem?_eq_getElem inRows.1, row, inRows.2, Finset.sdiff_empty,
    ← exact.constants_eq]
  rfl

theorem exact_growingRow {r : ℕ} {growth : Growth} (exact : Exact constants D fold)
    (found : fold.growth = some growth) (isNew : growth.start ≤ r) (inRows : r < fold.rows.length) :
    ∃ e, fold.exponents[r]? = some e ∧ fold.rows[r]? = some
      (powerSum (fun i => constants.getD i 0) (slice n D) e
        (fold.fedSlices \ growth.pending)) := by
  have inExponents : r < fold.exponents.length := exact.exponents_length ▸ inRows
  refine ⟨_, List.getElem?_eq_getElem inExponents, ?_⟩
  have row := exact.row_eq r _ _ (List.getElem?_eq_getElem inRows)
    (List.getElem?_eq_getElem inExponents)
  have owes : fold.owed r = growth.pending := by
    simp [owed, found, isNew]
  rw [List.getElem?_eq_getElem inRows, row, owes, ← exact.constants_eq]
  rfl

theorem unfed_eq_damaged {d : ℕ} {J : Fin d → ℕ} (exact : Exact constants D fold)
    (injective : Function.Injective J) (inRange : ∀ j, J j < fold.fed.length)
    (notFed : ∀ j, fold.isFed (J j) = false) (counts : fold.fedCount + d = fold.fed.length) :
    Finset.range constants.length \ fold.fedSlices = Finset.univ.image J := by
  symm
  apply Finset.eq_of_subset_of_card_le
  · intro i isDamaged
    rcases Finset.mem_image.mp isDamaged with ⟨j, _, rfl⟩
    rw [Finset.mem_sdiff, Finset.mem_range, mem_fedSlices, ← exact.fed_length]
    exact ⟨inRange j, fun fed => by simp [notFed j] at fed⟩
  · have subset : fold.fedSlices ⊆ Finset.range constants.length := by
      intro i isFed
      rw [Finset.mem_range, ← exact.fed_length]
      exact (mem_fedSlices.mp isFed).1
    rw [Finset.card_sdiff_of_subset subset, Finset.card_image_of_injective _ injective,
      Finset.card_range, Finset.card_univ, Fintype.card_fin, ← exact.fedCount_eq,
      ← exact.fed_length]
    omega

theorem row_add_recovery {r d : ℕ} (exact : Exact constants D fold)
    (trueRecovery : TrueRecovery n constants D recovery) (usable : r ∈ fold.usableRows recovery d) :
    fold.rows.getD r (Buf.zeros n) +
        Buf.pad n ((recovery (fold.exponents.getD r 0)).getD []) =
      powerSum (fun i => constants.getD i 0) (slice n D) (fold.exponents.getD r 0)
        (Finset.range constants.length \ fold.fedSlices) := by
  rcases mem_usableRows usable with ⟨complete, data, found, sized⟩
  rcases exact_completeRow exact complete with ⟨e, expFound, rowFound⟩
  have expEq : fold.exponents.getD r 0 = e := by
    simp [List.getD_eq_getElem?_getD, expFound]
  rw [expEq] at found ⊢
  have recoveryEq : Buf.pad n ((recovery e).getD []) =
      powerSum (fun i => constants.getD i 0) (slice n D) e (Finset.range constants.length) := by
    rw [← trueRecovery e data sized found, found]
    apply Subtype.ext
    exact resize_of_length_eq sized
  rw [recoveryEq, List.getD_eq_getElem?_getD, rowFound, Option.getD_some]
  apply powerSum_add_of_subset Buf.add_self
  intro i isFed
  rw [Finset.mem_range, ← exact.fed_length]
  exact (mem_fedSlices.mp isFed).1

theorem solve_eq_ok {damaged : List ℕ} {out : List (ℕ × Buf n)}
    (solved : solve gf fold damaged recovery = .ok out) :
    (∀ j ∈ damaged, j < fold.fed.length ∧ fold.isFed j = false) ∧
      fold.fedCount + damaged.length = fold.fed.length ∧
      (damaged = [] ∧ out = [] ∨
        ∃ inverse, (fold.usableRows recovery damaged.length).length = damaged.length ∧
          inverse * fold.solveMatrix gf damaged (fold.usableRows recovery damaged.length) = 1 ∧
          out = (List.finRange damaged.length).map fun j : Fin damaged.length =>
            (damaged.get j, fold.solveSlice gf recovery
              (fold.usableRows recovery damaged.length)
              ((List.finRange damaged.length).map fun e => inverse j e))) := by
  simp only [solve] at solved
  split at solved
  · simp at solved
  next clean =>
    simp only [Bool.or_eq_true, List.any_eq_true, not_or, not_exists, not_and,
      Bool.not_eq_true] at clean
    split at solved
    · simp at solved
    next allInRange =>
      have inRange : ∀ j ∈ damaged, j < fold.fed.length := by
        intro j isDamaged
        simpa using List.find?_eq_none.mp allInRange j isDamaged
      split at solved
      · simp at solved
      next counts =>
        refine ⟨fun j mem => ⟨inRange j mem, clean.2 j mem⟩, not_not.mp counts, ?_⟩
        split at solved
        next noDamage =>
          exact Or.inl ⟨List.length_eq_zero_iff.mp noDamage, (Except.ok.inj solved).symm⟩
        · split at solved
          · simp at solved
          next enough =>
            split at solved
            · simp at solved
            next inverse inverted =>
              refine Or.inr ⟨inverse, ?_, gf.mul_of_invert _ _ _ inverted,
                (Except.ok.inj solved).symm⟩
              have atMost : (fold.usableRows recovery damaged.length).length ≤ damaged.length :=
                List.length_take_le _ _
              omega

theorem solveSlice_eq {usable : List ℕ} {d : ℕ} (weight : Fin d → K)
    (usableLength : usable.length = d) :
    fold.solveSlice gf recovery usable ((List.finRange d).map weight) =
      ∑ e : Fin d, weight e • (fold.rows.getD (usable.getD e 0) (Buf.zeros n) +
        Buf.pad n ((recovery (fold.exponents.getD (usable.getD e 0) 0)).getD [])) := by
  simp only [solveSlice, gf.mulAddMulti_eq]
  rw [sum_zipWith_finRange weight (by simpa using usableLength),
    sum_zipWith_finRange weight (by simpa using usableLength), Buf.zeros_eq, zero_add,
    ← Finset.sum_add_distrib]
  refine Finset.sum_congr rfl fun e _ => ?_
  have bound : (e : ℕ) < usable.length := usableLength ▸ e.isLt
  rw [← smul_add]
  simp [List.getD_eq_getElem?_getD, bound]

theorem solve_exact {damaged : List ℕ} {out : List (ℕ × Buf n)} (exact : Exact constants D fold)
    (trueRecovery : TrueRecovery n constants D recovery)
    (solved : solve gf fold damaged recovery = .ok out) :
    out = damaged.map fun j => (j, slice n D j) := by
  rcases solve_eq_ok gf solved with
    ⟨clean, counts, ⟨rfl, rfl⟩ | ⟨inverse, usableLength, isInverse, rfl⟩⟩
  · rfl
  · set usable := fold.usableRows recovery damaged.length
    let E : Fin damaged.length → ℕ := fun e => fold.exponents.getD (usable.getD e 0) 0
    have matrixEq : fold.solveMatrix gf damaged usable =
        weights (fun i => constants.getD i 0) E damaged.get := by
      ext e j
      simp only [solveMatrix, weights, Matrix.of_apply, gf.pow_eq, exact.constants_eq, E]
    rw [matrixEq] at isInverse
    have unfed := unfed_eq_damaged exact (injective_of_inverse isInverse)
      (fun j => (clean _ (List.get_mem damaged j)).1)
      (fun j => (clean _ (List.get_mem damaged j)).2) counts
    have recovered : ∀ j, fold.solveSlice gf recovery usable
        ((List.finRange damaged.length).map fun e => inverse j e) = slice n D (damaged.get j) := by
      intro j
      rw [solveSlice_eq gf _ usableLength, ← recover (slice n D) isInverse j]
      refine Finset.sum_congr rfl fun e _ => ?_
      have bound : (e : ℕ) < usable.length := by
        rw [usableLength]
        exact e.isLt
      have isUsable : usable.getD e 0 ∈ usable := by
        simp [List.getD_eq_getElem?_getD, bound]
      rw [row_add_recovery exact trueRecovery isUsable, unfed]
    have inOrder : damaged = (List.finRange damaged.length).map damaged.get :=
      (List.map_get_finRange damaged).symm
    conv_rhs => rw [inOrder, List.map_map]
    apply List.map_congr_left
    intro j _
    simp only [Function.comp, recovered]

/-- What is true of every fold reached on true data: complete rows hold the fed slices, growing
rows hold them without the pending ones, and what `solve` returns are the damaged slices. -/
theorem fold_exact {fold₀ : RepairFold K n} {ops : List FoldOp} {totalSlices : ℕ}
    {exponents : List ℕ} (accepted : new gf totalSlices exponents = .ok fold₀)
    (run : Run (Step gf D) fold₀ ops fold) :
    let constants := gf.par2InputConstants totalSlices
    (∀ r < fold.completeRows, ∃ e, fold.exponents[r]? = some e ∧ fold.rows[r]? = some
      (powerSum (fun i => constants.getD i 0) (slice n D) e fold.fedSlices)) ∧
    (∀ growth, fold.growth = some growth →
      ∀ r, growth.start ≤ r → r < fold.rows.length →
        ∃ e, fold.exponents[r]? = some e ∧ fold.rows[r]? = some
          (powerSum (fun i => constants.getD i 0) (slice n D) e
            (fold.fedSlices \ growth.pending))) ∧
    ∀ damaged recovery out, TrueRecovery n constants D recovery →
      solve gf fold damaged recovery = .ok out →
      out = damaged.map fun j => (j, Buf.pad n (D j)) := by
  intro constants
  have exact := exact_of_run gf accepted run
  refine ⟨?_, ?_, ?_⟩
  · intro r complete
    exact exact_completeRow exact complete
  · intro growth found r isNew inRows
    exact exact_growingRow exact found isNew inRows
  · intro damaged recovery out trueRecovery solved
    exact solve_exact gf exact trueRecovery solved

instance (n : ℕ) : Module (ZMod 2) (Buf n) :=
  AddCommGroup.zmodModule fun buf => (two_nsmul buf).trans (Buf.add_self buf)

def parity (n : ℕ) : Gf (ZMod 2) n where
  par2InputConstants := fun total => (List.range total).map fun slice => if slice < 2 then 1 else 0
  pow := fun c e => c ^ e
  mulAddMulti := fun dst srcs coeffs => dst + (List.zipWith (· • ·) coeffs srcs).sum
  invert := fun _ M => if M.det = 1 then some M.adjugate else none
  length_constants := fun _ => by simp
  pow_eq := fun _ _ => rfl
  mulAddMulti_eq := fun _ _ _ => rfl
  mul_of_invert := by
    intro d M N inverted
    split at inverted
    next isOne => rw [← Option.some.inj inverted, M.adjugate_mul, isOne, one_smul]
    · simp at inverted

def threeSlices : ℕ → Bytes
  | 0 => [1, 2, 3, 4]
  | 1 => [5, 6]
  | _ => [7]

/-- The sum of all slices, and that of the first two. -/
def parityRecovery : ℕ → Option Bytes
  | 0 => some [3, 4, 3, 4]
  | 1 => some [4, 4, 3, 4]
  | _ => none

def parityFold : RepairFold (ZMod 2) 4 where
  constants := [1, 1, 0]
  exponents := [0, 1]
  rows := [0, 0]
  fed := [false, false, false]
  fedCount := 0
  poisoned := false
  growth := none
  generation := 0
  diskFed := 0
  maxRows := 67108864

theorem parityFold_new : new (parity 4) 3 [0, 1] = .ok parityFold := by
  rfl

theorem parityRecovery_true :
    TrueRecovery 4 ((parity 4).par2InputConstants 3) threeSlices parityRecovery := by
  intro e data sized found
  rcases e with _ | _ | e
  · cases found
    rfl
  · cases found
    rfl
  · cases found

theorem fold_exact_two_missing :
    ∃ fold, Run (Step (parity 4) threeSlices) parityFold [.feed 0 [1, 2, 3, 4]] fold ∧
      solve (parity 4) fold [1, 2] parityRecovery =
        .ok [(1, Buf.pad 4 [5, 6]), (2, Buf.pad 4 [7])] := by
  have run : Run (Step (parity 4) threeSlices) parityFold [.feed 0 [1, 2, 3, 4]] _ :=
    Run.start.snoc ⟨rfl, rfl⟩
  refine ⟨_, run, ?_⟩
  have solves : ∃ out, solve (parity 4) (FoldOp.run (parity 4) parityFold (.feed 0 [1, 2, 3, 4]))
      [1, 2] parityRecovery = .ok out := ⟨_, rfl⟩
  rcases solves with ⟨out, solved⟩
  have exact := (fold_exact (parity 4) parityFold_new run).2.2 [1, 2] parityRecovery out
    parityRecovery_true solved
  rw [solved, exact]
  rfl

end RepairFold

end Rustnzb.Decode
