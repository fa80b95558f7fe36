import Rustnzb.Lib.LinearFold
import Rustnzb.Lib.Run
import Rustnzb.Decode.RepairFold

/-!
# The repair fold is exact

Take any data for the slices of a set and any sequence of operations on a new fold in which every
slice passed or read is the true one. At every point each complete row is the power sum of the
fed slices at the row's exponent, and each row of an unfinished growth is that sum without the
slices still pending. A solve that succeeds on true recovery slices therefore returns the true
damaged slices.

All operations reduce to one fact: folding a batch of distinct true slices into a row adds their
power sum (`mulAddMulti_true`). What differs is which set of indices a row stands for, and that is
the fed slices minus what the row is still owed (`RepairFold.owed`).
-/

namespace Rustnzb.Decode

open Lib

universe u

def slice (n : ℕ) (D : ℕ → Bytes) (i : ℕ) : Buf n :=
  Buf.pad n (D i)

def TrueBatch (D : ℕ → Bytes) (batch : List (ℕ × Bytes)) : Prop :=
  ∀ entry ∈ batch, entry.2 = D entry.1

def TrueRead (D : ℕ → Bytes) (read : ℕ → Except String Bytes) : Prop :=
  ∀ i bytes, read i = .ok bytes → bytes = D i

def batchIndices (batch : List (ℕ × Bytes)) : List ℕ :=
  batch.map Prod.fst

@[simp]
theorem batchIndices_nil : batchIndices [] = [] := rfl

@[simp]
theorem batchIndices_cons (entry : ℕ × Bytes) (batch : List (ℕ × Bytes)) :
    batchIndices (entry :: batch) = entry.1 :: batchIndices batch := rfl

namespace RepairFold

section Slices

variable {K : Type u} {n : ℕ}

def fedSlices (fold : RepairFold K n) : Finset ℕ :=
  (Finset.range fold.fed.length).filter fun i => fold.isFed i

/-- The fed slices that row `r` does not hold yet. -/
def owed (fold : RepairFold K n) (r : ℕ) : Finset ℕ :=
  match fold.growth with
  | none => ∅
  | some growth => if growth.start ≤ r then growth.pending else ∅

theorem mem_fedSlices {fold : RepairFold K n} {i : ℕ} :
    i ∈ fold.fedSlices ↔ i < fold.fed.length ∧ fold.isFed i = true := by
  simp [fedSlices]

theorem toFinset_fedIndices (fold : RepairFold K n) :
    fold.fedIndices.toFinset = fold.fedSlices := by
  ext i
  simp [fedIndices, fedSlices]

theorem nodup_fedIndices (fold : RepairFold K n) : fold.fedIndices.Nodup :=
  List.nodup_range.filter _

theorem growth_abandonGrowth (fold : RepairFold K n) : fold.abandonGrowth.growth = none := by
  unfold abandonGrowth
  split
  next found => exact found
  · rfl

end Slices

variable {K : Type u} {n : ℕ} [Field K] [Module K (Buf n)]

def constant (fold : RepairFold K n) (i : ℕ) : K :=
  fold.constants.getD i 0

/-- What every fold over the slices with these constants satisfies when it is reached with true
data. -/
structure Exact (constants : List K) (D : ℕ → Bytes) (fold : RepairFold K n) : Prop where
  constants_eq : fold.constants = constants
  fed_length : fold.fed.length = constants.length
  exponents_length : fold.exponents.length = fold.rows.length
  fedCount_eq : fold.fedCount = fold.fedSlices.card
  growth_start : ∀ growth, fold.growth = some growth → growth.start ≤ fold.rows.length
  growth_pending : ∀ growth, fold.growth = some growth → growth.pending ⊆ fold.fedSlices
  row_eq : ∀ r row e, fold.rows[r]? = some row → fold.exponents[r]? = some e →
    row = powerSum fold.constant (slice n D) e (fold.fedSlices \ fold.owed r)

end RepairFold

section Folding

variable {K : Type u} {n : ℕ} [Field K] [Module K (Buf n)]
  (gf : Gf K n) {D : ℕ → Bytes}

theorem mulAddMulti_true {constants : List K} {batch : List (ℕ × Bytes)} (row : Buf n) (e : ℕ)
    (trueBatch : TrueBatch D batch) (distinct : (batchIndices batch).Nodup) :
    gf.mulAddMulti row (batch.map fun entry => Buf.pad n entry.2)
        (batch.map fun entry => gf.pow (constants.getD entry.1 0) e) =
      row + powerSum (fun i => constants.getD i 0) (slice n D) e (batchIndices batch).toFinset := by
  have terms : List.zipWith (· • ·)
      (batch.map fun entry => gf.pow (constants.getD entry.1 0) e)
      (batch.map fun entry => Buf.pad n entry.2) =
      (batchIndices batch).map fun i => constants.getD i 0 ^ e • slice n D i := by
    rw [List.zipWith_map, List.zipWith_self, batchIndices, List.map_map]
    apply List.map_congr_left
    intro entry entryMem
    simp [gf.pow_eq, slice, trueBatch entry entryMem]
  rw [gf.mulAddMulti_eq, terms, powerSum_toFinset distinct]

@[simp]
theorem length_foldInto (constants : List K) (batch : List (ℕ × Bytes)) (rows : List (Buf n))
    (exponents : List ℕ) :
    (RepairFold.foldInto gf constants batch rows exponents).length = rows.length := by
  induction rows generalizing exponents with
  | nil => cases exponents <;> simp [RepairFold.foldInto]
  | cons row rows ih => cases exponents <;> simp [RepairFold.foldInto, ih]

theorem getElem?_foldInto (constants : List K) {batch : List (ℕ × Bytes)} {rows : List (Buf n)}
    {exponents : List ℕ} {r e : ℕ} {row : Buf n} (trueBatch : TrueBatch D batch)
    (distinct : (batchIndices batch).Nodup) (rowFound : rows[r]? = some row)
    (expFound : exponents[r]? = some e) :
    (RepairFold.foldInto gf constants batch rows exponents)[r]? =
      some (row + powerSum (fun i => constants.getD i 0) (slice n D) e
        (batchIndices batch).toFinset) := by
  induction rows generalizing exponents r with
  | nil => simp at rowFound
  | cons first rows ih =>
      rcases exponents with _ | ⟨firstExp, exponents⟩
      · simp at expFound
      · rcases r with _ | r
        · simp only [List.getElem?_cons_zero, Option.some.injEq] at rowFound expFound
          subst rowFound expFound
          simp only [RepairFold.foldInto, List.getElem?_cons_zero, Option.some.injEq]
          exact mulAddMulti_true gf first firstExp trueBatch distinct
        · simp only [List.getElem?_cons_succ] at rowFound expFound
          simpa [RepairFold.foldInto] using ih rowFound expFound

theorem exists_of_getElem?_foldInto {constants : List K} {batch : List (ℕ × Bytes)}
    {rows : List (Buf n)} {exponents : List ℕ} {r e : ℕ} {row : Buf n}
    (trueBatch : TrueBatch D batch) (distinct : (batchIndices batch).Nodup)
    (rowFound : (RepairFold.foldInto gf constants batch rows exponents)[r]? = some row)
    (expFound : exponents[r]? = some e) :
    ∃ old, rows[r]? = some old ∧ row = old + powerSum (fun i => constants.getD i 0) (slice n D) e
      (batchIndices batch).toFinset := by
  have bound : r < rows.length := by
    simpa using (List.getElem?_eq_some_iff.mp rowFound).1
  refine ⟨rows[r], List.getElem?_eq_getElem bound, ?_⟩
  have folded := getElem?_foldInto gf constants trueBatch distinct
    (List.getElem?_eq_getElem bound) expFound
  rw [rowFound] at folded
  exact Option.some.inj folded

end Folding

/-- What `freshSlices` selects from a batch, for any slices already selected. -/
structure Fresh (D : ℕ → Bytes) (fed : List Bool) (fresh : List (ℕ × Bytes)) : Prop where
  trueBatch : TrueBatch D fresh
  distinct : (batchIndices fresh).Nodup
  notFed : ∀ i ∈ batchIndices fresh, i < fed.length ∧ fed.getD i false = false

theorem fresh_of_freshSlices {D : ℕ → Bytes} {fed : List Bool} {batch : List (ℕ × Bytes)} :
    ∀ {selected fresh : List (ℕ × Bytes)}, TrueBatch D batch → Fresh D fed selected →
      RepairFold.freshSlices fed selected batch = .ok fresh → Fresh D fed fresh := by
  induction batch with
  | nil =>
      intro selected fresh _ selectedFresh result
      simp only [RepairFold.freshSlices, Except.ok.injEq] at result
      exact result ▸ selectedFresh
  | cons entry batch ih =>
      rcases entry with ⟨index, bytes⟩
      intro selected fresh trueBatch selectedFresh result
      have restTrue : TrueBatch D batch := fun entry mem => trueBatch entry (by simp [mem])
      simp only [RepairFold.freshSlices] at result
      split at result
      · simp at result
      next inRange =>
        split at result
        next select =>
          apply ih restTrue _ result
          simp only [Bool.and_eq_true, Bool.not_eq_true', List.any_eq_false,
            decide_eq_true_eq] at select
          rcases select with ⟨notFed, notSelected⟩
          refine ⟨?_, ?_, ?_⟩
          · intro entry mem
            rcases List.mem_append.mp mem with mem | mem
            · exact selectedFresh.trueBatch entry mem
            · rw [List.mem_singleton.mp mem]
              exact trueBatch (index, bytes) (by simp)
          · simp only [batchIndices, List.map_append, List.map_cons, List.map_nil]
            rw [List.nodup_append]
            refine ⟨selectedFresh.distinct, by simp, ?_⟩
            intro i mem j jMem same
            simp only [List.mem_singleton] at jMem
            rcases List.mem_map.mp mem with ⟨entry, entryMem, rfl⟩
            exact notSelected entry entryMem (same.trans jMem)
          · intro i mem
            simp only [batchIndices, List.map_append, List.map_cons, List.map_nil,
              List.mem_append, List.mem_singleton] at mem
            rcases mem with mem | rfl
            · exact selectedFresh.notFed i mem
            · exact ⟨by omega, notFed⟩
        · exact ih restTrue selectedFresh result

theorem getD_foldl_set (batch : List (ℕ × Bytes)) (fed : List Bool) (i : ℕ) :
    (batch.foldl (fun fed entry => fed.set entry.1 true) fed).length = fed.length ∧
      (i < fed.length →
        ((batch.foldl (fun fed entry => fed.set entry.1 true) fed).getD i false = true ↔
          fed.getD i false = true ∨ i ∈ batchIndices batch)) := by
  induction batch generalizing fed with
  | nil => simp
  | cons entry batch ih =>
      rcases ih (fed.set entry.1 true) with ⟨sameLength, flags⟩
      simp only [List.length_set] at sameLength flags
      refine ⟨by simpa using sameLength, fun inRange => ?_⟩
      have firstFlag : (fed.set entry.1 true).getD i false = true ↔
          fed.getD i false = true ∨ i = entry.1 := by
        simp only [List.getD_eq_getElem?_getD, List.getElem?_set]
        by_cases same : entry.1 = i
        · subst same
          simp [inRange]
        · simp [same, Ne.symm same]
      rw [List.foldl_cons, flags inRange, firstFlag]
      simp only [batchIndices_cons, List.mem_cons]
      tauto

namespace RepairFold

variable {K : Type u} {n : ℕ} [Field K] [Module K (Buf n)]
  (gf : Gf K n) {constants : List K} {D : ℕ → Bytes} {fold : RepairFold K n}

theorem owed_subset (exact : Exact constants D fold) (r : ℕ) : fold.owed r ⊆ fold.fedSlices := by
  unfold owed
  split
  · simp
  next growth found =>
    split
    · exact exact.growth_pending growth found
    · simp

theorem exact_new {totalSlices : ℕ} {exponents : List ℕ}
    (accepted : new gf totalSlices exponents = .ok fold) :
    Exact (gf.par2InputConstants totalSlices) D fold := by
  simp only [new] at accepted
  split at accepted
  · simp at accepted
  · split at accepted
    · simp at accepted
    · simp only [Except.ok.injEq] at accepted
      subst accepted
      have noneFed : ∀ fold : RepairFold K n, fold.fed = List.replicate totalSlices false →
          fold.fedSlices = ∅ := by
        intro fold fedEq
        rw [fedSlices, Finset.filter_eq_empty_iff]
        intro i _
        simp only [isFed, fedEq, List.getD_eq_getElem?_getD, List.getElem?_replicate]
        split <;> simp
      refine ⟨rfl, ?_, ?_, ?_, ?_, ?_, ?_⟩
      · simp [gf.length_constants]
      · simp
      · rw [noneFed _ rfl]
        rfl
      · simp
      · simp
      · intro r row e rowFound expFound
        rw [noneFed _ rfl]
        simp only [List.getElem?_map, Option.map_eq_some_iff] at rowFound
        rcases rowFound with ⟨_, _, rfl⟩
        simp [Buf.zeros_eq]

theorem exact_feedBatch {batch : List (ℕ × Bytes)} (exact : Exact constants D fold)
    (trueBatch : TrueBatch D batch) : Exact constants D (feedBatch gf fold batch).1 := by
  simp only [feedBatch]
  split
  · exact exact
  next fresh selected =>
    split
    · exact exact
    · have isFresh := fresh_of_freshSlices trueBatch
        (⟨by simp [TrueBatch], by simp, by simp⟩ : Fresh D fold.fed []) selected
      set newFed := fresh.foldl (fun fed entry => fed.set entry.1 true) fold.fed
      have fedLength : newFed.length = fold.fed.length := (getD_foldl_set fresh fold.fed 0).1
      have newSlices : ∀ next : RepairFold K n, next.fed = newFed →
          next.fedSlices = fold.fedSlices ∪ (batchIndices fresh).toFinset := by
        intro next fedEq
        ext i
        rw [Finset.mem_union, mem_fedSlices, mem_fedSlices, List.mem_toFinset, fedEq, fedLength]
        simp only [isFed, fedEq]
        constructor
        · rintro ⟨inRange, flag⟩
          rcases ((getD_foldl_set fresh fold.fed i).2 inRange).mp flag with old | isNew
          · exact Or.inl ⟨inRange, old⟩
          · exact Or.inr isNew
        · rintro (⟨inRange, flag⟩ | isNew)
          · exact ⟨inRange, ((getD_foldl_set fresh fold.fed i).2 inRange).mpr (Or.inl flag)⟩
          · have inRange := (isFresh.notFed i isNew).1
            exact ⟨inRange, ((getD_foldl_set fresh fold.fed i).2 inRange).mpr (Or.inr isNew)⟩
      have apart : Disjoint fold.fedSlices (batchIndices fresh).toFinset := by
        rw [Finset.disjoint_left]
        intro i isOld isNew
        have unfed := (isFresh.notFed i (List.mem_toFinset.mp isNew)).2
        rw [mem_fedSlices, isFed, unfed] at isOld
        exact absurd isOld.2 (by simp)
      refine ⟨exact.constants_eq, ?_, ?_, ?_, ?_, ?_, ?_⟩
      · simp [fedLength, exact.fed_length]
      · simpa using exact.exponents_length
      · rw [newSlices _ rfl, Finset.card_union_of_disjoint apart, ← exact.fedCount_eq,
          List.toFinset_card_of_nodup isFresh.distinct, batchIndices, List.length_map]
      · simpa using exact.growth_start
      · intro growth found
        rw [newSlices _ rfl]
        exact (exact.growth_pending growth found).trans Finset.subset_union_left
      · intro r row e rowFound expFound
        rcases exists_of_getElem?_foldInto gf isFresh.trueBatch isFresh.distinct rowFound
          expFound with ⟨old, oldFound, rfl⟩
        rw [exact.row_eq r old e oldFound expFound]
        -- A fresh slice is in no row yet, so it is owed to none.
        have owedApart : Disjoint (batchIndices fresh).toFinset (fold.owed r) :=
          (apart.symm).mono_right (owed_subset exact r)
        have split : (fold.fedSlices ∪ (batchIndices fresh).toFinset) \ fold.owed r =
            (fold.fedSlices \ fold.owed r) ∪ (batchIndices fresh).toFinset := by
          rw [Finset.union_sdiff_distrib, Finset.sdiff_eq_self_of_disjoint owedApart]
        rw [newSlices { fold with
            rows := foldInto gf fold.constants fresh fold.rows fold.exponents
            fed := newFed
            fedCount := fold.fedCount + fresh.length } rfl]
        change _ = powerSum _ _ _ ((fold.fedSlices ∪ (batchIndices fresh).toFinset) \ fold.owed r)
        rw [split, powerSum_union (apart.mono_left Finset.sdiff_subset)]
        rfl

theorem exact_noteCorrupt (exact : Exact constants D fold) (index : ℕ) :
    Exact constants D (fold.noteCorrupt index) := by
  unfold noteCorrupt
  split
  · exact ⟨exact.1, exact.2, exact.3, exact.4, exact.5, exact.6, exact.7⟩
  · exact exact

theorem exact_abandonGrowth (exact : Exact constants D fold) :
    Exact constants D fold.abandonGrowth := by
  unfold abandonGrowth
  split
  · exact exact
  next growth found =>
    refine ⟨exact.constants_eq, exact.fed_length, ?_, exact.fedCount_eq, by simp, by simp, ?_⟩
    · simp [exact.exponents_length]
    · intro r row e rowFound expFound
      have inside : r < growth.start := by
        have := (List.getElem?_eq_some_iff.mp rowFound).1
        simp only [List.length_take] at this
        omega
      rw [List.getElem?_take_of_lt inside] at rowFound expFound
      have := exact.row_eq r row e rowFound expFound
      rw [this]
      simp only [owed, found]
      rw [if_neg (by omega)]
      rfl

end RepairFold

section Reading

variable {D : ℕ → Bytes} {read : ℕ → Except String Bytes}

theorem readBatch_true {chunk : List ℕ} {batch : List (ℕ × Bytes)} (trueRead : TrueRead D read)
    (result : readBatch read chunk = .ok batch) :
    TrueBatch D batch ∧ batchIndices batch = chunk := by
  induction chunk generalizing batch with
  | nil =>
      simp only [readBatch, Except.ok.injEq] at result
      subst result
      simp [TrueBatch]
  | cons index chunk ih =>
      simp only [readBatch] at result
      split at result
      · simp at result
      next bytes readOk =>
        split at result
        · simp at result
        next rest restOk =>
          simp only [Except.ok.injEq] at result
          subst result
          rcases ih restOk with ⟨restTrue, restIndices⟩
          refine ⟨?_, by simp [restIndices]⟩
          intro entry mem
          rcases List.mem_cons.mp mem with rfl | mem
          · exact trueRead index bytes readOk
          · exact restTrue entry mem

theorem forEachBatch_preserves {σ : Type u} {apply : σ → List (ℕ × Bytes) → σ}
    (Inv : σ → Prop) (batches : List (List ℕ)) {state : σ} (trueRead : TrueRead D read)
    (keeps : ∀ state batch, TrueBatch D batch → Inv state → Inv (apply state batch))
    (base : Inv state) : Inv (forEachBatch read apply batches state).1 := by
  induction batches generalizing state with
  | nil => exact base
  | cons chunk batches ih =>
      simp only [forEachBatch]
      split
      · exact base
      next batch readOk => exact ih (keeps state batch (readBatch_true trueRead readOk).1 base)

end Reading

namespace RepairFold

variable {K : Type u} {n : ℕ} [Field K] [Module K (Buf n)]
  (gf : Gf K n) {constants : List K} {D : ℕ → Bytes} {fold : RepairFold K n}
  {read : ℕ → Except String Bytes}

theorem fill_rows {constants : List K} {exponents : List ℕ} (trueRead : TrueRead D read) :
    ∀ {batches : List (List ℕ)} {done : List ℕ} {rows final : List (Buf n)},
      (done ++ batches.flatten).Nodup → rows.length = exponents.length →
      (∀ (r : ℕ) (row : Buf n) (e : ℕ), rows[r]? = some row → exponents[r]? = some e →
        row = powerSum (fun i => constants.getD i 0) (slice n D) e done.toFinset) →
      forEachBatch read (fun rows batch => foldInto gf constants batch rows exponents)
        batches rows = (final, none) →
      final.length = exponents.length ∧
        ∀ (r : ℕ) (row : Buf n) (e : ℕ), final[r]? = some row → exponents[r]? = some e →
          row = powerSum (fun i => constants.getD i 0) (slice n D) e
            (done ++ batches.flatten).toFinset := by
  intro batches
  induction batches with
  | nil =>
      intro done rows final _ sameLength rowsEq result
      simp only [forEachBatch, Prod.mk.injEq, and_true] at result
      subst result
      simpa using ⟨sameLength, rowsEq⟩
  | cons chunk batches ih =>
      intro done rows final distinct sameLength rowsEq result
      simp only [forEachBatch] at result
      split at result
      · simp at result
      next batch readOk =>
        rcases readBatch_true trueRead readOk with ⟨trueBatch, indices⟩
        rw [List.flatten_cons, ← List.append_assoc] at distinct
        have chunkDistinct : (done ++ chunk).Nodup := (List.nodup_append.mp distinct).1
        rcases List.nodup_append.mp chunkDistinct with ⟨_, batchDistinct, apart⟩
        rw [List.flatten_cons, ← List.append_assoc]
        refine ih distinct (by simpa using sameLength) ?_ result
        intro r row e rowFound expFound
        rcases exists_of_getElem?_foldInto gf trueBatch (indices ▸ batchDistinct) rowFound
          expFound with ⟨old, oldFound, rfl⟩
        rw [rowsEq r old e oldFound expFound, indices, List.toFinset_append, powerSum_union]
        rw [Finset.disjoint_left]
        intro i isDone isNew
        exact apart i (List.mem_toFinset.mp isDone) i (List.mem_toFinset.mp isNew) rfl

theorem exact_extendRows {exponents : List ℕ} (exact : Exact constants D fold)
    (trueRead : TrueRead D read) : Exact constants D (extendRows gf fold exponents read).1 := by
  have base := exact_abandonGrowth exact
  have noGrowth := growth_abandonGrowth fold
  simp only [extendRows]
  generalize fold.abandonGrowth = fold at base noGrowth
  split
  · exact base
  · split
    · exact base
    · split
      · exact base
      next newRows filled =>
        have zeroRows : ∀ (r : ℕ) (row : Buf n) (e : ℕ),
            ((fold.newExponents exponents).map fun _ => Buf.zeros n)[r]? = some row →
            (fold.newExponents exponents)[r]? = some e →
            row = powerSum (fun i => fold.constants.getD i 0) (slice n D) e
              ([] : List ℕ).toFinset := by
          intro r row e rowFound _
          simp only [List.getElem?_map, Option.map_eq_some_iff] at rowFound
          rcases rowFound with ⟨_, _, rfl⟩
          simp [Buf.zeros_eq]
        have distinct : ([] ++ (chunks (batchLen n) fold.fedIndices).flatten).Nodup := by
          rw [List.nil_append, flatten_chunks]
          exact fold.nodup_fedIndices
        rcases fill_rows gf trueRead distinct (by simp) zeroRows filled with
          ⟨newLength, newRowsEq⟩
        rw [List.nil_append, flatten_chunks, toFinset_fedIndices] at newRowsEq
        refine ⟨base.constants_eq, base.fed_length, ?_, base.fedCount_eq, ?_, ?_, ?_⟩
        · simp [base.exponents_length, newLength]
        · intro growth found
          simp [noGrowth] at found
        · intro growth found
          simp [noGrowth] at found
        · intro r row e rowFound expFound
          by_cases old : r < fold.rows.length
          · rw [List.getElem?_append_left old] at rowFound
            rw [List.getElem?_append_left (by rw [base.exponents_length]; exact old)] at expFound
            exact base.row_eq r row e rowFound expFound
          · rw [List.getElem?_append_right (by omega)] at rowFound
            rw [List.getElem?_append_right (by rw [base.exponents_length]; omega),
              base.exponents_length] at expFound
            rw [newRowsEq _ row e rowFound expFound]
            simp only [owed, noGrowth, Finset.sdiff_empty]
            rfl

theorem exact_beginGrowth {exponents : List ℕ} (exact : Exact constants D fold) :
    Exact constants D (beginGrowth fold exponents).1 := by
  simp only [beginGrowth]
  split
  · exact exact
  next noGrowth =>
    split
    · exact exact
    · split
      · exact exact
      · have noGrowth : fold.growth = none := by simpa using noGrowth
        set new := fold.newExponents exponents
        -- The rows of the grown fold, whatever becomes of its growth.
        have grownRows : ∀ (r : ℕ) (row : Buf n) (e : ℕ) (owing : Finset ℕ),
            (fold.rows ++ new.map fun _ => Buf.zeros n)[r]? = some row →
            (fold.exponents ++ new)[r]? = some e →
            (r < fold.rows.length → owing = ∅) →
            (fold.rows.length ≤ r → fold.fedSlices \ owing = ∅) →
            row = powerSum fold.constant (slice n D) e (fold.fedSlices \ owing) := by
          intro r row e owing rowFound expFound oldOwing newOwing
          by_cases old : r < fold.rows.length
          · rw [List.getElem?_append_left old] at rowFound
            rw [List.getElem?_append_left (by rw [exact.exponents_length]; exact old)] at expFound
            rw [oldOwing old, exact.row_eq r row e rowFound expFound]
            simp [owed, noGrowth]
          · rw [List.getElem?_append_right (by omega)] at rowFound
            simp only [List.getElem?_map, Option.map_eq_some_iff] at rowFound
            rcases rowFound with ⟨_, _, rfl⟩
            rw [newOwing (by omega), powerSum_empty, Buf.zeros_eq]
        split
        next noneFed =>
          have empty : fold.fedSlices = ∅ := by
            rw [← toFinset_fedIndices, noneFed]
            rfl
          refine ⟨exact.constants_eq, exact.fed_length, ?_, exact.fedCount_eq, by simp, by simp, ?_⟩
          · simp [exact.exponents_length]
          · intro r row e rowFound expFound
            exact grownRows r row e ∅ rowFound expFound (fun _ => rfl) (fun _ => by simp [empty])
        · refine ⟨exact.constants_eq, exact.fed_length, ?_, exact.fedCount_eq, ?_, ?_, ?_⟩
          · simp [exact.exponents_length]
          · intro growth found
            simp only [Option.some.injEq] at found
            subst found
            simp
          · intro growth found
            simp only [Option.some.injEq] at found
            subst found
            simp only
            rw [toFinset_fedIndices]
            rfl
          · intro r row e rowFound expFound
            refine grownRows r row e _ rowFound expFound ?_ ?_
            · intro old
              simp only [owed]
              rw [if_neg (by omega)]
            · intro isNew
              simp only [owed]
              rw [if_pos isNew, toFinset_fedIndices, Finset.sdiff_self]

theorem takePending_spec {D : ℕ → Bytes} {batch : List (ℕ × Bytes)} :
    ∀ pending : Finset ℕ, TrueBatch D batch →
      TrueBatch D (takePending pending batch).1 ∧
        (batchIndices (takePending pending batch).1).Nodup ∧
        (batchIndices (takePending pending batch).1).toFinset ⊆ pending ∧
        (takePending pending batch).2 =
          pending \ (batchIndices (takePending pending batch).1).toFinset := by
  induction batch with
  | nil => simp [takePending, TrueBatch]
  | cons entry batch ih =>
      rcases entry with ⟨index, bytes⟩
      intro pending trueBatch
      have restTrue : TrueBatch D batch := fun entry mem => trueBatch entry (by simp [mem])
      simp only [takePending]
      split
      next isPending =>
        rcases ih (pending.erase index) restTrue with
          ⟨freshTrue, distinct, subset, left⟩
        refine ⟨?_, ?_, ?_, ?_⟩
        · intro entry mem
          rcases List.mem_cons.mp mem with rfl | mem
          · exact trueBatch (index, bytes) (by simp)
          · exact freshTrue entry mem
        · rw [batchIndices_cons, List.nodup_cons]
          refine ⟨?_, distinct⟩
          intro again
          have := subset (List.mem_toFinset.mpr again)
          simp at this
        · rw [batchIndices_cons, List.toFinset_cons]
          apply Finset.insert_subset isPending
          exact subset.trans (Finset.erase_subset _ _)
        · simp only [batchIndices_cons, List.toFinset_cons]
          rw [left, Finset.sdiff_insert, Finset.erase_sdiff_comm]
      · exact ih pending restTrue

theorem exact_backfill {generation : ℕ} {batch : List (ℕ × Bytes)} (exact : Exact constants D fold)
    (trueBatch : TrueBatch D batch) : Exact constants D (backfill gf fold generation batch).1 := by
  simp only [backfill]
  split
  · exact exact
  · split
    · exact exact
    next growth found =>
      rcases takePending_spec growth.pending trueBatch with
        ⟨freshTrue, distinct, subset, leftEq⟩
      set fresh := (takePending growth.pending batch).1
      set left := (takePending growth.pending batch).2
      have startLe := exact.growth_start growth found
      have pendingFed := exact.growth_pending growth found
      set rows := fold.rows.take growth.start ++
        foldInto gf fold.constants fresh (fold.rows.drop growth.start)
          (fold.exponents.drop growth.start)
      have rowsLength : rows.length = fold.rows.length := by
        simp [rows]
        omega
      have newRows : ∀ r row e, rows[r]? = some row → fold.exponents[r]? = some e →
          row = powerSum fold.constant (slice n D) e
            (fold.fedSlices \ if growth.start ≤ r then left else ∅) := by
        intro r row e rowFound expFound
        by_cases isNew : growth.start ≤ r
        · rw [List.getElem?_append_right (by simp; omega)] at rowFound
          have position : growth.start + (r - (fold.rows.take growth.start).length) = r := by
            simp
            omega
          have expDrop : (fold.exponents.drop growth.start)[
              r - (fold.rows.take growth.start).length]? = some e := by
            rw [List.getElem?_drop, position, expFound]
          rcases exists_of_getElem?_foldInto gf freshTrue distinct rowFound expDrop with
            ⟨old, oldFound, rfl⟩
          rw [List.getElem?_drop, position] at oldFound
          have oldEq := exact.row_eq r old e oldFound expFound
          simp only [owed, found, if_pos isNew] at oldEq
          rw [oldEq, if_pos isNew, leftEq]
          exact powerSum_sdiff_add subset pendingFed
        · rw [List.getElem?_append_left (by simp; omega),
            List.getElem?_take_of_lt (by omega)] at rowFound
          have oldEq := exact.row_eq r row e rowFound expFound
          simp only [owed, found, if_neg isNew] at oldEq
          rw [oldEq, if_neg isNew]
      split
      next done =>
        refine ⟨exact.constants_eq, exact.fed_length, ?_, exact.fedCount_eq, by simp, by simp, ?_⟩
        · simp [exact.exponents_length, rowsLength]
        · intro r row e rowFound expFound
          rw [newRows r row e rowFound expFound, done]
          simp only [owed, ite_self]
          rfl
      · refine ⟨exact.constants_eq, exact.fed_length, ?_, exact.fedCount_eq, ?_, ?_, ?_⟩
        · simp [exact.exponents_length, rowsLength]
        · intro next nextFound
          simp only [Option.some.injEq] at nextFound
          subst nextFound
          simp [rowsLength, startLe]
        · intro next nextFound
          simp only [Option.some.injEq] at nextFound
          subst nextFound
          simp only [leftEq]
          exact Finset.sdiff_subset.trans pendingFed
        · intro r row e rowFound expFound
          exact newRows r row e rowFound expFound

theorem exact_feedMissing {damaged : List ℕ} (exact : Exact constants D fold)
    (trueRead : TrueRead D read) : Exact constants D (feedMissing gf fold damaged read).1 := by
  simp only [feedMissing]
  split
  · exact exact
  · have start : Exact constants D ((fold, 0, none) : RepairFold K n × ℕ × Option FoldError).1 :=
      exact
    have keeps : ∀ (state : RepairFold K n × ℕ × Option FoldError) batch, TrueBatch D batch →
        Exact constants D state.1 → Exact constants D (feedReadBatch gf state batch).1 := by
      intro state batch trueBatch exactState
      have fedExact := exact_feedBatch gf exactState trueBatch
      simp only [feedReadBatch]
      split
      next outcome => simpa [outcome] using fedExact
      next outcome => simpa [outcome] using fedExact
    have final := forEachBatch_preserves
      (fun state : RepairFold K n × ℕ × Option FoldError => Exact constants D state.1)
      (chunks (batchLen n) ((List.range fold.fed.length).filter fun i =>
        !fold.isFed i && !damaged.contains i)) trueRead keeps start
    split
    next outcome =>
      rw [outcome] at final
      exact final
    next outcome =>
      rw [outcome] at final
      exact final
    next outcome =>
      rw [outcome] at final
      exact ⟨final.1, final.2, final.3, final.4, final.5, final.6, final.7⟩

end RepairFold

end Rustnzb.Decode
