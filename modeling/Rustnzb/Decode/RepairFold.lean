import Rustnzb.Decode.SliceMap

/-!
# The in-flight repair fold

A repair fold owns one accumulator row for each recovery exponent it follows and adds the intact
slices of the set into the rows as they verify. This file embeds the fold of the decode crate:
its rows, the flags of the slices it has been fed, an unfinished growth with the slices still to
be read back for its rows, and the generation that makes stale tickets harmless.

The slice size is the length of the buffers, which are added byte by byte with exclusive or. The
arithmetic is `rust-par2`'s. It is a parameter `Gf`: a field `K` that acts on the buffers, and the
functions the fold calls, with what their documentation says of them.
-/

namespace Rustnzb.Decode

universe u

def Buf (n : ℕ) : Type := { bytes : Bytes // bytes.length = n }

namespace Buf

def zeros (n : ℕ) : Buf n := ⟨List.replicate n 0, List.length_replicate⟩

/-- A slice as it is folded: zero-padded when short, cut to the slice size when long. -/
def pad (n : ℕ) (bytes : Bytes) : Buf n := ⟨resize bytes n, length_resize bytes n⟩

/-- Addition in a field of characteristic two, byte by byte. -/
def xor {n : ℕ} (left right : Buf n) : Buf n :=
  ⟨List.zipWith (· ^^^ ·) left.1 right.1, by simp [left.2, right.2]⟩

variable {n : ℕ}

theorem ext {left right : Buf n}
    (same : ∀ i (leftBound : i < left.1.length) (rightBound : i < right.1.length),
      left.1[i] = right.1[i]) : left = right := by
  apply Subtype.ext
  exact List.ext_getElem (by rw [left.2, right.2]) same

theorem xor_assoc (a b c : Buf n) : xor (xor a b) c = xor a (xor b c) := by
  apply ext
  intro i _ _
  simp [xor, UInt8.xor_assoc]

theorem xor_comm (a b : Buf n) : xor a b = xor b a := by
  apply ext
  intro i _ _
  simp only [xor, List.getElem_zipWith]
  exact UInt8.xor_comm _ _

theorem zeros_xor (a : Buf n) : xor (zeros n) a = a := by
  apply ext
  intro i _ _
  simp [xor, zeros]

theorem xor_self (a : Buf n) : xor a a = zeros n := by
  apply ext
  intro i _ _
  simp [xor, zeros]

instance : Add (Buf n) := ⟨xor⟩

instance : Zero (Buf n) := ⟨zeros n⟩

instance : Neg (Buf n) := ⟨id⟩

instance : AddCommGroup (Buf n) where
  add_assoc := xor_assoc
  zero_add := zeros_xor
  add_zero a := (xor_comm a (zeros n)).trans (zeros_xor a)
  neg_add_cancel := xor_self
  add_comm := xor_comm
  nsmul := nsmulRec
  zsmul := zsmulRec

theorem add_self (a : Buf n) : a + a = 0 := xor_self a

theorem zeros_eq : zeros n = 0 := rfl

end Buf

/-- The functions of `rust-par2` that the fold calls. -/
structure Gf (K : Type u) (n : ℕ) [Field K] [Module K (Buf n)] where
  par2InputConstants : ℕ → List K
  pow : K → ℕ → K
  mulAddMulti : Buf n → List (Buf n) → List K → Buf n
  invert : (d : ℕ) → Matrix (Fin d) (Fin d) K → Option (Matrix (Fin d) (Fin d) K)
  length_constants : ∀ total, (par2InputConstants total).length = total
  pow_eq : ∀ c e, pow c e = c ^ e
  mulAddMulti_eq : ∀ dst srcs coeffs,
    mulAddMulti dst srcs coeffs = dst + (List.zipWith (· • ·) coeffs srcs).sum
  mul_of_invert : ∀ d M N, invert d M = some N → N * M = 1

def maxRepairRowBytes : ℕ := 256 * 1024 * 1024
def maxFoldSliceSize : ℕ := 32 * 1024 * 1024
def maxRepairBatch : ℕ := 8
def maxBatchBytes : ℕ := 48 * 1024 * 1024

inductive FoldError where
  | sliceTooLarge (sliceSize : ℕ)
  | noRows
  | poisoned
  | notEnoughRows (needed usable : ℕ)
  | outOfRange (index : ℕ)
  | singular
  | read (index : ℕ) (message : String)
  deriving DecidableEq, Repr

def maxRows (sliceSize : ℕ) : ℕ :=
  if sliceSize = 0 ∨ sliceSize > maxFoldSliceSize then 0 else maxRepairRowBytes / sliceSize

def batchLen (sliceSize : ℕ) : ℕ :=
  max 1 (min (maxBatchBytes / max sliceSize 1) maxRepairBatch)

/-- Rows added to a live fold. -/
structure Growth where
  start : ℕ
  /-- Slices fed before the growth and not yet folded into the new rows. -/
  pending : Finset ℕ

structure GrowthTicket where
  generation : ℕ
  slices : List ℕ

structure RepairFold (K : Type u) (n : ℕ) where
  constants : List K
  exponents : List ℕ
  rows : List (Buf n)
  fed : List Bool
  fedCount : ℕ
  poisoned : Bool
  growth : Option Growth
  generation : ℕ
  diskFed : ℕ
  maxRows : ℕ

def chunks {α : Type} (size : ℕ) : List α → List (List α)
  | [] => []
  | x :: xs => (x :: xs.take (size - 1)) :: chunks size (xs.drop (size - 1))
termination_by xs => xs.length
decreasing_by
  simp only [List.length_drop, List.length_cons]
  omega

theorem flatten_chunks {α : Type} (size : ℕ) (xs : List α) : (chunks size xs).flatten = xs := by
  induction xs using chunks.induct size with
  | case1 => simp [chunks]
  | case2 x xs ih => simp [chunks, ih]

def readBatch (read : ℕ → Except String Bytes) : List ℕ → Except FoldError (List (ℕ × Bytes))
  | [] => .ok []
  | index :: rest =>
      match read index with
      | .error message => .error (.read index message)
      | .ok bytes =>
          match readBatch read rest with
          | .error e => .error e
          | .ok batch => .ok ((index, bytes) :: batch)

/-- Read the batches in order and hand each to `apply`. A read that fails ends the loop with what
the earlier batches did. -/
def forEachBatch {σ : Type u} (read : ℕ → Except String Bytes)
    (apply : σ → List (ℕ × Bytes) → σ) : List (List ℕ) → σ → σ × Option FoldError
  | [], state => (state, none)
  | chunk :: rest, state =>
      match readBatch read chunk with
      | .error e => (state, some e)
      | .ok batch => forEachBatch read apply rest (apply state batch)

namespace RepairFold

variable {K : Type u} {n : ℕ} [Field K] [Module K (Buf n)]

/-- Fold `slices` into `rows`, where row `r` has the exponent `exponents[r]`. -/
def foldInto (gf : Gf K n) (constants : List K) (slices : List (ℕ × Bytes)) :
    List (Buf n) → List ℕ → List (Buf n)
  | row :: rows, exponent :: exponents =>
      let srcs := slices.map fun slice => Buf.pad n slice.2
      let coeffs := slices.map fun slice => gf.pow (constants.getD slice.1 0) exponent
      gf.mulAddMulti row srcs coeffs :: foldInto gf constants slices rows exponents
  | rows, _ => rows

def new (gf : Gf K n) (totalSlices : ℕ) (exponents : List ℕ) : Except FoldError (RepairFold K n) :=
  if n > maxFoldSliceSize then .error (.sliceTooLarge n)
  else if exponents = [] ∨ exponents.length > Decode.maxRows n then .error .noRows
  else .ok
    { constants := gf.par2InputConstants totalSlices
      exponents := exponents
      rows := exponents.map fun _ => Buf.zeros n
      fed := List.replicate totalSlices false
      fedCount := 0
      poisoned := false
      growth := none
      generation := 0
      diskFed := 0
      maxRows := Decode.maxRows n }

def withRowLimit (fold : RepairFold K n) (rows : ℕ) : RepairFold K n :=
  { fold with maxRows := min rows (Decode.maxRows n) }

def isFed (fold : RepairFold K n) (index : ℕ) : Bool :=
  fold.fed.getD index false

def rowLimit (fold : RepairFold K n) : ℕ :=
  min fold.maxRows (Decode.maxRows n)

def fedIndices (fold : RepairFold K n) : List ℕ :=
  (List.range fold.fed.length).filter fun index => fold.isFed index

/-- The slices of a batch that are neither fed yet nor earlier in the batch, or the first index
that is out of range. -/
def freshSlices (fed : List Bool) :
    List (ℕ × Bytes) → List (ℕ × Bytes) → Except FoldError (List (ℕ × Bytes))
  | fresh, [] => .ok fresh
  | fresh, (index, bytes) :: rest =>
      if index ≥ fed.length then .error (.outOfRange index)
      else if !fed.getD index false && !fresh.any fun slice => slice.1 = index then
        freshSlices fed (fresh ++ [(index, bytes)]) rest
      else freshSlices fed fresh rest

/-- Fold several verified slices at once. Returns how many were folded. -/
def feedBatch (gf : Gf K n) (fold : RepairFold K n) (slices : List (ℕ × Bytes)) :
    RepairFold K n × Except FoldError ℕ :=
  match freshSlices fold.fed [] slices with
  | .error e => (fold, .error e)
  | .ok fresh =>
      if fresh = [] then (fold, .ok 0)
      else
        ({ fold with
            rows := foldInto gf fold.constants fresh fold.rows fold.exponents
            fed := fresh.foldl (fun fed slice => fed.set slice.1 true) fold.fed
            fedCount := fold.fedCount + fresh.length },
          .ok fresh.length)

def feed (gf : Gf K n) (fold : RepairFold K n) (index : ℕ) (bytes : Bytes) :
    RepairFold K n × Except FoldError Bool :=
  let (fold, result) := feedBatch gf fold [(index, bytes)]
  (fold, result.map fun folded => folded = 1)

/-- A slice failed verification: if it was already folded, the fold is poisoned. -/
def noteCorrupt (fold : RepairFold K n) (index : ℕ) : RepairFold K n :=
  if fold.isFed index then { fold with poisoned := true } else fold

def abandonGrowth (fold : RepairFold K n) : RepairFold K n :=
  match fold.growth with
  | none => fold
  | some growth =>
      { fold with
        growth := none
        rows := fold.rows.take growth.start
        exponents := fold.exponents.take growth.start
        generation := fold.generation + 1 }

/-- Drop the rows of the growth `generation`, if it is still unfinished. -/
def abandonGrowthOf (fold : RepairFold K n) (generation : ℕ) : RepairFold K n :=
  if generation = fold.generation then fold.abandonGrowth else fold

def newExponents (fold : RepairFold K n) (exponents : List ℕ) : List ℕ :=
  exponents.filter fun e => !fold.exponents.contains e

/-- Add rows for `exponents` and fold every already-fed slice into the new rows only. -/
def extendRows (gf : Gf K n) (fold : RepairFold K n) (exponents : List ℕ)
    (read : ℕ → Except String Bytes) : RepairFold K n × Except FoldError ℕ :=
  let fold := fold.abandonGrowth
  let new := fold.newExponents exponents
  if new = [] then (fold, .ok 0)
  else if fold.rows.length + new.length > fold.rowLimit then (fold, .error .noRows)
  else
    let newRows := new.map fun _ => Buf.zeros n
    let fill := fun rows batch => foldInto gf fold.constants batch rows new
    match forEachBatch read fill (chunks (batchLen n) fold.fedIndices) newRows with
    | (_, some e) => (fold, .error e)
    | (newRows, none) =>
        ({ fold with
            exponents := fold.exponents ++ new
            rows := fold.rows ++ newRows },
          .ok new.length)

/-- Start adding rows for `exponents`; the slices fed so far are returned to be backfilled. -/
def beginGrowth (fold : RepairFold K n) (exponents : List ℕ) :
    RepairFold K n × Except FoldError (Option GrowthTicket) :=
  if fold.growth.isSome then (fold, .ok none)
  else
    let new := fold.newExponents exponents
    if new = [] then (fold, .ok none)
    else if fold.rows.length + new.length > fold.rowLimit then (fold, .error .noRows)
    else
      let slices := fold.fedIndices
      let grown : RepairFold K n :=
        { fold with
          exponents := fold.exponents ++ new
          rows := fold.rows ++ new.map fun _ => Buf.zeros n
          growth := some { start := fold.rows.length, pending := slices.toFinset } }
      let grown :=
        if slices = [] then { grown with growth := none, generation := grown.generation + 1 }
        else grown
      (grown, .ok (some { generation := grown.generation, slices := slices }))

/-- The slices of a batch that are still pending, each at its first place in the batch, with the
indices that stay pending. -/
def takePending : Finset ℕ → List (ℕ × Bytes) → List (ℕ × Bytes) × Finset ℕ
  | pending, [] => ([], pending)
  | pending, (index, bytes) :: rest =>
      if index ∈ pending then
        let (fresh, left) := takePending (pending.erase index) rest
        ((index, bytes) :: fresh, left)
      else takePending pending rest

/-- Fold a batch of a growth's slices into its new rows. Returns false when the growth is gone. -/
def backfill (gf : Gf K n) (fold : RepairFold K n) (generation : ℕ)
    (slices : List (ℕ × Bytes)) : RepairFold K n × Bool :=
  if generation ≠ fold.generation then (fold, false)
  else
    match fold.growth with
    | none => (fold, false)
    | some growth =>
        let (fresh, left) := takePending growth.pending slices
        let start := growth.start
        let rows := fold.rows.take start ++
          foldInto gf fold.constants fresh (fold.rows.drop start) (fold.exponents.drop start)
        if left = ∅ then
          ({ fold with rows := rows, growth := none, generation := fold.generation + 1 }, true)
        else ({ fold with rows := rows, growth := some { growth with pending := left } }, true)

def completeRows (fold : RepairFold K n) : ℕ :=
  match fold.growth with
  | none => fold.rows.length
  | some growth => growth.start

/-- The batch step of `feed_missing`: the fold, how many slices it folded so far, and the last
error. -/
def feedReadBatch (gf : Gf K n) (state : RepairFold K n × ℕ × Option FoldError)
    (batch : List (ℕ × Bytes)) : RepairFold K n × ℕ × Option FoldError :=
  match feedBatch gf state.1 batch with
  | (fold, .ok folded) => (fold, state.2.1 + folded, state.2.2)
  | (fold, .error e) => (fold, state.2.1, some e)

/-- Fold every slice that is neither fed nor in `damaged`. -/
def feedMissing (gf : Gf K n) (fold : RepairFold K n) (damaged : List ℕ)
    (read : ℕ → Except String Bytes) : RepairFold K n × Except FoldError ℕ :=
  match damaged.find? fun j => decide (j ≥ fold.fed.length) with
  | some j => (fold, .error (.outOfRange j))
  | none =>
      let todo := (List.range fold.fed.length).filter fun i =>
        !fold.isFed i && !damaged.contains i
      match forEachBatch read (feedReadBatch gf) (chunks (batchLen n) todo) (fold, 0, none) with
      | ((fold, _, _), some e) => (fold, .error e)
      | ((fold, _, some e), none) => (fold, .error e)
      | ((fold, fed, none), none) => ({ fold with diskFed := fold.diskFed + fed }, .ok fed)

/-- The first `d` complete rows that have recovery data of the slice size. -/
def usableRows (fold : RepairFold K n) (recovery : ℕ → Option Bytes) (d : ℕ) : List ℕ :=
  ((List.range fold.completeRows).filter fun r =>
    (recovery (fold.exponents.getD r 0)).any fun data => data.length = n).take d

def solveMatrix (gf : Gf K n) (fold : RepairFold K n) (damaged usable : List ℕ) :
    Matrix (Fin damaged.length) (Fin damaged.length) K :=
  Matrix.of fun e j =>
    gf.pow (fold.constants.getD (damaged.get j) 0)
      (fold.exponents.getD (usable.getD e 0) 0)

def solveSlice (gf : Gf K n) (fold : RepairFold K n) (recovery : ℕ → Option Bytes)
    (usable : List ℕ) (coeffs : List K) : Buf n :=
  let rows := usable.map fun r => fold.rows.getD r (Buf.zeros n)
  let recs := usable.map fun r => Buf.pad n ((recovery (fold.exponents.getD r 0)).getD [])
  gf.mulAddMulti (gf.mulAddMulti (Buf.zeros n) rows coeffs) recs coeffs

def solve (gf : Gf K n) (fold : RepairFold K n) (damaged : List ℕ)
    (recovery : ℕ → Option Bytes) : Except FoldError (List (ℕ × Buf n)) :=
  if fold.poisoned || damaged.any fun j => fold.isFed j then .error .poisoned
  else
    match damaged.find? fun j => decide (j ≥ fold.fed.length) with
    | some j => .error (.outOfRange j)
    | none =>
        let d := damaged.length
        if fold.fedCount + d ≠ fold.fed.length then .error (.notEnoughRows d 0)
        else if d = 0 then .ok []
        else
          let usable := fold.usableRows recovery d
          if usable.length < d then .error (.notEnoughRows d usable.length)
          else
            match gf.invert d (fold.solveMatrix gf damaged usable) with
            | none => .error .singular
            | some inverse =>
                .ok ((List.finRange d).map fun j : Fin d =>
                  let coeffs := (List.finRange d).map fun e => inverse j e
                  (damaged.get j, fold.solveSlice gf recovery usable coeffs))

end RepairFold

end Rustnzb.Decode
