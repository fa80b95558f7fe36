import Mathlib.Tactic

/-!
# Positional writes

A write puts a block of elements over a list from an offset on, filling a gap before it. After many
writes an element is what the last write over it put there. Where the writes agree on what they
share, their order makes no difference.
-/

namespace Rustnzb.Lib

/-- A block and the offset it is written to. -/
structure Write (α : Type*) where
  offset : ℕ
  block : List α

variable {α : Type*}

namespace Write

/-- What the write puts at a position. -/
def value (write : Write α) (position : ℕ) : Option α :=
  if write.offset ≤ position then write.block[position - write.offset]? else none

/-- The position lies before the end of the write. -/
def Reaches (write : Write α) (position : ℕ) : Prop :=
  write.block ≠ [] ∧ position < write.offset + write.block.length

theorem value_eq_some_iff {write : Write α} {position : ℕ} {element : α} :
    write.value position = some element ↔
      write.offset ≤ position ∧ write.block[position - write.offset]? = some element := by
  simp [value]

theorem reaches_of_value {write : Write α} {position : ℕ} {element : α}
    (isValue : write.value position = some element) : write.Reaches position := by
  rcases value_eq_some_iff.mp isValue with ⟨before, found⟩
  rcases List.getElem?_eq_some_iff.mp found with ⟨inside, _⟩
  refine ⟨List.ne_nil_of_length_pos (by omega), by omega⟩

end Write

/-- Put the block over `list` from the offset on; a gap before it is filled. -/
def overwrite (filler : α) (list : List α) (write : Write α) : List α :=
  match write.block with
  | [] => list
  | _ :: _ =>
      list.take write.offset ++ List.replicate (write.offset - list.length) filler ++ write.block ++
        list.drop (write.offset + write.block.length)

def overwriteAll (filler : α) (list : List α) (writes : List (Write α)) : List α :=
  writes.foldl (overwrite filler) list

variable {filler : α} {list : List α} {write : Write α} {writes : List (Write α)} {position : ℕ}

/-- What an element is that no write has put there: the list's own, or filled in before a write. -/
def background (filler : α) (list : List α) (reached : Prop) [Decidable reached] (position : ℕ) :
    Option α :=
  list[position]?.or (if reached then some filler else none)

instance (write : Write α) (position : ℕ) : Decidable (write.Reaches position) :=
  decidable_of_iff (write.block.isEmpty = false ∧ position < write.offset + write.block.length)
    (by simp [Write.Reaches])

theorem overwrite_nil (empty : write.block = []) : overwrite filler list write = list := by
  simp [overwrite, empty]

theorem getElem?_overwrite (filler : α) (list : List α) (write : Write α) (position : ℕ) :
    (overwrite filler list write)[position]? =
      (write.value position).or (background filler list (write.Reaches position) position) := by
  rcases write with ⟨offset, _ | ⟨first, block⟩⟩
  · simp [overwrite, Write.value, background, Write.Reaches]
  · have before : (list.take offset ++ List.replicate (offset - list.length) filler).length =
        offset := by
      simp
      omega
    have reaches : (⟨offset, first :: block⟩ : Write α).Reaches position ↔
        position < offset + (first :: block).length := by
      simp [Write.Reaches]
    simp only [overwrite, Write.value, background, reaches]
    by_cases below : position < offset
    · have notYet : ¬offset ≤ position := by omega
      have taken : position < (list.take offset).length ↔ position < list.length := by
        simp only [List.length_take]
        omega
      rw [List.append_assoc, List.getElem?_append_left (by omega), List.getElem?_append,
        if_neg notYet, Option.none_or]
      simp only [taken]
      split
      next inside => simp [below, inside]
      next outside =>
        rw [List.getElem?_replicate, if_pos (by simp; omega), if_pos (by omega),
          List.getElem?_eq_none (by omega), Option.none_or]
    · rw [List.append_assoc, List.getElem?_append_right (by omega), before, if_pos (by omega)]
      by_cases inside : position < offset + (first :: block).length
      · rw [List.getElem?_append_left (by omega)]
        rw [List.getElem?_eq_getElem (by omega), Option.some_or]
      · rw [List.getElem?_append_right (by omega), List.getElem?_drop,
          List.getElem?_eq_none (by omega : (first :: block).length ≤ position - offset),
          Option.none_or, if_neg inside, Option.or_none]
        congr 1
        omega

@[simp] theorem overwriteAll_append_singleton :
    overwriteAll filler list (writes ++ [write]) =
      overwrite filler (overwriteAll filler list writes) write := by
  simp [overwriteAll]

/-- The last write over a position decides. -/
theorem getElem?_overwriteAll (filler : α) (list : List α) (writes : List (Write α))
    (position : ℕ) :
    (overwriteAll filler list writes)[position]? =
      (writes.reverse.findSome? fun write => write.value position).or
        (background filler list (∃ write ∈ writes, write.Reaches position) position) := by
  induction writes using List.reverseRecOn with
  | nil => simp [overwriteAll, background]
  | append_singleton writes write ih =>
      rw [overwriteAll_append_singleton, getElem?_overwrite, background, ih]
      simp only [background, List.reverse_append, List.reverse_singleton, List.singleton_append,
        List.findSome?_cons, Option.or_assoc]
      cases write.value position with
      | some element => rfl
      | none =>
          simp only [Option.none_or]
          congr 2
          by_cases reached : write.Reaches position <;>
            by_cases earlier : ∃ write ∈ writes, write.Reaches position <;>
            simp [reached, earlier, or_and_right, exists_or]

/-- No two of the writes put different elements at a position. -/
def Agree (writes : List (Write α)) : Prop :=
  ∀ write ∈ writes, ∀ write' ∈ writes, ∀ position element element',
    write.value position = some element → write'.value position = some element' →
      element = element'

theorem findSome?_eq_some_iff_of_agree {element : α} (agree : Agree writes) :
    (writes.findSome? fun write => write.value position) = some element ↔
      ∃ write ∈ writes, write.value position = some element := by
  constructor
  · exact List.exists_of_findSome?_eq_some
  · rintro ⟨write, mem, isValue⟩
    have isSome : (writes.findSome? fun write => write.value position).isSome := by
      rw [List.findSome?_isSome_iff]
      exact ⟨write, mem, by simp [isValue]⟩
    rcases Option.isSome_iff_exists.mp isSome with ⟨other, found⟩
    rcases List.exists_of_findSome?_eq_some found with ⟨write', mem', isValue'⟩
    rw [found, agree write mem write' mem' position element other isValue isValue']

theorem Agree.perm {writes' : List (Write α)} (agree : Agree writes) (perm : writes'.Perm writes) :
    Agree writes' := by
  intro write mem write' mem'
  exact agree write (perm.mem_iff.mp mem) write' (perm.mem_iff.mp mem')

theorem getElem?_overwriteAll_of_agree {element : α} (agree : Agree writes)
    (mem : write ∈ writes) (isValue : write.value position = some element) :
    (overwriteAll filler list writes)[position]? = some element := by
  have found := (findSome?_eq_some_iff_of_agree (agree.perm writes.reverse_perm)).mpr
    ⟨write, List.mem_reverse.mpr mem, isValue⟩
  rw [getElem?_overwriteAll, found, Option.some_or]

/-- A position that no write reaches keeps its element. -/
theorem getElem?_overwriteAll_of_unreached (unreached : ∀ write ∈ writes, ¬write.Reaches position) :
    (overwriteAll filler list writes)[position]? = list[position]? := by
  have noValue : (writes.reverse.findSome? fun write => write.value position) = none := by
    rw [List.findSome?_eq_none_iff]
    intro write mem
    rw [Option.eq_none_iff_forall_ne_some]
    intro element isValue
    exact unreached write (List.mem_reverse.mp mem) (Write.reaches_of_value isValue)
  have noFill : ¬∃ write ∈ writes, write.Reaches position := by
    rintro ⟨write, mem, reached⟩
    exact unreached write mem reached
  simp [getElem?_overwriteAll, noValue, background, noFill]

theorem overwriteAll_perm {writes' : List (Write α)} (agree : Agree writes)
    (perm : writes'.Perm writes) :
    overwriteAll filler list writes' = overwriteAll filler list writes := by
  apply List.ext_getElem?
  intro position
  have sameValue : (writes'.reverse.findSome? fun write => write.value position) =
      writes.reverse.findSome? fun write => write.value position := by
    apply Option.ext
    intro element
    rw [findSome?_eq_some_iff_of_agree (agree.perm (writes'.reverse_perm.trans perm)),
      findSome?_eq_some_iff_of_agree (agree.perm writes.reverse_perm)]
    simp [perm.mem_iff]
  simp only [getElem?_overwriteAll, sameValue, background, perm.mem_iff]

end Rustnzb.Lib
