import Rustnzb.Dispatch.WorkQueue

/-!
# Deferred recovery volumes

The recovery volumes of a job are parked in the order of their first exponents and released as
prefixes, as the damage seen asks for more blocks. The order in which the source's hash map lists
volumes of equal first exponent is not fixed and is a parameter.
-/

namespace Rustnzb.Dispatch

/-- Recovery blocks fetched beyond the damage seen. -/
def repairMargin : ℕ := 8

/-- One held recovery volume and the work items that fetch it. -/
structure HeldVolume where
  fileId : FileId
  firstExponent : ℕ
  blocks : ℕ
  items : List WorkItem

structure HeldVolumes where
  held : List HeldVolume
  releasedBlocks : ℕ

/-- The order in which `HashMap::into_values` lists the volumes. -/
structure IterationOrder where
  list : List HeldVolume → List HeldVolume
  perm : ∀ volumes, (list volumes).Perm volumes

/-- Recovery volumes by file id: `(first exponent, blocks)`. -/
abbrev VolumeMap := AList fun _ : FileId => ℕ × ℕ

/-- `by_file.entry(..).or_insert_with(..).items.push(item)`. -/
def pushToVolume (item : WorkItem) (volume : ℕ × ℕ) : List HeldVolume → List HeldVolume
  | [] =>
      [{ fileId := item.fileId, firstExponent := volume.1, blocks := volume.2, items := [item] }]
  | first :: rest =>
      if first.fileId = item.fileId then { first with items := first.items ++ [item] } :: rest
      else first :: pushToVolume item volume rest

def splitVolumes (volumes : VolumeMap) :
    List WorkItem → List WorkItem × List HeldVolume → List WorkItem × List HeldVolume
  | [], split => split
  | item :: rest, (now, byFile) =>
      match volumes.lookup item.fileId with
      | some volume => splitVolumes volumes rest (now, pushToVolume item volume byFile)
      | none => splitVolumes volumes rest (now ++ [item], byFile)

namespace HeldVolumes

def new : HeldVolumes := { held := [], releasedBlocks := 0 }

def items (volumes : HeldVolumes) : List WorkItem :=
  volumes.held.flatMap HeldVolume.items

/-- Hold the recovery-volume items; the others are returned to be enqueued now. -/
def hold (order : IterationOrder) (held : HeldVolumes) (items : List WorkItem)
    (volumes : VolumeMap) : List WorkItem × HeldVolumes :=
  let (now, byFile) := splitVolumes volumes items ([], [])
  (now,
    { held with
      held := (order.list byFile).insertionSort fun left right =>
        left.firstExponent ≤ right.firstExponent })

def isEmpty (volumes : HeldVolumes) : Bool :=
  volumes.held.isEmpty

/-- The loop of `release_for`: the items released, the volumes kept, and the blocks released. -/
def releaseLoop (need : Option ℕ) : List HeldVolume → ℕ → List WorkItem × List HeldVolume × ℕ
  | [], released => ([], [], released)
  | volume :: rest, released =>
      if need.all fun need => released < need then
        let (items, kept, released) := releaseLoop need rest (released + volume.blocks)
        (volume.items ++ items, kept, released)
      else ([], volume :: rest, released)

/-- Release the smallest prefix of held volumes that brings the released blocks to at least
`need`, or every volume when the held ones cannot reach it. `none` stands for `usize::MAX`. -/
def releaseFor (volumes : HeldVolumes) (need : Option ℕ) : Option (List WorkItem) × HeldVolumes :=
  let (items, kept, released) := releaseLoop need volumes.held volumes.releasedBlocks
  (if items.isEmpty then none else some items, { held := kept, releasedBlocks := released })

end HeldVolumes

def itemsOf (volumes : List HeldVolume) : List WorkItem :=
  volumes.flatMap HeldVolume.items

theorem itemsOf_pushToVolume (item : WorkItem) (volume : ℕ × ℕ) (byFile : List HeldVolume) :
    (itemsOf (pushToVolume item volume byFile)).Perm (itemsOf byFile ++ [item]) := by
  induction byFile with
  | nil => simp [itemsOf, pushToVolume]
  | cons first rest ih =>
      simp only [pushToVolume]
      split
      · simp only [itemsOf, List.flatMap_cons, List.append_assoc]
        exact List.Perm.append_left _ List.perm_append_comm
      · simp only [itemsOf, List.flatMap_cons, List.append_assoc] at ih ⊢
        exact List.Perm.append_left _ ih

theorem splitVolumes_perm (volumes : VolumeMap) (items : List WorkItem) :
    ∀ (now : List WorkItem) (byFile : List HeldVolume),
      ((splitVolumes volumes items (now, byFile)).1 ++
        itemsOf (splitVolumes volumes items (now, byFile)).2).Perm
        (now ++ itemsOf byFile ++ items) := by
  induction items with
  | nil => simp [splitVolumes]
  | cons item rest ih =>
      intro now byFile
      simp only [splitVolumes]
      split
      · refine (ih _ _).trans ?_
        have pushed := (itemsOf_pushToVolume item ‹_› byFile).append_left now
        simpa using pushed.append_right rest
      · refine (ih _ _).trans ?_
        have moved : ([item] ++ itemsOf byFile).Perm (itemsOf byFile ++ [item]) :=
          List.perm_append_comm
        simpa using (moved.append_left now).append_right rest

theorem splitVolumes_filled (volumes : VolumeMap) (items : List WorkItem) :
    ∀ (now : List WorkItem) (byFile : List HeldVolume), (∀ volume ∈ byFile, volume.items ≠ []) →
      ∀ volume ∈ (splitVolumes volumes items (now, byFile)).2, volume.items ≠ [] := by
  have pushed : ∀ (item : WorkItem) (numbers : ℕ × ℕ) (byFile : List HeldVolume),
      (∀ volume ∈ byFile, volume.items ≠ []) →
        ∀ volume ∈ pushToVolume item numbers byFile, volume.items ≠ [] := by
    intro item numbers byFile
    induction byFile with
    | nil => simp [pushToVolume]
    | cons first rest ih =>
        intro filled
        simp only [pushToVolume]
        split
        · simpa using fun volume volumeMem => filled volume (List.mem_cons_of_mem _ volumeMem)
        · simp only [List.mem_cons, forall_eq_or_imp] at filled ⊢
          exact ⟨filled.1, ih filled.2⟩
  induction items with
  | nil => simp [splitVolumes]
  | cons item rest ih =>
      intro now byFile filled
      simp only [splitVolumes]
      split
      · exact ih _ _ (pushed item _ byFile filled)
      · exact ih _ _ filled

theorem hold_filled (order : IterationOrder) (held : HeldVolumes) (items : List WorkItem)
    (volumes : VolumeMap) :
    ∀ volume ∈ (held.hold order items volumes).2.held, volume.items ≠ [] := by
  intro volume volumeMem
  simp only [HeldVolumes.hold, List.mem_insertionSort] at volumeMem
  exact splitVolumes_filled volumes items [] [] (by simp) volume
    ((order.perm _).mem_iff.mp volumeMem)

theorem hold_perm (order : IterationOrder) (held : HeldVolumes) (items : List WorkItem)
    (volumes : VolumeMap) :
    ((held.hold order items volumes).1 ++ (held.hold order items volumes).2.items).Perm items := by
  have split := splitVolumes_perm volumes items [] []
  have sorted := ((order.list (splitVolumes volumes items ([], [])).2).perm_insertionSort
    fun left right => left.firstExponent ≤ right.firstExponent).trans (order.perm _)
  refine (List.Perm.append_left _ (sorted.flatMap_right HeldVolume.items)).trans ?_
  simpa [itemsOf, HeldVolumes.hold] using split

theorem hold_sorted (order : IterationOrder) (held : HeldVolumes) (items : List WorkItem)
    (volumes : VolumeMap) :
    (held.hold order items volumes).2.held.Pairwise fun left right =>
      left.firstExponent ≤ right.firstExponent := by
  have total : ∀ left right : HeldVolume,
      left.firstExponent ≤ right.firstExponent ∨ right.firstExponent ≤ left.firstExponent :=
    fun left right => Nat.le_total _ _
  have := List.pairwise_insertionSort
    (fun left right : HeldVolume => left.firstExponent ≤ right.firstExponent)
    (order.list (splitVolumes volumes items ([], [])).2)
  exact this

structure ByFile (volumes : List HeldVolume) : Prop where
  unique : (volumes.map HeldVolume.fileId).Nodup
  own : ∀ volume ∈ volumes, ∀ item ∈ volume.items, item.fileId = volume.fileId

theorem mem_fileId_pushToVolume {item : WorkItem} {volume : ℕ × ℕ} {byFile : List HeldVolume}
    {fileId : FileId} :
    fileId ∈ (pushToVolume item volume byFile).map HeldVolume.fileId ↔
      fileId ∈ byFile.map HeldVolume.fileId ∨ fileId = item.fileId := by
  induction byFile with
  | nil => simp [pushToVolume]
  | cons first rest ih =>
      simp only [pushToVolume]
      split
      next same =>
        simp only [List.map_cons, List.mem_cons, same]
        tauto
      · simp only [List.map_cons, List.mem_cons, ih]
        tauto

theorem ByFile.pushToVolume {item : WorkItem} {volume : ℕ × ℕ} {byFile : List HeldVolume}
    (sorted : ByFile byFile) : ByFile (pushToVolume item volume byFile) := by
  induction byFile with
  | nil => exact ⟨by simp [Dispatch.pushToVolume], by simp [Dispatch.pushToVolume]⟩
  | cons first rest ih =>
      have unique := sorted.unique
      rw [List.map_cons, List.nodup_cons] at unique
      have own := sorted.own
      rw [List.forall_mem_cons] at own
      simp only [Dispatch.pushToVolume]
      split
      next same =>
        refine ⟨by simpa using unique, ?_⟩
        rw [List.forall_mem_cons]
        refine ⟨fun other mem => ?_, own.2⟩
        rcases List.mem_append.mp mem with old | new
        · exact own.1 other old
        · rw [List.mem_singleton.mp new]
          exact same.symm
      next apart =>
        rcases ih ⟨unique.2, own.2⟩ with ⟨restUnique, restOwn⟩
        constructor
        · rw [List.map_cons, List.nodup_cons, mem_fileId_pushToVolume]
          refine ⟨?_, restUnique⟩
          rintro (known | same)
          · exact unique.1 known
          · exact apart same
        · rw [List.forall_mem_cons]
          exact ⟨own.1, restOwn⟩

theorem ByFile.splitVolumes (volumes : VolumeMap) (items : List WorkItem) {now : List WorkItem}
    {byFile : List HeldVolume} (sorted : ByFile byFile) :
    ByFile (splitVolumes volumes items (now, byFile)).2 := by
  induction items generalizing now byFile with
  | nil => exact sorted
  | cons item rest ih =>
      simp only [Dispatch.splitVolumes]
      split
      · exact ih sorted.pushToVolume
      · exact ih sorted

theorem hold_byFile (order : IterationOrder) (held : HeldVolumes) (items : List WorkItem)
    (volumes : VolumeMap) : ByFile (held.hold order items volumes).2.held := by
  have sorted : ByFile (splitVolumes volumes items ([], [])).2 :=
    ByFile.splitVolumes volumes items ⟨by simp, by simp⟩
  have perm := ((order.list (splitVolumes volumes items ([], [])).2).perm_insertionSort
    fun left right => left.firstExponent ≤ right.firstExponent).trans (order.perm _)
  exact ⟨(perm.map HeldVolume.fileId).nodup_iff.mpr sorted.unique,
    fun volume mem => sorted.own volume (perm.mem_iff.mp mem)⟩

def blocksOf (volumes : List HeldVolume) : ℕ :=
  (volumes.map HeldVolume.blocks).sum

/-- `volumes` is the smallest prefix of `held` that brings `released` to `need`, or all of `held`;
`kept` is the rest. -/
structure SmallestPrefix (need : Option ℕ) (released : ℕ) (held volumes kept : List HeldVolume) :
    Prop where
  append_eq : held = volumes ++ kept
  needed : ∀ before last, volumes = before ++ [last] → ∀ n ∈ need, released + blocksOf before < n
  enough : kept = [] ∨ ∃ n ∈ need, n ≤ released + blocksOf volumes

theorem releaseLoop_spec (need : Option ℕ) (held : List HeldVolume) (released : ℕ) :
    ∃ volumes kept, SmallestPrefix need released held volumes kept ∧
      HeldVolumes.releaseLoop need held released =
        (itemsOf volumes, kept, released + blocksOf volumes) := by
  induction held generalizing released with
  | nil =>
    exact ⟨[], [], ⟨rfl, by simp, Or.inl rfl⟩, by simp [HeldVolumes.releaseLoop, itemsOf, blocksOf]⟩
  | cons volume rest ih =>
      simp only [HeldVolumes.releaseLoop]
      split
      next short =>
        rcases ih (released + volume.blocks) with ⟨volumes, kept, smallest, loopEq⟩
        refine ⟨volume :: volumes, kept, ⟨?_, ?_, ?_⟩, ?_⟩
        · simp [smallest.append_eq]
        · intro before last split n nMem
          have first : released < n := by
            subst nMem
            simpa using short
          rcases before with _ | ⟨head, before⟩
          · simpa [blocksOf] using first
          · simp only [List.cons_append, List.cons.injEq] at split
            have := smallest.needed before last split.2 n nMem
            rw [split.1] at this
            simpa [blocksOf, add_assoc] using this
        · rcases smallest.enough with none | ⟨n, nMem, reached⟩
          · exact Or.inl none
          · exact Or.inr ⟨n, nMem, by simpa [blocksOf, add_assoc] using reached⟩
        · simp [loopEq, itemsOf, blocksOf, add_assoc]
      next reached =>
        refine ⟨[], volume :: rest, ⟨rfl, by simp, Or.inr ?_⟩, by simp [itemsOf, blocksOf]⟩
        rcases need with _ | n
        · simp at reached
        · exact ⟨n, rfl, by simpa [blocksOf] using reached⟩

theorem releaseFor_spec (held : HeldVolumes) (need : Option ℕ) :
    ∃ volumes, SmallestPrefix need held.releasedBlocks held.held volumes
        (held.releaseFor need).2.held ∧
      (held.releaseFor need).2.releasedBlocks = held.releasedBlocks + blocksOf volumes ∧
      ((held.releaseFor need).1).getD [] = itemsOf volumes := by
  rcases releaseLoop_spec need held.held held.releasedBlocks with
    ⟨volumes, kept, smallest, loopEq⟩
  refine ⟨volumes, ?_, ?_, ?_⟩
  · simpa [HeldVolumes.releaseFor, loopEq] using smallest
  · simp [HeldVolumes.releaseFor, loopEq]
  · simp only [HeldVolumes.releaseFor, loopEq]
    split
    next empty => simp [List.isEmpty_iff.mp empty]
    · rfl

theorem releaseFor_some {held after : HeldVolumes} {need : Option ℕ} {items : List WorkItem}
    (released : held.releaseFor need = (some items, after)) : items ≠ [] := by
  rintro rfl
  simp only [HeldVolumes.releaseFor, Prod.mk.injEq] at released
  have := released.1
  split at this
  · simp at this
  next notEmpty => simp_all

/-- When no volume is without items, `release_for` returns nothing only if nothing is held or the
blocks released are enough. -/
theorem releaseFor_none {held after : HeldVolumes} {need : Option ℕ}
    (filled : ∀ volume ∈ held.held, volume.items ≠ [])
    (nothing : held.releaseFor need = (none, after)) :
    after = held ∧ (held.isEmpty = true ∨ ∃ n ∈ need, n ≤ held.releasedBlocks) := by
  rcases releaseFor_spec held need with ⟨volumes, smallest, blocks, itemsEq⟩
  rw [nothing] at smallest blocks itemsEq
  have empty : volumes = [] := by
    rw [List.eq_nil_iff_forall_not_mem]
    intro volume volumeMem
    have mem : volume ∈ held.held := by
      rw [smallest.append_eq]
      exact List.mem_append_left _ volumeMem
    have none := List.flatMap_eq_nil_iff.mp itemsEq.symm volume volumeMem
    exact filled volume mem none
  subst empty
  have sameHeld : held.held = after.held := smallest.append_eq
  have sameBlocks : after.releasedBlocks = held.releasedBlocks := by simpa [blocksOf] using blocks
  constructor
  · cases after
    cases held
    simp_all
  · rcases smallest.enough with none | ⟨n, nMem, reached⟩
    · left
      simpa [HeldVolumes.isEmpty, sameHeld] using none
    · exact Or.inr ⟨n, nMem, by simpa [blocksOf] using reached⟩

theorem releaseFor_perm (held : HeldVolumes) (need : Option ℕ) :
    ((held.releaseFor need).1).getD [] ++ (held.releaseFor need).2.items = held.items := by
  rcases releaseFor_spec held need with ⟨volumes, smallest, _, itemsEq⟩
  rw [itemsEq, HeldVolumes.items, HeldVolumes.items, smallest.append_eq]
  simp [itemsOf]

end Rustnzb.Dispatch
