import Rustnzb.Decode.SliceMap
import Rustnzb.Lib.Leaps

/-!
# The recovery packets of a volume

The repair fold looks for the recovery packets of its set in the bytes of a volume, which it does
not trust. It goes from byte to byte until it finds the magic of a packet, and from there to where
the packet says that it ends. The digest is `md5`'s, a parameter.
-/

namespace Rustnzb.Decode.RecoveryPackets

open Lib (Reaches)

def magic : Bytes := [0x50, 0x41, 0x52, 0x32, 0x00, 0x50, 0x4b, 0x54]

def typeRecovery : Bytes :=
  [0x50, 0x41, 0x52, 0x20, 0x32, 0x2e, 0x30, 0x00, 0x52, 0x65, 0x63, 0x76, 0x53, 0x6c, 0x69, 0x63]

def packetHeader : ℕ := 64

/-- `&bytes[start..stop]`, which panics outside the bytes. -/
def slice (bytes : Bytes) (start stop : ℕ) : Option Bytes :=
  if start ≤ stop ∧ stop ≤ bytes.length then some ((bytes.drop start).take (stop - start))
  else none

def fromLeBytes (bytes : Bytes) : ℕ := bytes.foldr (fun byte value => byte.toNat + 256 * value) 0

/-- The loop of `recovery_packets` from a position on, for a number of turns. It has no value where
the source reads out of bounds, or where it is not done.

The bytes are fewer than `2 ^ 64`, so a declared length that is no `usize`, or that the position
cannot be added to, ends behind the bytes, where the loop breaks as well. -/
def recoveryPacketsFrom (md5 : Bytes → Bytes) (bytes setId : Bytes) :
    ℕ → ℕ → Option (List (ℕ × Bytes))
  | 0, _ => none
  | turns + 1, pos =>
      if pos + packetHeader ≤ bytes.length then do
        if (← slice bytes pos (pos + 8)) ≠ magic then
          recoveryPacketsFrom md5 bytes setId turns (pos + 1)
        else
          let len := fromLeBytes (← slice bytes (pos + 8) (pos + 16))
          let stop := pos + len
          if len < packetHeader ∨ ¬4 ∣ len ∨ bytes.length < stop then
            some []
          else
            let packet ← slice bytes pos stop
            let digest ← slice packet 16 32
            let body ← slice packet 32 packet.length
            if md5 body ≠ digest then
              recoveryPacketsFrom md5 bytes setId turns stop
            else
              let id ← slice packet 32 48
              let kind ← slice packet 48 64
              if id = setId ∧ kind = typeRecovery ∧ packetHeader + 4 ≤ packet.length then
                let exponent := fromLeBytes (← slice packet 64 68)
                let data ← slice packet 68 packet.length
                let others ← recoveryPacketsFrom md5 bytes setId turns stop
                some ((exponent, data) :: others)
              else
                recoveryPacketsFrom md5 bytes setId turns stop
      else
        some []

/-- `recovery_packets`. Every turn goes at least one byte further. -/
def recoveryPackets (md5 : Bytes → Bytes) (bytes setId : Bytes) : Option (List (ℕ × Bytes)) :=
  recoveryPacketsFrom md5 bytes setId (bytes.length + 1) 0

/-! ### Packets -/

def field (bytes : Bytes) (pos offset len : ℕ) : Bytes := (bytes.drop (pos + offset)).take len

def declared (bytes : Bytes) (pos : ℕ) : ℕ := fromLeBytes (field bytes pos 8 8)

variable (md5 : Bytes → Bytes) (bytes setId : Bytes)

/-- A packet starts at a position, whatever its state. -/
def HasMagic (pos : ℕ) : Prop := field bytes pos 0 8 = magic

instance : DecidablePred (HasMagic bytes) := fun _ => inferInstanceAs (Decidable (_ = _))

/-- A declared length that a packet can have, and that the bytes have room for. -/
def Sized (pos : ℕ) : Prop :=
  packetHeader ≤ declared bytes pos ∧ 4 ∣ declared bytes pos ∧
    pos + declared bytes pos ≤ bytes.length

instance : DecidablePred (Sized bytes) := fun _ => inferInstanceAs (Decidable (_ ∧ _ ∧ _))

def Digested (pos : ℕ) : Prop :=
  md5 (field bytes pos 32 (declared bytes pos - 32)) = field bytes pos 16 16

instance : DecidablePred (Digested md5 bytes) := fun _ => inferInstanceAs (Decidable (_ = _))

/-- A well-formed packet, of whatever set and kind. -/
def Intact (pos : ℕ) : Prop := HasMagic bytes pos ∧ Sized bytes pos ∧ Digested md5 bytes pos

instance : DecidablePred (Intact md5 bytes) := fun _ => inferInstanceAs (Decidable (_ ∧ _ ∧ _))

def OfSet (pos : ℕ) : Prop :=
  field bytes pos 32 16 = setId ∧ field bytes pos 48 16 = typeRecovery ∧
    packetHeader + 4 ≤ declared bytes pos

instance : DecidablePred (OfSet bytes setId) := fun _ => inferInstanceAs (Decidable (_ ∧ _ ∧ _))

def IsRecovery (pos : ℕ) : Prop := Intact md5 bytes pos ∧ OfSet bytes setId pos

instance : DecidablePred (IsRecovery md5 bytes setId) :=
  fun _ => inferInstanceAs (Decidable (_ ∧ _))

/-- Another well-formed packet covers a position. -/
def Covered (pos : ℕ) : Prop :=
  ∃ other < pos, Intact md5 bytes other ∧ pos < other + declared bytes other

instance : DecidablePred (Covered md5 bytes) := fun pos =>
  inferInstanceAs (Decidable (∃ other < pos, _))

def packetAt (pos : ℕ) : ℕ × Bytes :=
  (fromLeBytes (field bytes pos 64 4), field bytes pos 68 (declared bytes pos - 68))

/-- The recovery packets of a set that no other packet covers, in order. -/
def exposed : List ℕ :=
  (List.range bytes.length).filter fun pos =>
    IsRecovery md5 bytes setId pos ∧ ¬Covered md5 bytes pos

/-! ### The scan -/

def next (pos : ℕ) : ℕ :=
  if HasMagic bytes pos then
    if Sized bytes pos then pos + declared bytes pos else bytes.length
  else pos + 1

/-- The packets that the loop pushes from a position on, by where they start. -/
def foundFrom : ℕ → ℕ → List ℕ
  | 0, _ => []
  | turns + 1, pos =>
      if pos + packetHeader ≤ bytes.length then
        if IsRecovery md5 bytes setId pos then pos :: foundFrom turns (next bytes pos)
        else foundFrom turns (next bytes pos)
      else []

def found : List ℕ := foundFrom md5 bytes setId (bytes.length + 1) 0

def LooksAt (pos : ℕ) : Prop := Reaches (next bytes) 0 pos

variable {md5 bytes setId} {pos turns offset len : ℕ}

theorem slice_eq {bytes : Bytes} (pos len : ℕ) (room : pos + len ≤ bytes.length) :
    slice bytes pos (pos + len) = some ((bytes.drop pos).take len) := by
  have bounds : pos ≤ pos + len ∧ pos + len ≤ bytes.length :=
    ⟨Nat.le_add_right pos len, room⟩
  rw [slice, if_pos bounds, Nat.add_sub_cancel_left]

theorem slice_packet {stop : ℕ} (room : pos + len ≤ bytes.length) (inside : offset ≤ stop)
    (bound : stop ≤ len) :
    slice (field bytes pos 0 len) offset stop = some (field bytes pos offset (stop - offset)) := by
  have long : (field bytes pos 0 len).length = len := by
    simp only [field, Nat.add_zero, List.length_take, List.length_drop]
    omega
  have bounds : offset ≤ stop ∧ stop ≤ (field bytes pos 0 len).length := by omega
  have short : min (stop - offset) (len - offset) = stop - offset := by omega
  rw [slice, if_pos bounds]
  simp only [field, Nat.add_zero, List.drop_take, List.drop_drop, List.take_take, short]

theorem HasMagic.room (hasMagic : HasMagic bytes pos) : pos + 8 ≤ bytes.length := by
  have long := congrArg List.length hasMagic
  simp only [field, Nat.add_zero, List.length_take, List.length_drop, magic, List.length_cons,
    List.length_nil] at long
  omega

theorem Sized.room (sized : Sized bytes pos) : pos + packetHeader ≤ bytes.length := by
  have header := sized.1
  have bound := sized.2.2
  omega

theorem IsRecovery.room (recovery : IsRecovery md5 bytes setId pos) :
    pos + packetHeader ≤ bytes.length :=
  recovery.1.2.1.room

theorem lt_next (bytes : Bytes) (pos : ℕ) : pos < next bytes pos := by
  unfold next
  split
  next hasMagic =>
    have room := hasMagic.room
    split
    next sized =>
      have header := sized.1
      simp only [packetHeader] at header
      omega
    · omega
  · exact Nat.lt_succ_self pos

/-! ### A turn of the loop -/

variable (room : pos + packetHeader ≤ bytes.length)

include room

theorem slice_magic : slice bytes pos (pos + 8) = some (field bytes pos 0 8) := by
  apply slice_eq pos 8
  simp only [packetHeader] at room
  omega

theorem slice_declared : slice bytes (pos + 8) (pos + 16) = some (field bytes pos 8 8) := by
  apply slice_eq (pos + 8) 8
  simp only [packetHeader] at room
  omega

theorem recoveryPacketsFrom_of_junk (junk : ¬HasMagic bytes pos) :
    recoveryPacketsFrom md5 bytes setId (turns + 1) pos =
      recoveryPacketsFrom md5 bytes setId turns (pos + 1) := by
  have noMagic : field bytes pos 0 8 ≠ magic := junk
  rw [recoveryPacketsFrom, if_pos room, slice_magic room]
  simp only [Option.bind_eq_bind, Option.bind_some, if_pos noMagic]

theorem recoveryPacketsFrom_of_refused (hasMagic : HasMagic bytes pos)
    (refused : ¬Sized bytes pos) :
    recoveryPacketsFrom md5 bytes setId (turns + 1) pos = some [] := by
  have isMagic : ¬field bytes pos 0 8 ≠ magic := not_not_intro hasMagic
  have given : fromLeBytes (field bytes pos 8 8) < packetHeader ∨
      ¬4 ∣ fromLeBytes (field bytes pos 8 8) ∨
        bytes.length < pos + fromLeBytes (field bytes pos 8 8) := by
    unfold Sized declared at refused
    omega
  rw [recoveryPacketsFrom, if_pos room, slice_magic room, slice_declared room]
  simp only [Option.bind_eq_bind, Option.bind_some, if_neg isMagic, if_pos given]

/-- The loop goes on behind a packet that it has room for, and pushes it if it is one of the
set's. -/
theorem recoveryPacketsFrom_of_sized (hasMagic : HasMagic bytes pos) (sized : Sized bytes pos) :
    recoveryPacketsFrom md5 bytes setId (turns + 1) pos =
      if IsRecovery md5 bytes setId pos then
        (recoveryPacketsFrom md5 bytes setId turns (pos + declared bytes pos)).map
          (packetAt bytes pos :: ·)
      else recoveryPacketsFrom md5 bytes setId turns (pos + declared bytes pos) := by
  have isMagic : ¬field bytes pos 0 8 ≠ magic := not_not_intro hasMagic
  have len : fromLeBytes (field bytes pos 8 8) = declared bytes pos := rfl
  have header : 64 ≤ declared bytes pos := sized.1
  have inside : pos + declared bytes pos ≤ bytes.length := sized.2.2
  have notRefused : ¬(declared bytes pos < packetHeader ∨ ¬4 ∣ declared bytes pos ∨
      bytes.length < pos + declared bytes pos) := by
    rintro (short | unaligned | beyond)
    · exact absurd sized.1 (Nat.not_le.mpr short)
    · exact unaligned sized.2.1
    · exact absurd inside (Nat.not_le.mpr beyond)
  have packet : slice bytes pos (pos + declared bytes pos) =
      some (field bytes pos 0 (declared bytes pos)) := slice_eq pos _ inside
  have long : (field bytes pos 0 (declared bytes pos)).length = declared bytes pos := by
    simp only [field, Nat.add_zero, List.length_take, List.length_drop]
    omega
  rw [recoveryPacketsFrom, if_pos room, slice_magic room, slice_declared room]
  simp only [Option.bind_eq_bind, Option.bind_some, if_neg isMagic, len, if_neg notRefused,
    packet, long]
  rw [slice_packet inside (by omega) (by omega), slice_packet inside (by omega) le_rfl,
    slice_packet inside (by omega) (by omega), slice_packet inside (by omega) (by omega)]
  simp only [Option.bind_some]
  by_cases digested : Digested md5 bytes pos
  · have same : ¬md5 (field bytes pos 32 (declared bytes pos - 32)) ≠
        field bytes pos 16 (32 - 16) := not_not_intro digested
    rw [if_neg same]
    by_cases ofSet : OfSet bytes setId pos
    · have given : field bytes pos 32 (48 - 32) = setId ∧
          field bytes pos 48 (64 - 48) = typeRecovery ∧
            packetHeader + 4 ≤ declared bytes pos := ofSet
      have recovery : IsRecovery md5 bytes setId pos := 
        ⟨⟨hasMagic, sized, digested⟩, ofSet⟩
      have larger : 68 ≤ declared bytes pos := ofSet.2.2
      rw [if_pos given, if_pos recovery, slice_packet inside (by omega) larger,
        slice_packet inside larger le_rfl]
      simp only [Option.bind_some, Option.map_eq_bind]
      rfl
    · have notRecovery : ¬IsRecovery md5 bytes setId pos := fun recovery => ofSet recovery.2
      exact (if_neg ofSet).trans (if_neg notRecovery).symm
  · have notRecovery : ¬IsRecovery md5 bytes setId pos := fun recovery => digested recovery.1.2.2
    exact (if_pos digested).trans (if_neg notRecovery).symm

omit room

/-! ### The whole scan -/

/-- The loop ends without reading out of bounds, and gives what the packets it pushes hold. -/
theorem recoveryPacketsFrom_eq (enough : bytes.length - pos < turns) :
    recoveryPacketsFrom md5 bytes setId turns pos =
      some ((foundFrom md5 bytes setId turns pos).map (packetAt bytes)) := by
  induction turns generalizing pos with
  | zero => exact absurd enough (Nat.not_lt_zero _)
  | succ turns ih =>
      by_cases room : pos + packetHeader ≤ bytes.length
      · have onward := lt_next bytes pos
        have short : pos < bytes.length := by
          simp only [packetHeader] at room
          omega
        have later := @ih (next bytes pos) (by omega)
        rw [foundFrom, if_pos room]
        by_cases hasMagic : HasMagic bytes pos
        · by_cases sized : Sized bytes pos
          · have leap : next bytes pos = pos + declared bytes pos := by
              rw [next, if_pos hasMagic, if_pos sized]
            rw [recoveryPacketsFrom_of_sized room hasMagic sized, ← leap, later]
            split
            · rfl
            · rfl
          · have leap : next bytes pos = bytes.length := by
              rw [next, if_pos hasMagic, if_neg sized]
            have notRecovery : ¬IsRecovery md5 bytes setId pos := fun recovery =>
              sized recovery.1.2.1
            have nothing : foundFrom md5 bytes setId turns bytes.length = [] := by
              cases turns with
              | zero => rfl
              | succ turns => exact if_neg (by simp [packetHeader])
            rw [recoveryPacketsFrom_of_refused room hasMagic sized, if_neg notRecovery, leap,
              nothing]
            rfl
        · have leap : next bytes pos = pos + 1 := if_neg hasMagic
          have notRecovery : ¬IsRecovery md5 bytes setId pos := fun recovery =>
            hasMagic recovery.1.1
          rw [recoveryPacketsFrom_of_junk room hasMagic, if_neg notRecovery, ← leap, later]
      · rw [recoveryPacketsFrom, foundFrom, if_neg room, if_neg room]
        rfl

theorem recoveryPackets_eq (md5 : Bytes → Bytes) (bytes setId : Bytes) :
    recoveryPackets md5 bytes setId = some ((found md5 bytes setId).map (packetAt bytes)) :=
  recoveryPacketsFrom_eq (by omega)

theorem mem_foundFrom {place : ℕ} (enough : bytes.length - pos < turns) :
    place ∈ foundFrom md5 bytes setId turns pos ↔
      Reaches (next bytes) pos place ∧ IsRecovery md5 bytes setId place := by
  induction turns generalizing pos with
  | zero => exact absurd enough (Nat.not_lt_zero _)
  | succ turns ih =>
      rw [foundFrom, Reaches.iff_eq_or]
      by_cases room : pos + packetHeader ≤ bytes.length
      · have onward := lt_next bytes pos
        have short : pos < bytes.length := by
          simp only [packetHeader] at room
          omega
        have later := @ih (next bytes pos) (by omega)
        rw [if_pos room]
        by_cases recovery : IsRecovery md5 bytes setId pos
        · rw [if_pos recovery, List.mem_cons, later]
          constructor
          · rintro (rfl | ⟨reached, isRecovery⟩)
            · exact ⟨.inl rfl, recovery⟩
            · exact ⟨.inr reached, isRecovery⟩
          · rintro ⟨rfl | reached, isRecovery⟩
            · exact .inl rfl
            · exact .inr ⟨reached, isRecovery⟩
        · rw [if_neg recovery, later]
          constructor
          · rintro ⟨reached, isRecovery⟩
            exact ⟨.inr reached, isRecovery⟩
          · rintro ⟨rfl | reached, isRecovery⟩
            · exact absurd isRecovery recovery
            · exact ⟨reached, isRecovery⟩
      · rw [if_neg room]
        constructor
        · nofun
        · rintro ⟨reached, isRecovery⟩
          have after := Reaches.le (lt_next bytes) (Reaches.iff_eq_or.mpr reached)
          have bound := isRecovery.room
          omega

theorem mem_found {place : ℕ} :
    place ∈ found md5 bytes setId ↔ LooksAt bytes place ∧ IsRecovery md5 bytes setId place :=
  mem_foundFrom (by omega)

theorem pairwise_foundFrom (enough : bytes.length - pos < turns) :
    (foundFrom md5 bytes setId turns pos).Pairwise (· < ·) := by
  induction turns generalizing pos with
  | zero => exact List.Pairwise.nil
  | succ turns ih =>
      rw [foundFrom]
      split
      next room =>
        have onward := lt_next bytes pos
        have further : bytes.length - next bytes pos < turns := by
          simp only [packetHeader] at room
          omega
        split
        · refine List.Pairwise.cons ?_ (ih further)
          intro place mem
          exact onward.trans_le (Reaches.le (lt_next bytes) ((mem_foundFrom further).mp mem).1)
        · exact ih further
      · exact List.Pairwise.nil

theorem pairwise_found : (found md5 bytes setId).Pairwise (· < ·) := pairwise_foundFrom (by omega)

theorem pairwise_exposed : (exposed md5 bytes setId).Pairwise (· < ·) :=
  List.pairwise_lt_range.filter _

theorem mem_exposed {place : ℕ} :
    place ∈ exposed md5 bytes setId ↔
      IsRecovery md5 bytes setId place ∧ ¬Covered md5 bytes place := by
  simp only [exposed, List.mem_filter, List.mem_range, decide_eq_true_eq, and_iff_right_iff_imp]
  intro shown
  have room := shown.1.room
  simp only [packetHeader] at room
  omega

/-! ### Which packets are found -/

variable (md5 bytes setId)

/-- No damaged packet that the loop trusts gives up the bytes in which an exposed packet of the set
starts: one with a length that a packet cannot have gives up all that follows, and one with a wrong
digest what it declares. -/
def NoneGivenUp : Prop :=
  ∀ damaged, LooksAt bytes damaged → HasMagic bytes damaged → ¬Intact md5 bytes damaged →
    ∀ pos ∈ exposed md5 bytes setId, damaged < pos → next bytes damaged ≤ pos

/-- The loop comes to no packet of the set that another one covers. -/
def NoneCovered : Prop :=
  ∀ pos, LooksAt bytes pos → IsRecovery md5 bytes setId pos → ¬Covered md5 bytes pos

/-- The loop ends within bounds, and what it gives is what the exposed packets of the set hold. -/
def Exact : Prop :=
  recoveryPackets md5 bytes setId = some ((found md5 bytes setId).map (packetAt bytes)) ∧
    found md5 bytes setId = exposed md5 bytes setId

variable {md5 bytes setId}

theorem Intact.covers {other : ℕ} (intact : Intact md5 bytes other) (before : other < pos)
    (leapt : pos < next bytes other) : Covered md5 bytes pos := by
  rw [next, if_pos intact.1, if_pos intact.2.1] at leapt
  exact ⟨other, before, intact, leapt⟩

theorem exposed_subset (noneGivenUp : NoneGivenUp md5 bytes setId) :
    exposed md5 bytes setId ⊆ found md5 bytes setId := by
  intro pos mem
  have shown := mem_exposed.mp mem
  rcases Reaches.or_leapt (lt_next bytes) (Nat.zero_le pos) with
    looks | ⟨damaged, looks, before, leapt⟩
  · exact mem_found.mpr ⟨looks, shown.1⟩
  · by_cases hasMagic : HasMagic bytes damaged
    · by_cases intact : Intact md5 bytes damaged
      · exact absurd (intact.covers before leapt) shown.2
      · have behind := noneGivenUp damaged looks hasMagic intact pos mem before
        omega
    · rw [next, if_neg hasMagic] at leapt
      omega

theorem found_subset (noneCovered : NoneCovered md5 bytes setId) :
    found md5 bytes setId ⊆ exposed md5 bytes setId := by
  intro pos mem
  have looked := mem_found.mp mem
  exact mem_exposed.mpr ⟨looked.2, noneCovered pos looked.1 looked.2⟩

theorem noneGivenUp_of_subset (subset : exposed md5 bytes setId ⊆ found md5 bytes setId) :
    NoneGivenUp md5 bytes setId := by
  intro damaged looks _ _ pos mem before
  exact Reaches.leap_le_of_lt (lt_next bytes) looks (mem_found.mp (subset mem)).1 before

theorem noneCovered_of_subset (subset : found md5 bytes setId ⊆ exposed md5 bytes setId) :
    NoneCovered md5 bytes setId := by
  intro pos looks recovery
  exact (mem_exposed.mp (subset (mem_found.mpr ⟨looks, recovery⟩))).2

theorem found_eq_iff :
    found md5 bytes setId = exposed md5 bytes setId ↔
      NoneGivenUp md5 bytes setId ∧ NoneCovered md5 bytes setId := by
  constructor
  · intro same
    constructor
    · exact noneGivenUp_of_subset fun _ mem => same ▸ mem
    · exact noneCovered_of_subset fun _ mem => same ▸ mem
  · rintro ⟨noneGivenUp, noneCovered⟩
    apply List.Pairwise.eq_of_mem_iff pairwise_found pairwise_exposed
    intro pos
    exact ⟨fun mem => found_subset noneCovered mem, fun mem => exposed_subset noneGivenUp mem⟩

theorem found_eq_of_length (among : NoneGivenUp md5 bytes setId ∨ NoneCovered md5 bytes setId)
    (length : (found md5 bytes setId).length = (exposed md5 bytes setId).length) :
    found md5 bytes setId = exposed md5 bytes setId := by
  apply List.Pairwise.eq_of_mem_iff pairwise_found pairwise_exposed
  intro pos
  apply List.Perm.mem_iff
  rcases among with noneGivenUp | noneCovered
  · have inside := List.subperm_of_subset pairwise_exposed.nodup (exposed_subset noneGivenUp)
    exact (inside.perm_of_length_le length.le).symm
  · have inside := List.subperm_of_subset pairwise_found.nodup (found_subset noneCovered)
    exact inside.perm_of_length_le length.ge

/-- The packets of a set that no other packet covers are found exactly if no damaged packet gives
one of them up and none is found inside another. What the packets hold tells no less, unless both
happen at once. -/
theorem exact_iff (md5 : Bytes → Bytes) (bytes setId : Bytes) :
    (Exact md5 bytes setId ↔ NoneGivenUp md5 bytes setId ∧ NoneCovered md5 bytes setId) ∧
      (NoneGivenUp md5 bytes setId ∨ NoneCovered md5 bytes setId →
        (recoveryPackets md5 bytes setId =
            some ((exposed md5 bytes setId).map (packetAt bytes)) ↔
          NoneGivenUp md5 bytes setId ∧ NoneCovered md5 bytes setId)) := by
  have given := recoveryPackets_eq md5 bytes setId
  constructor
  · exact (and_iff_right given).trans found_eq_iff
  · intro among
    rw [given, Option.some_inj, ← found_eq_iff]
    constructor
    · intro same
      have length := congrArg List.length same
      rw [List.length_map, List.length_map] at length
      exact found_eq_of_length among length
    · intro same
      rw [same]

/-- A packet of the recovery of four bytes, behind a magic with a length that is not aligned. -/
def behindDamaged : Bytes :=
  magic ++ [5, 0, 0, 0, 0, 0, 0, 0] ++
    (magic ++ [72, 0, 0, 0, 0, 0, 0, 0] ++
      [27, 24, 77, 56, 63, 232, 215, 193, 46, 46, 126, 196, 131, 93, 144, 94] ++
      List.replicate 16 0 ++ typeRecovery ++ [0, 0, 0, 0] ++ [1, 2, 3, 4])

def bodyDigest (_ : Bytes) : Bytes :=
  [27, 24, 77, 56, 63, 232, 215, 193, 46, 46, 126, 196, 131, 93, 144, 94]

/-- The magic hides the packet behind it, which is found without it. -/
theorem not_exact_behindDamaged :
    recoveryPackets bodyDigest behindDamaged (List.replicate 16 0) ≠
        some ((exposed bodyDigest behindDamaged (List.replicate 16 0)).map
          (packetAt behindDamaged)) ∧
      recoveryPackets bodyDigest (behindDamaged.drop 16) (List.replicate 16 0) =
        some [(0, [1, 2, 3, 4])] := by
  decide

end Rustnzb.Decode.RecoveryPackets
