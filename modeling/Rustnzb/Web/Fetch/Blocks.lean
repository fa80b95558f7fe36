import Rustnzb.Web.Fetch.Guard

/-!
# Blocks of addresses

The classes that a fetch is kept out of, as blocks, and what the tests of the guard on octets and
segments say of them. Two blocks of IPv6 addresses are not tested for.
-/

namespace Rustnzb.Web.FetchGuard

open Core (IpAddr toIpv4Mapped mappedV6)

/-! ## Blocks of addresses -/

def Inside {w : ℕ} (blocks : List (BitVec w × ℕ)) (addr : BitVec w) : Prop :=
  ∃ block ∈ blocks, Lib.AgreeUpTo block.2 block.1 addr

/-- Loopback, this network, link-local, multicast, three for documentation, benchmarking, two that
are reserved, and the metadata services. -/
def specialV4 : List (BitVec 32 × ℕ) :=
  [(ipv4 127 0 0 0, 8), (ipv4 0 0 0 0, 8), (ipv4 169 254 0 0, 16), (ipv4 224 0 0 0, 4),
    (ipv4 192 0 2 0, 24), (ipv4 198 51 100 0, 24), (ipv4 203 0 113 0, 24), (ipv4 198 18 0 0, 15),
    (ipv4 192 0 0 0, 16), (ipv4 240 0 0 0, 4), (ipv4 169 254 169 254, 32),
    (ipv4 100 100 100 200, 32)]

def privateV4 : List (BitVec 32 × ℕ) :=
  [(ipv4 10 0 0 0, 8), (ipv4 172 16 0 0, 12), (ipv4 192 168 0 0, 16), (ipv4 100 64 0 0, 10)]

def metadataBlocksV4 : List (BitVec 32 × ℕ) :=
  [(ipv4 169 254 169 254, 32), (ipv4 100 100 100 200, 32)]

theorem inside_cons {w : ℕ} {block : BitVec w × ℕ} {blocks : List (BitVec w × ℕ)}
    {addr : BitVec w} :
    Inside (block :: blocks) addr ↔ Lib.AgreeUpTo block.2 block.1 addr ∨ Inside blocks addr := by
  simp [Inside]

theorem not_inside_nil {w : ℕ} {addr : BitVec w} : ¬Inside [] addr := by
  simp [Inside]

section Octets

variable {first second third fourth : ℕ} {v4 : BitVec 32}

theorem agreeUpTo_ipv4 {bits : ℕ} (fits : bits ≤ 32) :
    Lib.AgreeUpTo bits (ipv4 first second third fourth) v4 ↔
      (first * 2 ^ 24 + second * 2 ^ 16 + third * 2 ^ 8 + fourth) % 2 ^ 32 / 2 ^ (32 - bits) =
        v4.toNat / 2 ^ (32 - bits) := by
  rw [Lib.agreeUpTo_iff_toNat fits, ipv4, BitVec.toNat_ofNat]

theorem agree_first (isFirst : first < 256) :
    Lib.AgreeUpTo 8 (ipv4 first 0 0 0) v4 ↔ firstOctet v4 = first := by
  rw [agreeUpTo_ipv4 (by decide), firstOctet]
  omega

theorem agree_second (isFirst : first < 256) (isSecond : second < 256) :
    Lib.AgreeUpTo 16 (ipv4 first second 0 0) v4 ↔
      firstOctet v4 = first ∧ secondOctet v4 = second := by
  rw [agreeUpTo_ipv4 (by decide), firstOctet, secondOctet]
  omega

theorem agree_third (isFirst : first < 256) (isSecond : second < 256) (isThird : third < 256) :
    Lib.AgreeUpTo 24 (ipv4 first second third 0) v4 ↔
      firstOctet v4 = first ∧ secondOctet v4 = second ∧ thirdOctet v4 = third := by
  rw [agreeUpTo_ipv4 (by decide), firstOctet, secondOctet, thirdOctet]
  omega

theorem agree_all : Lib.AgreeUpTo 32 (ipv4 first second third fourth) v4 ↔
    v4 = ipv4 first second third fourth :=
  Lib.agreeUpTo_width.trans eq_comm

theorem agree_four (isFirst : first < 256) (aligned : first % 16 = 0) :
    Lib.AgreeUpTo 4 (ipv4 first 0 0 0) v4 ↔
      first ≤ firstOctet v4 ∧ firstOctet v4 ≤ first + 15 := by
  rw [agreeUpTo_ipv4 (by decide), firstOctet]
  omega

theorem agree_fifteen (isFirst : first < 256) (isSecond : second < 256) (aligned : second % 2 = 0) :
    Lib.AgreeUpTo 15 (ipv4 first second 0 0) v4 ↔
      firstOctet v4 = first ∧ second ≤ secondOctet v4 ∧ secondOctet v4 ≤ second + 1 := by
  rw [agreeUpTo_ipv4 (by decide), firstOctet, secondOctet]
  omega

theorem agree_twelve (isFirst : first < 256) (isSecond : second < 256) (aligned : second % 16 = 0) :
    Lib.AgreeUpTo 12 (ipv4 first second 0 0) v4 ↔
      firstOctet v4 = first ∧ second ≤ secondOctet v4 ∧ secondOctet v4 ≤ second + 15 := by
  rw [agreeUpTo_ipv4 (by decide), firstOctet, secondOctet]
  omega

theorem agree_ten (isFirst : first < 256) (isSecond : second < 256) (aligned : second % 64 = 0) :
    Lib.AgreeUpTo 10 (ipv4 first second 0 0) v4 ↔
      firstOctet v4 = first ∧ second ≤ secondOctet v4 ∧ secondOctet v4 ≤ second + 63 := by
  rw [agreeUpTo_ipv4 (by decide), firstOctet, secondOctet]
  omega

theorem firstOctet_ipv4 (isFirst : first < 256) (isSecond : second < 256) (isThird : third < 256)
    (isFourth : fourth < 256) : firstOctet (ipv4 first second third fourth) = first := by
  rw [firstOctet, ipv4, BitVec.toNat_ofNat]
  omega

theorem secondOctet_ipv4 (isSecond : second < 256) (isThird : third < 256)
    (isFourth : fourth < 256) : secondOctet (ipv4 first second third fourth) = second := by
  rw [secondOctet, ipv4, BitVec.toNat_ofNat]
  omega

end Octets

section ClassesV4

variable {v4 : BitVec 32}

theorem isCloudMetadataV4_iff : isCloudMetadataV4 v4 ↔ Inside metadataBlocksV4 v4 := by
  simp [isCloudMetadataV4, metadataBlocksV4, inside_cons, not_inside_nil, agree_all]

theorem inside_privateV4_iff : Inside privateV4 v4 ↔ isPrivateLanV4 v4 := by
  simp only [privateV4, inside_cons, not_inside_nil, or_false]
  rw [agree_first (by decide), agree_twelve (by decide) (by decide) (by decide),
    agree_second (by decide) (by decide), agree_ten (by decide) (by decide) (by decide)]
  simp only [isPrivateLanV4, isPrivate, isSharedAddressSpace, Bool.or_eq_true, Bool.and_eq_true,
    decide_eq_true_eq]
  omega

theorem inside_specialV4_iff : Inside specialV4 v4 ↔
    firstOctet v4 = 127 ∨ firstOctet v4 = 0 ∨ (firstOctet v4 = 169 ∧ secondOctet v4 = 254) ∨
      (224 ≤ firstOctet v4 ∧ firstOctet v4 ≤ 239) ∨
      (firstOctet v4 = 192 ∧ secondOctet v4 = 0 ∧ thirdOctet v4 = 2) ∨
      (firstOctet v4 = 198 ∧ secondOctet v4 = 51 ∧ thirdOctet v4 = 100) ∨
      (firstOctet v4 = 203 ∧ secondOctet v4 = 0 ∧ thirdOctet v4 = 113) ∨
      (firstOctet v4 = 198 ∧ 18 ≤ secondOctet v4 ∧ secondOctet v4 ≤ 19) ∨
      (firstOctet v4 = 192 ∧ secondOctet v4 = 0) ∨
      (240 ≤ firstOctet v4 ∧ firstOctet v4 ≤ 255) ∨ Inside metadataBlocksV4 v4 := by
  rw [specialV4, inside_cons, inside_cons, inside_cons, inside_cons, inside_cons, inside_cons,
    inside_cons, inside_cons, inside_cons, inside_cons, ← metadataBlocksV4,
    agree_first (by decide), agree_first (by decide), agree_second (by decide) (by decide),
    agree_four (by decide) (by decide), agree_third (by decide) (by decide) (by decide),
    agree_third (by decide) (by decide) (by decide),
    agree_third (by decide) (by decide) (by decide),
    agree_fifteen (by decide) (by decide) (by decide), agree_second (by decide) (by decide),
    agree_four (by decide) (by decide)]

theorem octets_of_metadata (metadata : Inside metadataBlocksV4 v4) :
    (firstOctet v4 = 169 ∧ secondOctet v4 = 254) ∨
      (firstOctet v4 = 100 ∧ secondOctet v4 = 100) := by
  rw [metadataBlocksV4, inside_cons, inside_cons, agree_all, agree_all] at metadata
  rcases metadata with rfl | rfl | none
  · exact .inl ⟨firstOctet_ipv4 (by decide) (by decide) (by decide) (by decide),
      secondOctet_ipv4 (by decide) (by decide) (by decide)⟩
  · exact .inr ⟨firstOctet_ipv4 (by decide) (by decide) (by decide) (by decide),
      secondOctet_ipv4 (by decide) (by decide) (by decide)⟩
  · exact absurd none not_inside_nil

theorem isGloballyRoutableV4_of (routable : isGloballyRoutableV4 v4) :
    ¬Inside specialV4 v4 ∧ ¬isPrivateLanV4 v4 := by
  simp only [isGloballyRoutableV4, isLoopback, isLinkLocal, isDocumentation, Bool.and_eq_true,
    Bool.not_eq_true', Bool.or_eq_false_iff, Bool.and_eq_false_iff,
    decide_eq_false_iff_not] at routable
  obtain ⟨⟨⟨⟨⟨⟨⟨⟨⟨⟨⟨thisNetwork, loopback⟩, isPrivate⟩, linkLocal⟩, -⟩, -⟩, documentation⟩, shared⟩,
    benchmarking⟩, zeroBlock⟩, multicast⟩, futureUse⟩ := routable
  constructor
  · intro special
    rw [inside_specialV4_iff] at special
    rcases special with isLoopback | isThis | isLocal | isMulticast | isDoc | isDoc | isDoc |
      isBenchmarking | isZero | isFuture | metadata
    · exact loopback isLoopback
    · exact thisNetwork isThis
    -- each block is told by one of the tests, and the rest of the context is in the way
    · clear * - isLocal linkLocal
      omega
    · clear * - isMulticast multicast
      omega
    iterate 3
      · clear * - isDoc documentation
        omega
    · clear * - isBenchmarking benchmarking
      omega
    · clear * - isZero zeroBlock
      omega
    · clear * - isFuture futureUse
      omega
    · rcases octets_of_metadata metadata with isLocal | isShared
      · clear * - isLocal linkLocal
        omega
      · simp only [isSharedAddressSpace, Bool.and_eq_false_iff, decide_eq_false_iff_not] at shared
        clear * - isShared shared
        omega
  · rw [isPrivateLanV4, isPrivate, shared]
    exact Bool.false_ne_true

theorem special_of_isPrivateLanV4 (isLan : isPrivateLanV4 v4) (special : Inside specialV4 v4) :
    isCloudMetadataV4 v4 := by
  simp only [isPrivateLanV4, isPrivate, isSharedAddressSpace, Bool.or_eq_true, Bool.and_eq_true,
    decide_eq_true_eq] at isLan
  rw [isCloudMetadataV4_iff]
  rw [inside_specialV4_iff] at special
  rcases special with isLoopback | isThis | isLocal | isMulticast | isDoc | isDoc | isDoc |
    isBenchmarking | isZero | isFuture | metadata
  case inr.inr.inr.inr.inr.inr.inr.inr.inr.inr => exact metadata
  all_goals omega

end ClassesV4

/-! ## Blocks of IPv6 addresses -/

/-- Loopback, unspecified, link-local, multicast, two for documentation, benchmarking, site-local,
which is reserved, and the metadata service. -/
def specialV6 : List (BitVec 128 × ℕ) :=
  [(1#128, 128), (0#128, 128), (ipv6 0xFE80 0 0, 10), (ipv6 0xFF00 0 0, 8),
    (ipv6 0x2001 0x0DB8 0, 32), (ipv6 0x3FFF 0 0, 20), (ipv6 0x2001 2 0, 48), (ipv6 0xFEC0 0 0, 10),
    (metadataV6, 128)]

def overlookedV6 : List (BitVec 128 × ℕ) := [(ipv6 0x3FFF 0 0, 20), (ipv6 0x2001 2 0, 48)]

def uniqueLocalV6 : List (BitVec 128 × ℕ) := [(ipv6 0xFC00 0 0, 7)]

section ClassesV6

variable {v6 : BitVec 128}

theorem toNat_appended {m n : ℕ} (high : BitVec m) (low : BitVec n) :
    (high ++ low).toNat = high.toNat * 2 ^ n + low.toNat := by
  rw [BitVec.toNat_append, ← Nat.shiftLeft_add_eq_or_of_lt low.isLt, Nat.shiftLeft_eq]

theorem toNat_ipv6 (first second third : BitVec 16) : (ipv6 first second third).toNat =
    first.toNat * 2 ^ 112 + second.toNat * 2 ^ 96 + third.toNat * 2 ^ 80 := by
  rw [ipv6, toNat_appended, toNat_appended, toNat_appended]
  simp only [BitVec.toNat_ofNat]
  omega

theorem toNat_firstSegment : (firstSegment v6).toNat = v6.toNat / 2 ^ 112 := by
  have small := v6.isLt
  rw [firstSegment, BitVec.extractLsb'_toNat, Nat.shiftRight_eq_div_pow]
  omega

theorem agree_firstSegment {first second third : BitVec 16} {bits : ℕ} (fits : bits ≤ 16) :
    Lib.AgreeUpTo bits (ipv6 first second third) v6 ↔
      first.toNat / 2 ^ (16 - bits) = (firstSegment v6).toNat / 2 ^ (16 - bits) := by
  have split : 2 ^ (128 - bits) = 2 ^ 112 * 2 ^ (16 - bits) := by
    rw [← pow_add]
    congr 1
    omega
  have second_lt := second.isLt
  have third_lt := third.isLt
  have high : (ipv6 first second third).toNat / 2 ^ 112 = first.toNat := by
    rw [toNat_ipv6]
    omega
  rw [Lib.agreeUpTo_iff_toNat (by omega), split, ← Nat.div_div_eq_div_mul, high,
    ← Nat.div_div_eq_div_mul, toNat_firstSegment]

theorem masked_firstSegment {first : BitVec 16} {bits : ℕ} (fits : bits ≤ 16)
    (aligned : first &&& Lib.highMask 16 bits = first) :
    firstSegment v6 &&& Lib.highMask 16 bits = first ↔ Lib.AgreeUpTo bits (ipv6 first 0 0) v6 := by
  rw [agree_firstSegment fits, ← Lib.agreeUpTo_iff_toNat fits, ← Lib.and_highMask_eq_iff fits,
    aligned, eq_comm]

theorem isUniqueLocal_iff : isUniqueLocal v6 ↔ Inside uniqueLocalV6 v6 := by
  rw [isUniqueLocal, decide_eq_true_eq, uniqueLocalV6, inside_cons, or_iff_left not_inside_nil]
  exact @masked_firstSegment v6 0xFC00 7 (by decide) (by decide)

theorem agree_segments {first second third : BitVec 16} :
    Lib.AgreeUpTo 32 (ipv6 first second third) v6 ↔
      firstSegment v6 = first ∧ secondSegment v6 = second := by
  have small := v6.isLt
  have second_lt := second.isLt
  have third_lt := third.isLt
  have isSecond : (secondSegment v6).toNat = v6.toNat / 2 ^ 96 % 2 ^ 16 := by
    rw [secondSegment, BitVec.extractLsb'_toNat, Nat.shiftRight_eq_div_pow]
  rw [Lib.agreeUpTo_iff_toNat (by decide), toNat_ipv6, ← BitVec.toNat_inj, ← BitVec.toNat_inj,
    toNat_firstSegment, isSecond]
  omega

theorem inside_specialV6_iff : Inside specialV6 v6 ↔
    v6 = 1#128 ∨ v6 = 0#128 ∨ firstSegment v6 &&& 0xFFC0#16 = 0xFE80#16 ∨ isMulticastV6 v6 ∨
      (firstSegment v6 = 0x2001#16 ∧ secondSegment v6 = 0x0DB8#16) ∨
      Inside overlookedV6 v6 ∨ firstSegment v6 &&& 0xFFC0#16 = 0xFEC0#16 ∨ v6 = metadataV6 := by
  have linkLocal : firstSegment v6 &&& 0xFFC0#16 = 0xFE80#16 ↔
      Lib.AgreeUpTo 10 (ipv6 0xFE80 0 0) v6 :=
    @masked_firstSegment v6 0xFE80 10 (by decide) (by decide)
  have multicast : firstSegment v6 &&& 0xFF00#16 = 0xFF00#16 ↔
      Lib.AgreeUpTo 8 (ipv6 0xFF00 0 0) v6 :=
    @masked_firstSegment v6 0xFF00 8 (by decide) (by decide)
  have siteLocal : firstSegment v6 &&& 0xFFC0#16 = 0xFEC0#16 ↔
      Lib.AgreeUpTo 10 (ipv6 0xFEC0 0 0) v6 :=
    @masked_firstSegment v6 0xFEC0 10 (by decide) (by decide)
  rw [specialV6, inside_cons, inside_cons, inside_cons, inside_cons, inside_cons, inside_cons,
    inside_cons, inside_cons, inside_cons, overlookedV6, inside_cons, inside_cons,
    Lib.agreeUpTo_width, Lib.agreeUpTo_width, Lib.agreeUpTo_width, agree_segments, ← linkLocal,
    ← multicast, ← siteLocal, isMulticastV6, decide_eq_true_eq, @eq_comm _ 1#128, @eq_comm _ 0#128,
    @eq_comm _ metadataV6, or_iff_left not_inside_nil, or_iff_left not_inside_nil, or_assoc]
  exact Iff.rfl

theorem isUniqueLocal_metadataV6 : isUniqueLocal metadataV6 := by decide

theorem isGloballyRoutable_v6 (routable : isGloballyRoutable (.v6 v6)) :
    (Inside specialV6 v6 → Inside overlookedV6 v6) ∧ ¬Inside uniqueLocalV6 v6 := by
  simp only [isGloballyRoutable, Bool.and_eq_true, Bool.not_eq_true', decide_eq_true_eq,
    decide_eq_false_iff_not, Bool.and_eq_false_iff] at routable
  obtain ⟨⟨⟨⟨⟨⟨⟨loopback, unspecified⟩, multicast⟩, uniqueLocal⟩, linkLocal⟩, siteLocal⟩,
    documentation⟩, -⟩ := routable
  constructor
  · intro special
    rw [inside_specialV6_iff] at special
    rcases special with isLoopback | isUnspecified | isLocal | isMulticast | isDoc | overlooked |
      isSite | rfl
    · exact absurd isLoopback loopback
    · exact absurd isUnspecified unspecified
    · exact absurd isLocal linkLocal
    · rw [multicast] at isMulticast
      cases isMulticast
    · rcases documentation with other | other
      · exact absurd isDoc.1 other
      · exact absurd isDoc.2 other
    · exact overlooked
    · exact absurd isSite siteLocal
    · rw [isUniqueLocal_metadataV6] at uniqueLocal
      cases uniqueLocal
  · rw [← isUniqueLocal_iff, uniqueLocal]
    exact Bool.false_ne_true

theorem agree_apart {first second third : BitVec 16} {bits : ℕ} (le : 7 ≤ bits)
    (other : first.toNat / 2 ^ 9 ≠ (firstSegment v6).toNat / 2 ^ 9) :
    ¬Lib.AgreeUpTo bits (ipv6 first second third) v6 :=
  fun agree => other ((agree_firstSegment (by decide)).mp (agree.mono le))

theorem toNat_mappedV6 (v4 : BitVec 32) : (mappedV6 v4).toNat = 0xFFFF * 2 ^ 32 + v4.toNat := by
  rw [mappedV6, toNat_appended]
  rfl

theorem not_inside_mappedV6 (v4 : BitVec 32) :
    ¬Inside specialV6 (mappedV6 v4) ∧ ¬Inside uniqueLocalV6 (mappedV6 v4) := by
  have small := v4.isLt
  have isNumber := toNat_mappedV6 v4
  have range : 0 = (firstSegment (mappedV6 v4)).toNat / 2 ^ 9 := by
    rw [toNat_firstSegment]
    omega
  have apart : ∀ {first second third : BitVec 16} {bits : ℕ}, 7 ≤ bits →
      first.toNat / 2 ^ 9 ≠ 0 → ¬Lib.AgreeUpTo bits (ipv6 first second third) (mappedV6 v4) :=
    fun le other => agree_apart le (range ▸ other)
  have one : ¬(1#128 = mappedV6 v4) := by
    intro same
    rw [← same] at isNumber
    simp only [BitVec.toNat_ofNat] at isNumber
    omega
  have zero : ¬(0#128 = mappedV6 v4) := by
    intro same
    rw [← same] at isNumber
    simp only [BitVec.toNat_ofNat] at isNumber
    omega
  have metadata : ¬(metadataV6 = mappedV6 v4) := by
    intro same
    rw [← same] at range
    exact absurd range (by decide)
  constructor
  · rw [specialV6, inside_cons, inside_cons, inside_cons, inside_cons, inside_cons, inside_cons,
      inside_cons, inside_cons, inside_cons, Lib.agreeUpTo_width, Lib.agreeUpTo_width,
      Lib.agreeUpTo_width]
    simp only [one, zero, metadata, not_inside_nil, false_or, or_false, not_or]
    exact ⟨apart (by decide) (by decide), apart (by decide) (by decide),
      apart (by decide) (by decide), apart (by decide) (by decide), apart (by decide) (by decide),
      apart (by decide) (by decide)⟩
  · rw [uniqueLocalV6, inside_cons, or_iff_left not_inside_nil]
    exact apart (by decide) (by decide)

theorem special_of_isUniqueLocal (isLocal : isUniqueLocal v6) (special : Inside specialV6 v6) :
    v6 = metadataV6 := by
  have range : 126 = (firstSegment v6).toNat / 2 ^ 9 := by
    rw [isUniqueLocal_iff, uniqueLocalV6, inside_cons, or_iff_left not_inside_nil] at isLocal
    exact (agree_firstSegment (by decide)).mp isLocal
  have apart : ∀ {first second third : BitVec 16} {bits : ℕ}, 7 ≤ bits →
      first.toNat / 2 ^ 9 ≠ 126 → ¬Lib.AgreeUpTo bits (ipv6 first second third) v6 :=
    fun le other => agree_apart le (range ▸ other)
  rw [specialV6, inside_cons, inside_cons, inside_cons, inside_cons, inside_cons, inside_cons,
    inside_cons, inside_cons, inside_cons, Lib.agreeUpTo_width, Lib.agreeUpTo_width,
    Lib.agreeUpTo_width] at special
  rcases special with rfl | rfl | inside | inside | inside | inside | inside | inside | rfl | none
  · exact absurd range (by decide)
  · exact absurd range (by decide)
  · exact absurd inside (apart (by decide) (by decide))
  · exact absurd inside (apart (by decide) (by decide))
  · exact absurd inside (apart (by decide) (by decide))
  · exact absurd inside (apart (by decide) (by decide))
  · exact absurd inside (apart (by decide) (by decide))
  · exact absurd inside (apart (by decide) (by decide))
  · rfl
  · exact absurd none not_inside_nil

end ClassesV6

end Rustnzb.Web.FetchGuard
