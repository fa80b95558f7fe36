import Rustnzb.Core.NzbParser
import Rustnzb.Lib.BitPrefix
import Rustnzb.Lib.Url

/-!
# Networks of addresses

An address is the number it is, of 32 or of 128 bits. How the standard library reads the text of an
address is a parameter that nothing is assumed of.
-/

namespace Rustnzb.Core

inductive IpAddr where
  | v4 (addr : BitVec 32)
  | v6 (addr : BitVec 128)
  deriving DecidableEq

/-- `::ffff:a.b.c.d` -/
def mappedV6 (v4 : BitVec 32) : BitVec 128 := 0xFFFF#96 ++ v4

def toIpv4Mapped (v6 : BitVec 128) : Option (BitVec 32) :=
  if v6.extractLsb' 32 96 = 0xFFFF#96 then some (v6.extractLsb' 0 32) else none

namespace IpAddr

def width : IpAddr → ℕ
  | .v4 _ => 32
  | .v6 _ => 128

def toCanonical : IpAddr → IpAddr
  | .v4 addr => .v4 addr
  | .v6 addr => ((toIpv4Mapped addr).map .v4).getD (.v6 addr)

end IpAddr

/-- The address and the number of its bits that count. -/
structure IpNetwork where
  addr : IpAddr
  bits : ℕ
  fits : bits ≤ addr.width
  deriving DecidableEq

/-- `trim_start_matches('[')` and `trim_end_matches(']')` -/
def unbracketed (text : List Char) : List Char := (text.dropWhile (· = '[')).rdropWhile (· = ']')

section Parsing

variable (parseIp : List Char → Option IpAddr)

def parseIpNetwork (entry : List Char) : Option IpNetwork :=
  let (addr, bits) := match Lib.splitOnce '/' entry with
    | some (addr, bits) => (addr, some bits)
    | none => (entry, none)
  (parseIp (unbracketed addr)).bind fun ip =>
    match bits with
    | some bits =>
        (parseUnsigned (2 ^ 8) (String.ofList bits)).bind fun bits =>
          if fits : bits ≤ ip.width then some ⟨ip, bits, fits⟩ else none
    | none => some ⟨ip, ip.width, le_rfl⟩

end Parsing

def checkedShl {w : ℕ} (word : BitVec w) (places : ℕ) : Option (BitVec w) :=
  if places < w then some (word <<< places) else none

def mask (w bits : ℕ) : BitVec w := (checkedShl (BitVec.allOnes w) (w - bits)).getD 0

def networkContains (network : IpNetwork) (ip : IpAddr) : Bool :=
  let seen := match network.addr, ip with
    | .v4 _, .v6 v6 => (toIpv4Mapped v6).map IpAddr.v4
    | _, ip => some ip
  match network.addr, seen with
  | .v4 net, some (.v4 ip) => net &&& mask 32 network.bits = ip &&& mask 32 network.bits
  | .v6 net, some (.v6 ip) => net &&& mask 128 network.bits = ip &&& mask 128 network.bits
  | _, _ => false

/-! ## What a network holds -/

theorem toIpv4Mapped_eq_some {v6 : BitVec 128} {v4 : BitVec 32} :
    toIpv4Mapped v6 = some v4 ↔ v6 = mappedV6 v4 := by
  rw [toIpv4Mapped, mappedV6, Option.ite_none_right_eq_some, Option.some.injEq]
  constructor
  · rintro ⟨high, rfl⟩
    rw [← high]
    exact (@BitVec.extractLsb'_append_extractLsb' 96 32 v6).symm
  · rintro rfl
    constructor
    · rw [BitVec.extractLsb'_append_eq_of_le le_rfl]
      exact BitVec.extractLsb'_eq_self
    · rw [BitVec.extractLsb'_append_eq_of_add_le le_rfl]
      exact BitVec.extractLsb'_eq_self

/-- The first bits of the address are those of the network. A network of IPv4 addresses also holds
the IPv6 addresses that these are mapped to. -/
def Within (network : IpNetwork) (ip : IpAddr) : Prop :=
  match network.addr, ip with
  | .v4 net, .v4 ip => Lib.AgreeUpTo network.bits net ip
  | .v6 net, .v6 ip => Lib.AgreeUpTo network.bits net ip
  | .v4 net, .v6 ip => ∃ v4, ip = mappedV6 v4 ∧ Lib.AgreeUpTo network.bits net v4
  | .v6 _, .v4 _ => False

theorem mask_eq (w bits : ℕ) : mask w bits = Lib.highMask w bits := by
  rw [mask, checkedShl, Lib.highMask]
  split
  · rfl
  next all =>
    rw [BitVec.shiftLeft_eq_zero (by omega)]
    rfl

theorem networkContains_iff (network : IpNetwork) (ip : IpAddr) :
    networkContains network ip ↔ Within network ip := by
  rcases network with ⟨net | net, bits, fits⟩
  · rcases ip with ip | ip
    · simp only [networkContains, Within, decide_eq_true_eq, mask_eq]
      exact Lib.and_highMask_eq_iff fits
    · simp only [networkContains, Within]
      cases mapped : toIpv4Mapped ip with
      | none =>
          simp only [Option.map_none, Bool.false_eq_true, false_iff]
          rintro ⟨v4, isMapped, -⟩
          rw [toIpv4Mapped_eq_some.mpr isMapped] at mapped
          cases mapped
      | some v4 =>
          simp only [Option.map_some, decide_eq_true_eq, mask_eq]
          refine (Lib.and_highMask_eq_iff fits).trans ?_
          constructor
          · intro agree
            exact ⟨v4, toIpv4Mapped_eq_some.mp mapped, agree⟩
          · rintro ⟨other, isMapped, agree⟩
            rw [toIpv4Mapped_eq_some.mpr isMapped, Option.some.injEq] at mapped
            exact mapped ▸ agree
  · rcases ip with ip | ip
    · simp [networkContains, Within]
    · simp only [networkContains, Within, decide_eq_true_eq, mask_eq]
      exact Lib.and_highMask_eq_iff fits

end Rustnzb.Core
