import Rustnzb.Web.Auth.ForwardedClient
import Rustnzb.Web.Auth.LoginThrottle

/-!
# The bucket of a failed login

A failed login is counted for the client that the headers name, and what it is held for depends on
that client alone. A garbled line keeps a proxy's own bucket although the hop that counts can be
read.
-/

namespace Rustnzb.Web.FailedLogins

open Core (IpAddr)
open ForwardedClient (AddrParser AgreeToFirst ForwardsForOne Readable TrustedAddr forwardedClient
  forwardsForOne_iff hopList trusted_iff)

def delayAfter (baseDelay : ℕ) (before : List Event) (client : Option IpAddr) (now : ℕ) : ℕ :=
  ((after baseDelay before).recordFailure client now).1

/-- The calls come in the order of their times, and the table is never too small. -/
structure InOrder (events : List Event) : Prop where
  ordered : (failureTimes events).Pairwise (· ≤ ·)
  load : UnderLoad events

structure CountsByClient (baseDelay : ℕ) (events : List Event) : Prop where
  delay : ∀ before client now rest, events = before ++ .failure client now :: rest →
    delayAfter baseDelay before client now =
      min (baseDelay * 2 ^ min (failures client before now - 1) 16) failureMaxDelay
  capped : failureMaxDelay ≤ baseDelay * 2 ^ 16 →
    ∀ before client now rest, events = before ++ .failure client now :: rest →
      delayAfter baseDelay before client now =
        min (baseDelay * 2 ^ (failures client before now - 1)) failureMaxDelay
  ownEventsOnly : ∀ before client now rest, events = before ++ .failure client now :: rest →
    ∀ others before' client' rest', others = before' ++ .failure client' now :: rest' →
      InOrder others → SameClient client client' →
      ownEvents (clientKey client) before = ownEvents (clientKey client) before' →
      delayAfter baseDelay before client now = delayAfter baseDelay before' client' now
  keys : ∀ client other, clientKey client = clientKey other ↔ SameClient client other

/-- Neither the headers behind the first untrusted hop nor other clients decide about a delay. -/
structure BucketsKept (parser : AddrParser) (trustedProxies : List String) (peer : IpAddr)
    (lines other : List (List UInt8)) (baseDelay : ℕ) (events : List Event) : Prop where
  forwards : ForwardsForOne parser trustedProxies peer lines other
  counts : InOrder events → CountsByClient baseDelay events

theorem min_doublings {baseDelay : ℕ} (reaches : failureMaxDelay ≤ baseDelay * 2 ^ 16) (k : ℕ) :
    min (baseDelay * 2 ^ min k 16) failureMaxDelay = min (baseDelay * 2 ^ k) failureMaxDelay := by
  rcases le_total k 16 with le | ge
  · rw [min_eq_left le]
  · have more : baseDelay * 2 ^ 16 ≤ baseDelay * 2 ^ k :=
      Nat.mul_le_mul_left _ (Nat.pow_le_pow_right (by decide) ge)
    rw [min_eq_right ge, min_eq_right reaches, min_eq_right (reaches.trans more)]

theorem countsByClient {events : List Event} (inOrder : InOrder events) (baseDelay : ℕ) :
    CountsByClient baseDelay events where
  delay before client now rest split := delay_in_run split inOrder.ordered inOrder.load
  capped reaches before client now rest split := by
    rw [← min_doublings reaches]
    exact delay_in_run split inOrder.ordered inOrder.load
  ownEventsOnly before client now rest split others before' client' rest' split' inOrder' same own
      := by
    rw [delayAfter, delayAfter, delay_in_run split inOrder.ordered inOrder.load,
      delay_in_run split' inOrder'.ordered inOrder'.load, failures, failures, own,
      clientKey_eq_iff.mpr same]
  keys client other := clientKey_eq_iff

/-- Clients keep their buckets unless a trusted peer sends a garbled line that stops the walk short
of where its hops lead. -/
theorem bucketsKept_iff (parser : AddrParser) (trustedProxies : List String) (peer : IpAddr)
    (lines other : List (List UInt8)) (baseDelay : ℕ) (events : List Event) :
    BucketsKept parser trustedProxies peer lines other baseDelay events ↔
      (AgreeToFirst parser (TrustedAddr parser trustedProxies) (hopList lines) (hopList other) →
        Readable parser trustedProxies peer lines ∧
          Readable parser trustedProxies peer other) := by
  rw [← forwardsForOne_iff]
  constructor
  · intro kept
    exact kept.forwards
  · intro forwards
    exact ⟨forwards, fun inOrder => countsByClient inOrder baseDelay⟩

/-! ## A garbled line -/

def twoAddresses : AddrParser where
  parseIp text :=
    if text = "10.0.0.1".toList then some (.v4 0x0A000001#32)
    else if text = "9.9.9.9".toList then some (.v4 0x09090909#32)
    else none
  parseSocketAddr _ := none

def clientHop : List UInt8 := [0x39, 0x2E, 0x39, 0x2E, 0x39, 0x2E, 0x39]

/-- The client has sent one byte that is not ASCII, and the proxy appended its address. -/
theorem not_bucketsKept_garbled :
    ¬BucketsKept twoAddresses ["10.0.0.1"] (.v4 0x0A000001#32) [0xFF :: 0x2C :: clientHop]
      [clientHop] failureBaseDelay [] := by
  intro kept
  have untrusted : ¬TrustedAddr twoAddresses ["10.0.0.1"] (.v4 0x09090909#32) := by
    rw [← trusted_iff]
    decide
  have agree : AgreeToFirst twoAddresses (TrustedAddr twoAddresses ["10.0.0.1"])
      (hopList [0xFF :: 0x2C :: clientHop]) (hopList [clientHop]) := by
    refine .inr ⟨[], clientHop, [[0xFF]], [], by decide, by decide, by simp, ?_⟩
    rintro ⟨ip, read, isTrusted⟩
    have known : ForwardedClient.readHop twoAddresses clientHop = some (.v4 0x09090909#32) := by
      decide
    have isClient : ip = .v4 0x09090909#32 := by
      rw [known] at read
      exact (Option.some.inj read).symm
    subst isClient
    exact untrusted isTrusted
  have same := (kept.forwards agree).1
  exact absurd same (by decide)

end Rustnzb.Web.FailedLogins
