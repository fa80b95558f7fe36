import Rustnzb.Core.IpNetwork

/-!
# The client behind a proxy

`forwarded_client` reads the lines of `X-Forwarded-For` from right to left. A line that is not all
visible ASCII is not read at all, although its last hops may be. How the standard library reads an
address, alone or with a port, is a parameter.
-/

namespace Rustnzb.Web.ForwardedClient

open Core (IpAddr IpNetwork networkContains parseIpNetwork trim)

def comma : UInt8 := 0x2C

/-- The bytes that `HeaderValue::to_str` takes. -/
def isVisible (byte : UInt8) : Bool := (32 ≤ byte && byte < 127) || byte = 9

def charOf (byte : UInt8) : Char := Char.ofNat byte.toNat

def toStr (value : List UInt8) : Option (List Char) :=
  if value.all isVisible then some (value.map charOf) else none

/-- `str::parse` to an address and to an address with a port, of which only the address is used. -/
structure AddrParser where
  parseIp : List Char → Option IpAddr
  parseSocketAddr : List Char → Option IpAddr

/-- What the inner loop ends with: the function returns, or the next line is read. -/
inductive Walked where
  | returned (client : IpAddr)
  | next (client : IpAddr)

def Walked.client : Walked → IpAddr
  | .returned client => client
  | .next client => client

section Walk

variable (parser : AddrParser) (trusted : IpAddr → Bool)

def parseHop (hop : List Char) : Option IpAddr :=
  let hop := trim hop
  parser.parseIp hop <|> parser.parseSocketAddr hop

def walkHops (client : IpAddr) : List (List Char) → Walked
  | [] => .next client
  | hop :: rest =>
      match parseHop parser hop with
      | none => .returned client
      | some ip =>
          let client := ip.toCanonical
          if trusted client then walkHops client rest else .returned client

def walkLines (client : IpAddr) : List (List UInt8) → IpAddr
  | [] => client
  | value :: rest =>
      match toStr value with
      | none => client
      | some value =>
          match walkHops parser trusted client (value.splitOn ',').reverse with
          | .returned client => client
          | .next client => walkLines client rest

end Walk

section Proxies

variable (parser : AddrParser) (trustedProxies : List String)

def networks : List IpNetwork :=
  trustedProxies.filterMap fun entry => parseIpNetwork parser.parseIp (trim entry.toList)

def trusted (ip : IpAddr) : Bool :=
  (networks parser trustedProxies).any fun network => networkContains network ip

def forwardedClient (peer : IpAddr) (lines : List (List UInt8)) : IpAddr :=
  let peer := peer.toCanonical
  if trusted parser trustedProxies peer then
    walkLines parser (trusted parser trustedProxies) peer lines.reverse
  else peer

end Proxies

/-! ## The hops of a header -/

def hopsOf (line : List UInt8) : List (List UInt8) := (line.splitOn comma).reverse

def hopList (lines : List (List UInt8)) : List (List UInt8) := lines.reverse.flatMap hopsOf

section Choice

variable (parser : AddrParser) (isTrusted : IpAddr → Prop)

def readHop (hop : List UInt8) : Option IpAddr := (toStr hop).bind (parseHop parser)

def TrustedHop (hop : List UInt8) : Prop :=
  ∃ ip, readHop parser hop = some ip ∧ isTrusted ip.toCanonical

def lastOf (client : IpAddr) (hops : List (List UInt8)) : IpAddr :=
  ((hops.getLast?.bind (readHop parser)).map IpAddr.toCanonical).getD client

/-- Read on from an address: the first hop that is not trusted, in canonical form, or where that
cannot be read or there is none, the address before. -/
structure Chosen (client : IpAddr) (hops : List (List UInt8)) (result : IpAddr) : Prop where
  untrusted : ∀ before hop after ip, hops = before ++ hop :: after →
    (∀ other ∈ before, TrustedHop parser isTrusted other) → readHop parser hop = some ip →
    ¬isTrusted ip.toCanonical → result = ip.toCanonical
  unread : ∀ before hop after, hops = before ++ hop :: after →
    (∀ other ∈ before, TrustedHop parser isTrusted other) → readHop parser hop = none →
    result = lastOf parser client before
  exhausted : (∀ other ∈ hops, TrustedHop parser isTrusted other) →
    result = lastOf parser client hops

def AgreeToFirst (hops other : List (List UInt8)) : Prop :=
  hops = other ∧ (∀ hop ∈ hops, TrustedHop parser isTrusted hop) ∨
    ∃ before hop after after', hops = before ++ hop :: after ∧ other = before ++ hop :: after' ∧
      (∀ earlier ∈ before, TrustedHop parser isTrusted earlier) ∧
      ¬TrustedHop parser isTrusted hop

end Choice

/-! ## Lines and hops -/

theorem charOf_eq_comma {byte : UInt8} : charOf byte = ',' ↔ byte = comma := by
  have small := byte.toNat_lt
  have valid : byte.toNat.isValidChar := Or.inl (by omega)
  have number : (charOf byte).toNat = byte.toNat := by
    rw [charOf, Char.ofNat, dif_pos valid]
    rfl
  rw [← Char.toNat_inj, number, ← UInt8.toNat_inj]
  rfl

theorem splitOn_map_charOf (line : List UInt8) :
    (line.map charOf).splitOn ',' = (line.splitOn comma).map (List.map charOf) := by
  induction line with
  | nil => rfl
  | cons byte rest ih =>
      rw [List.map_cons, List.splitOn_cons_eq_if_modifyHead, List.splitOn_cons_eq_if_modifyHead, ih]
      by_cases same : byte = comma
      · simp [same, charOf_eq_comma.mpr]
      · rw [if_neg (by simpa using charOf_eq_comma.not.mpr same), if_neg (by simpa using same)]
        obtain ⟨first, pieces, split⟩ := List.exists_cons_of_ne_nil (List.splitOn_ne_nil comma rest)
        rw [split]
        rfl

theorem all_visible_iff (line : List UInt8) :
    (∀ hop ∈ line.splitOn comma, hop.all isVisible) ↔ line.all isVisible := by
  induction line with
  | nil => simp
  | cons byte rest ih =>
      obtain ⟨first, pieces, split⟩ := List.exists_cons_of_ne_nil (List.splitOn_ne_nil comma rest)
      rw [List.splitOn_cons_eq_if_modifyHead, List.all_cons, Bool.and_eq_true, ← ih, split]
      by_cases same : byte = comma
      · have visible : isVisible comma := by decide
        simp [same, visible]
      · simp [same, and_assoc]

theorem toStr_eq_some {bytes : List UInt8} {text : List Char} :
    toStr bytes = some text ↔ bytes.all isVisible ∧ bytes.map charOf = text := by
  rw [toStr, Option.ite_none_right_eq_some, Option.some.injEq]

theorem toStr_eq_none {bytes : List UInt8} : toStr bytes = none ↔ ¬bytes.all isVisible := by
  rw [toStr, ite_eq_right_iff]
  simp

section Reading

variable {parser : AddrParser} {isTrusted : IpAddr → Prop} {client : IpAddr}

variable {line : List UInt8}

theorem hops_of_toStr {text : List Char} (read : toStr line = some text) :
    (text.splitOn ',').reverse.map (parseHop parser) = (hopsOf line).map (readHop parser) := by
  rw [toStr_eq_some] at read
  obtain ⟨visible, rfl⟩ := read
  rw [splitOn_map_charOf, hopsOf, List.map_reverse, List.map_reverse, List.map_map]
  congr 1
  refine List.map_congr_left fun hop mem => ?_
  rw [readHop, toStr_eq_some.mpr ⟨(all_visible_iff line).mpr visible hop mem, rfl⟩]
  rfl

theorem visible_of_trustedHop {hop : List UInt8} (trusted : TrustedHop parser isTrusted hop) :
    hop.all isVisible := by
  rcases trusted with ⟨ip, read, -⟩
  by_contra invisible
  rw [readHop, toStr_eq_none.mpr invisible] at read
  cases read

theorem visible_of_trusted (trusted : ∀ hop ∈ hopsOf line, TrustedHop parser isTrusted hop) :
    line.all isVisible :=
  (all_visible_iff line).mp fun hop mem => visible_of_trustedHop
    (trusted hop (List.mem_reverse.mpr mem))

/-! ## Reading on -/

def walkRead (trusted : IpAddr → Bool) (client : IpAddr) : List (Option IpAddr) → Walked
  | [] => .next client
  | none :: _ => .returned client
  | some ip :: rest =>
      if trusted ip.toCanonical then walkRead trusted ip.toCanonical rest
      else .returned ip.toCanonical

variable {trusted : IpAddr → Bool}

theorem walkHops_eq (hops : List (List Char)) :
    walkHops parser trusted client hops = walkRead trusted client (hops.map (parseHop parser)) := by
  induction hops generalizing client with
  | nil => rfl
  | cons hop rest ih =>
      rw [walkHops, List.map_cons]
      cases parseHop parser hop with
      | none => rfl
      | some ip =>
          dsimp only
          rw [walkRead, ih]

theorem walkRead_append (hops rest : List (Option IpAddr)) :
    walkRead trusted client (hops ++ rest) =
      match walkRead trusted client hops with
      | .returned client => .returned client
      | .next client => walkRead trusted client rest := by
  induction hops generalizing client with
  | nil => rfl
  | cons hop hops ih =>
      cases hop with
      | none => rfl
      | some ip =>
          rw [List.cons_append, walkRead, walkRead]
          split
          · exact ih
          · rfl

theorem lastOf_append_singleton (hops : List (List UInt8)) {hop : List UInt8} {ip : IpAddr}
    (read : readHop parser hop = some ip) :
    lastOf parser client (hops ++ [hop]) = ip.toCanonical := by
  rw [lastOf, List.getLast?_concat, Option.bind_some, read]
  rfl

variable {hops : List (List UInt8)}

theorem walkRead_eq_next {last : IpAddr} :
    walkRead trusted client (hops.map (readHop parser)) = .next last ↔
      (∀ hop ∈ hops, TrustedHop parser (trusted ·) hop) ∧ last = lastOf parser client hops := by
  induction hops using List.reverseRecOn generalizing last with
  | nil =>
      rw [List.map_nil, walkRead, Walked.next.injEq, eq_comm]
      simp [lastOf]
  | append_singleton hops hop ih =>
      rw [List.map_append, walkRead_append, List.forall_mem_append, and_assoc]
      cases walked : walkRead trusted client (hops.map (readHop parser)) with
      | returned other =>
          dsimp only
          constructor
          · intro impossible
            cases impossible
          · rintro ⟨all, -⟩
            rw [ih.mpr ⟨all, rfl⟩] at walked
            cases walked
      | next other =>
          obtain ⟨all, rfl⟩ := ih.mp walked
          rw [and_iff_right all, List.map_cons, List.map_nil, List.forall_mem_singleton]
          dsimp only
          cases read : readHop parser hop with
          | none =>
              rw [walkRead]
              constructor
              · intro impossible
                cases impossible
              · rintro ⟨⟨ip, isRead, -⟩, -⟩
                rw [read] at isRead
                cases isRead
          | some ip =>
              rw [walkRead, walkRead, lastOf_append_singleton hops read]
              split
              next isTrusted =>
                rw [Walked.next.injEq, eq_comm]
                exact (and_iff_right ⟨ip, read, isTrusted⟩).symm
              next untrusted =>
                constructor
                · intro impossible
                  cases impossible
                · rintro ⟨⟨ip', isRead, isTrusted⟩, -⟩
                  rw [read, Option.some.injEq] at isRead
                  subst isRead
                  exact absurd isTrusted untrusted

variable {rest : List (List UInt8)}

theorem walkRead_of_trusted {before : List (List UInt8)}
    (all : ∀ other ∈ before, TrustedHop parser (trusted ·) other) :
    walkRead trusted client ((before ++ rest).map (readHop parser)) =
      walkRead trusted (lastOf parser client before) (rest.map (readHop parser)) := by
  rw [List.map_append, walkRead_append, walkRead_eq_next.mpr ⟨all, rfl⟩]

theorem all_or_first (meets : List UInt8 → Prop) (hops : List (List UInt8)) :
    (∀ hop ∈ hops, meets hop) ∨ ∃ before hop after, hops = before ++ hop :: after ∧
      (∀ other ∈ before, meets other) ∧ ¬meets hop := by
  induction hops with
  | nil => exact .inl (by simp)
  | cons hop rest ih =>
      by_cases first : meets hop
      · rcases ih with all | ⟨before, later, after, rfl, all, fails⟩
        · exact .inl (List.forall_mem_cons.mpr ⟨first, all⟩)
        · have longer := List.forall_mem_cons.mpr ⟨first, all⟩
          exact .inr ⟨hop :: before, later, after, rfl, longer, fails⟩
      · exact .inr ⟨[], hop, rest, rfl, by simp, first⟩

theorem chosen_iff {result : IpAddr} :
    Chosen parser (trusted ·) client hops result ↔
      result = (walkRead trusted client (hops.map (readHop parser))).client := by
  constructor
  · intro chosen
    rcases all_or_first (TrustedHop parser (trusted ·)) hops with
      all | ⟨before, hop, after, rfl, all, fails⟩
    · rw [walkRead_eq_next.mpr ⟨all, rfl⟩]
      exact chosen.exhausted all
    · rw [walkRead_of_trusted all, List.map_cons]
      cases read : readHop parser hop with
      | none => exact chosen.unread before hop after rfl all read
      | some ip =>
          have untrusted : ¬trusted ip.toCanonical := fun isTrusted => fails ⟨ip, read, isTrusted⟩
          rw [walkRead, if_neg untrusted]
          exact chosen.untrusted before hop after ip rfl all read untrusted
  · rintro rfl
    refine ⟨?_, ?_, fun all => by rw [walkRead_eq_next.mpr ⟨all, rfl⟩]; rfl⟩
    · rintro before hop after ip rfl all read untrusted
      rw [walkRead_of_trusted all, List.map_cons, read, walkRead, if_neg untrusted]
      rfl
    · rintro before hop after rfl all read
      rw [walkRead_of_trusted all, List.map_cons, read]
      rfl

/-! ## Garbled lines -/

/-- No garbled line stops the walk short of where its hops and those before it lead to. -/
def ReadThrough (parser : AddrParser) (isTrusted : IpAddr → Prop) (client : IpAddr)
    (lines : List (List UInt8)) : Prop :=
  ∀ before garbled after, lines = before ++ garbled :: after →
    (∀ hop ∈ before.flatMap hopsOf, TrustedHop parser isTrusted hop) → toStr garbled = none →
    Chosen parser isTrusted (lastOf parser client (before.flatMap hopsOf))
      ((garbled :: after).flatMap hopsOf) (lastOf parser client (before.flatMap hopsOf))

theorem lastOf_append (client : IpAddr) (allRest : ∀ hop ∈ rest, TrustedHop parser isTrusted hop) :
    lastOf parser client (hops ++ rest) = lastOf parser (lastOf parser client hops) rest := by
  rcases List.eq_nil_or_concat rest with rfl | ⟨rest, hop, rfl⟩
  · rw [List.append_nil]
    rfl
  · rcases allRest hop (by simp) with ⟨ip, read, -⟩
    rw [List.concat_eq_append, ← List.append_assoc, lastOf_append_singleton _ read,
      lastOf_append_singleton _ read]

theorem readThrough_cons (visible : toStr line ≠ none)
    (all : ∀ hop ∈ hopsOf line, TrustedHop parser isTrusted hop) :
    ReadThrough parser isTrusted client (line :: rest) ↔
      ReadThrough parser isTrusted (lastOf parser client (hopsOf line)) rest := by
  constructor
  · rintro through before garbled after rfl allBefore isGarbled
    have chosen := through (line :: before) garbled after rfl
      (by rw [List.flatMap_cons]; exact List.forall_mem_append.mpr ⟨all, allBefore⟩) isGarbled
    rwa [List.flatMap_cons, lastOf_append client allBefore] at chosen
  · intro through before garbled after split allBefore isGarbled
    cases before with
    | nil =>
        cases split
        exact absurd isGarbled visible
    | cons first before =>
        cases split
        rw [List.flatMap_cons, List.forall_mem_append] at allBefore
        rw [List.flatMap_cons, lastOf_append client allBefore.2]
        exact through before garbled after rfl allBefore.2 isGarbled

theorem readThrough_of_stops (visible : toStr line ≠ none)
    (stops : ¬∀ hop ∈ hopsOf line, TrustedHop parser isTrusted hop) :
    ReadThrough parser isTrusted client (line :: rest) := by
  intro before garbled after split allBefore isGarbled
  cases before with
  | nil =>
      cases split
      exact absurd isGarbled visible
  | cons first before =>
      cases split
      rw [List.flatMap_cons, List.forall_mem_append] at allBefore
      exact absurd allBefore.1 stops

theorem readThrough_of_garbled (garbled : toStr line = none) :
    ReadThrough parser isTrusted client (line :: rest) ↔
      Chosen parser isTrusted client ((line :: rest).flatMap hopsOf) client := by
  constructor
  · intro through
    exact through [] line rest rfl (by simp) garbled
  · intro chosen before other after split allBefore isGarbled
    cases before with
    | nil =>
        cases split
        exact chosen
    | cons first before =>
        cases split
        rw [List.flatMap_cons, List.forall_mem_append] at allBefore
        exact absurd (visible_of_trusted allBefore.1) (toStr_eq_none.mp garbled)

theorem walkLines_chosen_iff (lines : List (List UInt8)) :
    Chosen parser (trusted ·) client (lines.flatMap hopsOf)
      (walkLines parser trusted client lines) ↔
      ReadThrough parser (trusted ·) client lines := by
  induction lines generalizing client with
  | nil =>
      rw [chosen_iff]
      constructor
      · rintro - before garbled after split
        simp at split
      · intro
        rfl
  | cons line rest ih =>
      rw [walkLines]
      cases read : toStr line with
      | none => exact (readThrough_of_garbled read).symm
      | some text =>
          have visible : toStr line ≠ none := by simp [read]
          dsimp only
          rw [walkHops_eq, hops_of_toStr read]
          cases walked : walkRead trusted client ((hopsOf line).map (readHop parser)) with
          | returned other =>
              refine iff_of_true ?_ (readThrough_of_stops visible fun all => ?_)
              · rw [chosen_iff, List.flatMap_cons, List.map_append, walkRead_append, walked]
                rfl
              · rw [walkRead_eq_next.mpr ⟨all, rfl⟩] at walked
                cases walked
          | next last =>
              obtain ⟨all, rfl⟩ := walkRead_eq_next.mp walked
              rw [readThrough_cons visible all, ← ih, chosen_iff, chosen_iff, List.flatMap_cons,
                walkRead_of_trusted all]

theorem AgreeToFirst.walkRead_client {other : List (List UInt8)}
    (agree : AgreeToFirst parser (trusted ·) hops other) :
    (walkRead trusted client (hops.map (readHop parser))).client =
      (walkRead trusted client (other.map (readHop parser))).client := by
  rcases agree with ⟨rfl, -⟩ | ⟨before, hop, after, after', rfl, rfl, all, fails⟩
  · rfl
  · rw [walkRead_of_trusted all, walkRead_of_trusted all, List.map_cons, List.map_cons]
    cases read : readHop parser hop with
    | none => rfl
    | some ip =>
        have untrusted : ¬trusted ip.toCanonical := fun isTrusted => fails ⟨ip, read, isTrusted⟩
        rw [walkRead, walkRead, if_neg untrusted, if_neg untrusted]

end Reading

/-! ## The forwarded client -/

section Forwarding

variable (parser : AddrParser) (trustedProxies : List String) (peer : IpAddr)
  (lines other : List (List UInt8))

def TrustedAddr (ip : IpAddr) : Prop :=
  ∃ entry ∈ trustedProxies, ∃ network,
    parseIpNetwork parser.parseIp (trim entry.toList) = some network ∧ Core.Within network ip

/-- The peer unless it is trusted, and else what its hops lead to. -/
structure ForwardsRight (result : IpAddr) : Prop where
  direct : ¬TrustedAddr parser trustedProxies peer.toCanonical → result = peer.toCanonical
  forwarded : TrustedAddr parser trustedProxies peer.toCanonical →
    Chosen parser (TrustedAddr parser trustedProxies) peer.toCanonical (hopList lines) result

/-- Two headers that agree up to the first hop that is not trusted forward for one client, the one
that the hops lead to. -/
def ForwardsForOne : Prop :=
  AgreeToFirst parser (TrustedAddr parser trustedProxies) (hopList lines) (hopList other) →
    forwardedClient parser trustedProxies peer lines =
        forwardedClient parser trustedProxies peer other ∧
      ForwardsRight parser trustedProxies peer lines
        (forwardedClient parser trustedProxies peer lines)

/-- No garbled line of a trusted peer stops the walk short. -/
def Readable : Prop :=
  TrustedAddr parser trustedProxies peer.toCanonical →
    ReadThrough parser (TrustedAddr parser trustedProxies) peer.toCanonical lines.reverse

variable {parser trustedProxies peer lines other}

theorem trusted_iff {ip : IpAddr} :
    trusted parser trustedProxies ip ↔ TrustedAddr parser trustedProxies ip := by
  simp only [trusted, networks, List.any_eq_true, List.mem_filterMap, Core.networkContains_iff,
    TrustedAddr]
  constructor
  · rintro ⟨network, ⟨entry, mem, isNetwork⟩, within'⟩
    exact ⟨entry, mem, network, isNetwork, within'⟩
  · rintro ⟨entry, mem, network, isNetwork, within'⟩
    exact ⟨network, ⟨entry, mem, isNetwork⟩, within'⟩

theorem trusted_eq :
    (trusted parser trustedProxies · : IpAddr → Prop) = TrustedAddr parser trustedProxies :=
  funext fun _ => propext trusted_iff

theorem forwardsRight_iff :
    ForwardsRight parser trustedProxies peer lines
      (forwardedClient parser trustedProxies peer lines) ↔
      Readable parser trustedProxies peer lines := by
  have walk := @walkLines_chosen_iff parser peer.toCanonical (trusted parser trustedProxies)
    lines.reverse
  rw [trusted_eq] at walk
  rw [forwardedClient]
  split
  next isTrusted =>
    have isAddr := trusted_iff.mp isTrusted
    constructor
    · intro right _
      exact walk.mp (right.forwarded isAddr)
    · intro readable
      exact ⟨fun notAddr => absurd isAddr notAddr, fun _ => walk.mpr (readable isAddr)⟩
  next untrusted =>
    have notAddr := trusted_iff.not.mp untrusted
    exact iff_of_true ⟨fun _ => rfl, fun isAddr => absurd isAddr notAddr⟩
      fun isAddr => absurd isAddr notAddr

theorem ForwardsRight.congr {result : IpAddr}
    (agree : AgreeToFirst parser (TrustedAddr parser trustedProxies) (hopList lines)
      (hopList other)) :
    ForwardsRight parser trustedProxies peer lines result ↔
      ForwardsRight parser trustedProxies peer other result := by
  have chosen : Chosen parser (TrustedAddr parser trustedProxies) peer.toCanonical (hopList lines)
      result ↔ Chosen parser (TrustedAddr parser trustedProxies) peer.toCanonical (hopList other)
      result := by
    rw [← trusted_eq] at agree ⊢
    rw [chosen_iff, chosen_iff, agree.walkRead_client]
  constructor
  · rintro ⟨isPeer, isChosen⟩
    exact ⟨isPeer, fun isAddr => chosen.mp (isChosen isAddr)⟩
  · rintro ⟨isPeer, isChosen⟩
    exact ⟨isPeer, fun isAddr => chosen.mpr (isChosen isAddr)⟩

theorem ForwardsRight.unique {result result' : IpAddr}
    (right : ForwardsRight parser trustedProxies peer lines result)
    (right' : ForwardsRight parser trustedProxies peer lines result') : result = result' := by
  by_cases isAddr : TrustedAddr parser trustedProxies peer.toCanonical
  · have chosen := right.forwarded isAddr
    have chosen' := right'.forwarded isAddr
    rw [← trusted_eq, chosen_iff] at chosen chosen'
    rw [chosen, chosen']
  · rw [right.direct isAddr, right'.direct isAddr]

theorem forwardsForOne_iff :
    ForwardsForOne parser trustedProxies peer lines other ↔
      (AgreeToFirst parser (TrustedAddr parser trustedProxies) (hopList lines) (hopList other) →
        Readable parser trustedProxies peer lines ∧
          Readable parser trustedProxies peer other) := by
  refine forall_congr' fun agree => ?_
  rw [← forwardsRight_iff, ← forwardsRight_iff]
  constructor
  · rintro ⟨same, right⟩
    refine ⟨right, (ForwardsRight.congr agree).mp ?_⟩
    rwa [← same]
  · rintro ⟨right, right'⟩
    exact ⟨right.unique ((ForwardsRight.congr agree).mpr right'), right⟩

end Forwarding

end Rustnzb.Web.ForwardedClient
