import Rustnzb.Web.Fetch.Blocks

/-!
# What a URL can reach

The IPv4 addresses that an IPv6 address embeds and what the settings permit. The guard sees the IPv4
address only in an address that is mapped to it.
-/

namespace Rustnzb.Web.FetchGuard

open Core (IpAddr IpNetwork networkContains parseIpNetwork toIpv4Mapped toIpv4Mapped_eq_some
  mappedV6 Within networkContains_iff trim)

/-! ## What the settings permit -/

def Special : IpAddr → Prop
  | .v4 v4 => Inside specialV4 v4
  | .v6 v6 => Inside specialV6 v6

def LocalOnly : IpAddr → Prop
  | .v4 v4 => Inside privateV4 v4
  | .v6 v6 => Inside uniqueLocalV6 v6

def Metadata : IpAddr → Prop
  | .v4 v4 => Inside metadataBlocksV4 v4
  | .v6 v6 => v6 = metadataV6

/-- The forms in which an IPv6 address embeds an IPv4 address: compatible, 6to4 and NAT64. -/
inductive EmbedsUnseen (v4 : BitVec 32) : BitVec 128 → Prop
  | compatible : EmbedsUnseen v4 (0#96 ++ v4)
  | sixToFour (rest : BitVec 80) : EmbedsUnseen v4 (0x2002#16 ++ v4 ++ rest)
  | nat64 : EmbedsUnseen v4 (0x0064FF9B0000000000000000#96 ++ v4)

inductive Carries (ip : IpAddr) : IpAddr → Prop
  | itself : Carries ip ip
  | mapped (v4 : BitVec 32) : ip = .v6 (mappedV6 v4) → Carries ip (.v4 v4)
  | unseen (v4 : BitVec 32) (v6 : BitVec 128) : ip = .v6 v6 → EmbedsUnseen v4 v6 →
      Carries ip (.v4 v4)

structure Settings where
  fetchAllowPrivate : Bool
  fetchAllowedHosts : List String

section Permission

variable (parseIp : List Char → Option IpAddr) (settings : Settings)

def Settings.policy : FetchPolicy :=
  .new parseIp settings.fetchAllowPrivate settings.fetchAllowedHosts

def ListsNetwork (network : IpNetwork) : Prop :=
  ∃ entry ∈ settings.fetchAllowedHosts, trim entry.toList ≠ [] ∧
    parseIpNetwork parseIp (trim entry.toList) = some network

def Listed (ip : IpAddr) : Prop := ∃ network, ListsNetwork parseIp settings network ∧
  Within network ip

def ListsHost (host : List Char) : Prop :=
  ∃ entry ∈ settings.fetchAllowedHosts, trim entry.toList ≠ [] ∧
    parseIpNetwork parseIp (trim entry.toList) = none ∧
    normalHost (trim entry.toList) = normalHost host

def Permitted (hostListed : Prop) (ip : IpAddr) : Prop :=
  Listed parseIp settings ip ∨
    (hostListed ∧ ¬Metadata ip) ∨
    (¬Special ip ∧ (LocalOnly ip → settings.fetchAllowPrivate))

/-- What the guard does not look at: two blocks, the forms other than the mapped one, and the mapped
address where a network of IPv6 addresses lists its form. -/
inductive Overlooked (ip : IpAddr) : IpAddr → Prop
  | block (v6 : BitVec 128) : ip = .v6 v6 → Inside overlookedV6 v6 → Overlooked ip ip
  | mapped (v4 : BitVec 32) (net : BitVec 128) (bits : ℕ) (fits : bits ≤ 128) :
      ip = .v6 (mappedV6 v4) → ListsNetwork parseIp settings ⟨.v6 net, bits, fits⟩ →
      Within ⟨.v6 net, bits, fits⟩ ip → Overlooked ip (.v4 v4)
  | unseen (v4 : BitVec 32) (v6 : BitVec 128) : ip = .v6 v6 → EmbedsUnseen v4 v6 →
      Overlooked ip (.v4 v4)

variable {parseIp settings} {hostListed : Prop} {ip addr : IpAddr}

/-! ## What the guard lets through -/

section Policy

variable {policy : FetchPolicy} {entry : String} {entries : List String}

theorem mem_networks_addEntry {network : IpNetwork} :
    network ∈ (policy.addEntry parseIp entry).allowedNetworks ↔
      network ∈ policy.allowedNetworks ∨ trim entry.toList ≠ [] ∧
        parseIpNetwork parseIp (trim entry.toList) = some network := by
  rw [FetchPolicy.addEntry]
  split
  next blank => simp [blank]
  next given =>
    split
    next network' isNetwork => simp [given, isNetwork, eq_comm]
    next isHost => simp [isHost]

theorem mem_hostnames_addEntry {host : String} :
    host ∈ (policy.addEntry parseIp entry).allowedHostnames ↔
      host ∈ policy.allowedHostnames ∨ trim entry.toList ≠ [] ∧
        parseIpNetwork parseIp (trim entry.toList) = none ∧
        normalHost (trim entry.toList) = host := by
  rw [FetchPolicy.addEntry]
  split
  next blank => simp [blank]
  next given =>
    split
    next network isNetwork => simp [isNetwork]
    next isHost => simp [given, isHost, eq_comm]

theorem allowPrivate_addEntry :
    (policy.addEntry parseIp entry).allowPrivate = policy.allowPrivate := by
  rw [FetchPolicy.addEntry]
  split
  · rfl
  · split <;> rfl

theorem mem_networks_foldl {network : IpNetwork} :
    network ∈ (entries.foldl (FetchPolicy.addEntry parseIp) policy).allowedNetworks ↔
      network ∈ policy.allowedNetworks ∨ ∃ entry ∈ entries, trim entry.toList ≠ [] ∧
        parseIpNetwork parseIp (trim entry.toList) = some network := by
  induction entries generalizing policy with
  | nil => simp
  | cons first rest ih =>
      simp only [List.foldl_cons, ih, mem_networks_addEntry, or_assoc, List.mem_cons,
        exists_eq_or_imp]

theorem mem_hostnames_foldl {host : String} :
    host ∈ (entries.foldl (FetchPolicy.addEntry parseIp) policy).allowedHostnames ↔
      host ∈ policy.allowedHostnames ∨ ∃ entry ∈ entries, trim entry.toList ≠ [] ∧
        parseIpNetwork parseIp (trim entry.toList) = none ∧
        normalHost (trim entry.toList) = host := by
  induction entries generalizing policy with
  | nil => simp
  | cons first rest ih =>
      simp only [List.foldl_cons, ih, mem_hostnames_addEntry, or_assoc, List.mem_cons,
        exists_eq_or_imp]

theorem allowPrivate_foldl :
    (entries.foldl (FetchPolicy.addEntry parseIp) policy).allowPrivate = policy.allowPrivate := by
  induction entries generalizing policy with
  | nil => rfl
  | cons first rest ih => rw [List.foldl_cons, ih, allowPrivate_addEntry]

theorem mem_policy_networks {network : IpNetwork} :
    network ∈ (settings.policy parseIp).allowedNetworks ↔
      ListsNetwork parseIp settings network := by
  rw [Settings.policy, FetchPolicy.new, mem_networks_foldl]
  exact or_iff_right List.not_mem_nil

theorem policy_allowPrivate :
    (settings.policy parseIp).allowPrivate = settings.fetchAllowPrivate :=
  allowPrivate_foldl

theorem hostIsListed_iff {host : List Char} :
    (settings.policy parseIp).hostIsListed host ↔ ListsHost parseIp settings host := by
  rw [FetchPolicy.hostIsListed, decide_eq_true_eq, Settings.policy, FetchPolicy.new,
    mem_hostnames_foldl]
  exact or_iff_right List.not_mem_nil

theorem any_networkContains_iff :
    ((settings.policy parseIp).allowedNetworks.any fun network => networkContains network ip) ↔
      Listed parseIp settings ip := by
  simp only [List.any_eq_true, networkContains_iff, mem_policy_networks, Listed]

theorem ipIsExplicitlyAllowed_iff :
    (settings.policy parseIp).ipIsExplicitlyAllowed ip ↔ Listed parseIp settings ip :=
  any_networkContains_iff

end Policy

theorem permitted_v4 {v4 : BitVec 32}
    (metadata : isCloudMetadataV4 v4 → Listed parseIp settings (.v4 v4))
    (allowed : isGloballyRoutableV4 v4 ∨ Listed parseIp settings (.v4 v4) ∨
      settings.fetchAllowPrivate ∧ isPrivateLanV4 v4) :
    Permitted parseIp settings hostListed (.v4 v4) := by
  rcases allowed with routable | listed | ⟨allowPrivate, isLan⟩
  · have classes := isGloballyRoutableV4_of routable
    refine .inr (.inr ⟨classes.1, fun isLocal => ?_⟩)
    exact absurd (inside_privateV4_iff.mp isLocal) classes.2
  · exact .inl listed
  · by_cases special : Inside specialV4 v4
    · exact .inl (metadata (special_of_isPrivateLanV4 isLan special))
    · exact .inr (.inr ⟨special, fun _ => allowPrivate⟩)

theorem allowed_of_ipIsAllowed (allowed : (settings.policy parseIp).ipIsAllowed ip) :
    (isCloudMetadata ip → Listed parseIp settings ip) ∧
      (isGloballyRoutable ip ∨ Listed parseIp settings ip ∨
        settings.fetchAllowPrivate ∧ isPrivateLan ip) := by
  rw [FetchPolicy.ipIsAllowed] at allowed
  split at allowed
  · have listed := ipIsExplicitlyAllowed_iff.mp allowed
    exact ⟨fun _ => listed, .inr (.inl listed)⟩
  next other =>
    rw [Bool.or_eq_true, Bool.or_eq_true, any_networkContains_iff, policy_allowPrivate,
      Bool.and_eq_true, or_assoc] at allowed
    exact ⟨fun metadata => absurd metadata other, allowed⟩

theorem listed_of_mapped {v4 : BitVec 32} (listed : Listed parseIp settings (.v6 (mappedV6 v4)))
    (seen : ¬Overlooked parseIp settings (.v6 (mappedV6 v4)) (.v4 v4)) :
    Listed parseIp settings (.v4 v4) := by
  rcases listed with ⟨⟨net | net, bits, fits⟩, lists, within'⟩
  · rcases within' with ⟨other, same, agree⟩
    have isOther := toIpv4Mapped_eq_some.mpr same
    rw [toIpv4Mapped_eq_some.mpr rfl, Option.some.injEq] at isOther
    subst isOther
    exact ⟨_, lists, agree⟩
  · exact absurd (.mapped v4 net bits fits rfl lists within') seen

theorem isCloudMetadata_mapped {v4 : BitVec 32} :
    isCloudMetadata (.v6 (mappedV6 v4)) = isCloudMetadataV4 v4 := by
  rw [isCloudMetadata, toIpv4Mapped_eq_some.mpr rfl]
  rfl

theorem permitted_of_ipIsAllowed (allowed : (settings.policy parseIp).ipIsAllowed ip)
    (carries : Carries ip addr) (seen : ¬Overlooked parseIp settings ip addr) :
    Permitted parseIp settings hostListed addr := by
  obtain ⟨metadata, allowed⟩ := allowed_of_ipIsAllowed allowed
  have mappedCase : ∀ v4, ip = .v6 (mappedV6 v4) → ¬Overlooked parseIp settings ip (.v4 v4) →
      Permitted parseIp settings hostListed (.v4 v4) := by
    rintro v4 rfl seen
    rw [isCloudMetadata_mapped] at metadata
    rw [isGloballyRoutable, isPrivateLan, toIpv4Mapped_eq_some.mpr rfl] at allowed
    refine permitted_v4 (fun isMetadata => listed_of_mapped (metadata isMetadata) seen) ?_
    rcases allowed with routable | listed | isLan
    · rw [Bool.and_eq_true] at routable
      exact .inl routable.2
    · exact .inr (.inl (listed_of_mapped listed seen))
    · exact .inr (.inr isLan)
  cases carries with
  | mapped v4 isMapped => exact mappedCase v4 isMapped seen
  | unseen v4 v6 isV6 embeds => exact absurd (.unseen v4 v6 isV6 embeds) seen
  | itself =>
      rcases ip with v4 | v6
      · exact permitted_v4 metadata allowed
      · rcases allowed with routable | listed | ⟨allowPrivate, isLan⟩
        · have classes := isGloballyRoutable_v6 routable
          refine .inr (.inr ⟨fun special => ?_, fun isLocal => absurd isLocal classes.2⟩)
          exact seen (.block v6 rfl (classes.1 special))
        · exact .inl listed
        · rw [isPrivateLan] at isLan
          cases mapped : toIpv4Mapped v6 with
          | some v4 =>
              have apart := not_inside_mappedV6 v4
              rw [← toIpv4Mapped_eq_some.mp mapped] at apart
              exact .inr (.inr ⟨apart.1, fun _ => allowPrivate⟩)
          | none =>
              rw [mapped] at isLan
              by_cases special : Inside specialV6 v6
              · have isMetadata : isCloudMetadata (.v6 v6) := by
                  rw [isCloudMetadata, mapped]
                  exact decide_eq_true (special_of_isUniqueLocal isLan special)
                exact .inl (metadata isMetadata)
              · exact .inr (.inr ⟨special, fun _ => allowPrivate⟩)

theorem permitted_of_hostListed (listed : hostListed)
    (metadata : isCloudMetadata ip → Listed parseIp settings ip) (carries : Carries ip addr)
    (seen : ¬Overlooked parseIp settings ip addr) : Permitted parseIp settings hostListed addr := by
  by_cases isMetadata : Metadata addr
  · left
    cases carries with
    | mapped v4 isMapped =>
        subst isMapped
        apply listed_of_mapped _ seen
        apply metadata
        rw [isCloudMetadata_mapped]
        exact isCloudMetadataV4_iff.mpr isMetadata
    | unseen v4 v6 isV6 embeds => exact absurd (.unseen v4 v6 isV6 embeds) seen
    | itself =>
        apply metadata
        rcases ip with v4 | v6
        · exact isCloudMetadataV4_iff.mpr isMetadata
        · have isService : v6 = metadataV6 := isMetadata
          subst isService
          decide
  · exact .inr (.inl ⟨listed, isMetadata⟩)

end Permission

/-! ## Plans -/

namespace Surroundings

variable (around : Surroundings)

/-- Hosts as the URL standard has them: the text of an address is read as that address, and no name
is read as one. -/
structure Standard : Prop where
  ipv4 : ∀ addr, around.parseIp (Core.unbracketed (around.hostStr (.ipv4 addr))) = some (.v4 addr)
  ipv6 : ∀ addr, around.parseIp (Core.unbracketed (around.hostStr (.ipv6 addr))) = some (.v6 addr)
  domain : ∀ rawUrl url name, around.parse rawUrl = .ok url → url.host = some (.domain name) →
    around.parseIp (Core.unbracketed (around.hostStr (.domain name))) = none

inductive Names (rawUrl : String) : Host → IpAddr → Prop
  | ipv4 (url : Url) (addr : BitVec 32) : around.parse rawUrl = .ok url →
      url.host = some (.ipv4 addr) → Names rawUrl (.ipv4 addr) (.v4 addr)
  | ipv6 (url : Url) (addr : BitVec 128) : around.parse rawUrl = .ok url →
      url.host = some (.ipv6 addr) → Names rawUrl (.ipv6 addr) (.v6 addr)
  | domain (url : Url) (name : List Char) (addrs : List (IpAddr × ℕ)) (ip : IpAddr) :
      around.parse rawUrl = .ok url → url.host = some (.domain name) →
      around.lookupHost (around.hostStr (.domain name)) (url.portOrKnownDefault.getD 80) =
        .ok addrs → ip ∈ addrs.map Prod.fst → Names rawUrl (.domain name) ip

def HostListed (settings : Settings) : Host → Prop
  | .domain name => ListsHost around.parseIp settings (around.hostStr (.domain name))
  | .ipv4 _ => False
  | .ipv6 _ => False

end Surroundings

/-- A client for the plan connects to the addresses it is pinned to, and without any to the address
that the URL names; a name it would resolve anew. -/
def Connects (plan : FetchUrlPlan) (ip : IpAddr) : Prop :=
  match plan.resolvedAddrs, plan.url.host with
  | some (_, addrs), _ => ip ∈ addrs.map Prod.fst
  | none, some (.ipv4 addr) => ip = .v4 addr
  | none, some (.ipv6 addr) => ip = .v6 addr
  | none, _ => True

/-- Every address the plan connects to is permitted with the addresses it embeds, and the networks
of the settings are told by their first bits. -/
structure Guarded (around : Surroundings) (settings : Settings) (plan : FetchUrlPlan) : Prop where
  permitted : ∀ ip, Connects plan ip → ∀ host, plan.url.host = some host →
    ∀ addr, Carries ip addr →
      Permitted around.parseIp settings (around.HostListed settings host) addr
  contains : ∀ entry network, parseIpNetwork around.parseIp entry = some network →
    ∀ ip, networkContains network ip ↔ Within network ip

section Accepted

variable {around : Surroundings} {settings : Settings} {rawUrl : String} {plan : FetchUrlPlan}

theorem of_validateLiteral {policy : FetchPolicy} {url : Url} {ip : IpAddr}
    (accepted : validateLiteral policy url ip = .ok plan) :
    plan = { url := url, resolvedAddrs := none } ∧ policy.ipIsAllowed ip := by
  rw [validateLiteral] at accepted
  split at accepted
  · cases accepted
  · split at accepted
    · cases accepted
    next allowed =>
      cases accepted
      exact ⟨rfl, by simpa using allowed⟩

theorem of_validateResolved {policy : FetchPolicy} {url : Url} {host : List Char}
    {addrs : List (IpAddr × ℕ)} (accepted : validateResolved policy url host addrs = .ok plan) :
    plan = { url := url, resolvedAddrs := some (host, addrs) } ∧
      ((∀ addr ∈ addrs, policy.ipIsAllowed addr.1) ∨
        policy.hostIsListed host ∧
          ∀ addr ∈ addrs, isCloudMetadata addr.1 → policy.ipIsExplicitlyAllowed addr.1) := by
  rw [validateResolved] at accepted
  split at accepted
  · cases accepted
  · split at accepted
    · split at accepted
      · cases accepted
      next allowed =>
        cases accepted
        exact ⟨rfl, .inl (by simpa using allowed)⟩
    next listed =>
      split at accepted
      · cases accepted
      next explicit =>
        cases accepted
        exact ⟨rfl, .inr ⟨by simpa using listed, by simpa using explicit⟩⟩

def Passes (parseIp : List Char → Option IpAddr) (settings : Settings) (hostListed : Prop)
    (ip : IpAddr) : Prop :=
  (settings.policy parseIp).ipIsAllowed ip ∨
    hostListed ∧ (isCloudMetadata ip → Listed parseIp settings ip)

theorem validateInner_of_accepted
    (accepted : validateFetchUrlWith around rawUrl (settings.policy around.parseIp) = .ok plan) :
    validateInner around rawUrl (settings.policy around.parseIp) = .ok plan := by
  rw [validateFetchUrlWith] at accepted
  split at accepted
  next plan' valid =>
    cases accepted
    exact valid
  · cases accepted
  · cases accepted

structure FitsUrl (around : Surroundings) (settings : Settings) (rawUrl : String)
    (plan : FetchUrlPlan) (host : Host) : Prop where
  hasHost : plan.url.host = some host
  names : ∀ other ip, around.Names rawUrl other ip ↔ other = host ∧ Connects plan ip
  passes : ∀ ip, Connects plan ip →
    Passes around.parseIp settings (around.HostListed settings host) ip

theorem names_iff {url : Url} {host other : Host} {ip : IpAddr}
    (parsed : around.parse rawUrl = .ok url) (hasHost : url.host = some host) :
    around.Names rawUrl other ip ↔ other = host ∧
      match host with
      | .ipv4 addr => ip = .v4 addr
      | .ipv6 addr => ip = .v6 addr
      | .domain name => ∃ addrs, around.lookupHost (around.hostStr (.domain name))
          (url.portOrKnownDefault.getD 80) = .ok addrs ∧ ip ∈ addrs.map Prod.fst := by
  constructor
  · intro names
    cases names with
    | ipv4 url' addr parsed' hasHost' =>
        cases parsed.symm.trans parsed'
        cases hasHost.symm.trans hasHost'
        exact ⟨rfl, rfl⟩
    | ipv6 url' addr parsed' hasHost' =>
        cases parsed.symm.trans parsed'
        cases hasHost.symm.trans hasHost'
        exact ⟨rfl, rfl⟩
    | domain url' name addrs ip parsed' hasHost' resolved mem =>
        cases parsed.symm.trans parsed'
        cases hasHost.symm.trans hasHost'
        exact ⟨rfl, addrs, resolved, mem⟩
  · rintro ⟨rfl, reaches⟩
    cases other with
    | ipv4 addr => exact reaches ▸ .ipv4 url addr parsed hasHost
    | ipv6 addr => exact reaches ▸ .ipv6 url addr parsed hasHost
    | domain name =>
        rcases reaches with ⟨addrs, resolved, mem⟩
        exact .domain url name addrs ip parsed hasHost resolved mem

theorem fitsUrl_ipv4 {url : Url} {addr : BitVec 32} (parsed : around.parse rawUrl = .ok url)
    (hasHost : url.host = some (.ipv4 addr))
    (allowed : (settings.policy around.parseIp).ipIsAllowed (.v4 addr)) :
    FitsUrl around settings rawUrl { url := url, resolvedAddrs := none } (.ipv4 addr) where
  hasHost := hasHost
  names other ip := by
    rw [Connects, hasHost]
    exact names_iff parsed hasHost
  passes ip connects := by
    rw [Connects, hasHost] at connects
    cases connects
    exact .inl allowed

theorem fitsUrl_ipv6 {url : Url} {addr : BitVec 128} (parsed : around.parse rawUrl = .ok url)
    (hasHost : url.host = some (.ipv6 addr))
    (allowed : (settings.policy around.parseIp).ipIsAllowed (.v6 addr)) :
    FitsUrl around settings rawUrl { url := url, resolvedAddrs := none } (.ipv6 addr) where
  hasHost := hasHost
  names other ip := by
    rw [Connects, hasHost]
    exact names_iff parsed hasHost
  passes ip connects := by
    rw [Connects, hasHost] at connects
    cases connects
    exact .inl allowed

theorem fitsUrl_domain {url : Url} {name : List Char} {addrs : List (IpAddr × ℕ)}
    (parsed : around.parse rawUrl = .ok url) (hasHost : url.host = some (.domain name))
    (resolved : around.lookupHost (around.hostStr (.domain name))
      (url.portOrKnownDefault.getD 80) = .ok addrs)
    (passes : ∀ addr ∈ addrs, Passes around.parseIp settings
      (around.HostListed settings (.domain name)) addr.1) :
    FitsUrl around settings rawUrl
      { url := url, resolvedAddrs := some (around.hostStr (.domain name), addrs) }
      (.domain name) where
  hasHost := hasHost
  names other ip := by
    rw [names_iff parsed hasHost]
    simp [resolved, Connects]
  passes ip connects := by
    obtain ⟨addr, mem, rfl⟩ := List.mem_map.mp connects
    exact passes addr mem

theorem fitsUrl_of_accepted (standard : around.Standard)
    (accepted : validateFetchUrlWith around rawUrl (settings.policy around.parseIp) = .ok plan) :
    ∃ host, FitsUrl around settings rawUrl plan host := by
  have valid := validateInner_of_accepted accepted
  rw [validateInner] at valid
  split at valid
  · cases valid
  next url parsed =>
    split at valid
    · cases valid
    · split at valid
      · cases valid
      next host hasHost =>
        refine ⟨host, ?_⟩
        dsimp only at valid
        cases host with
        | ipv4 addr =>
            rw [standard.ipv4] at valid
            obtain ⟨rfl, allowed⟩ := of_validateLiteral valid
            exact fitsUrl_ipv4 parsed hasHost allowed
        | ipv6 addr =>
            rw [standard.ipv6] at valid
            obtain ⟨rfl, allowed⟩ := of_validateLiteral valid
            exact fitsUrl_ipv6 parsed hasHost allowed
        | domain name =>
            rw [standard.domain rawUrl url name parsed hasHost] at valid
            dsimp only at valid
            split at valid
            · cases valid
            next addrs resolved =>
              obtain ⟨rfl, checked⟩ := of_validateResolved valid
              refine fitsUrl_domain parsed hasHost resolved fun addr mem => ?_
              rcases checked with allowed | ⟨listed, explicit⟩
              · exact .inl (allowed addr mem)
              · refine .inr ⟨hostIsListed_iff.mp listed, fun isMetadata => ?_⟩
                exact ipIsExplicitlyAllowed_iff.mp (explicit addr mem isMetadata)

/-- A fetch is guarded unless the URL names an address that the guard overlooks, or one that embeds
an address it overlooks, and that is not permitted. -/
theorem guarded_iff (around : Surroundings) (standard : around.Standard) (settings : Settings)
    (rawUrl : String) (plan : FetchUrlPlan)
    (accepted : validateFetchUrlWith around rawUrl (settings.policy around.parseIp) = .ok plan) :
    Guarded around settings plan ↔ ∀ host ip, around.Names rawUrl host ip →
      ∀ addr, Overlooked around.parseIp settings ip addr →
        Permitted around.parseIp settings (around.HostListed settings host) addr := by
  obtain ⟨host, fits⟩ := fitsUrl_of_accepted standard accepted
  constructor
  · intro guarded other ip names addr overlooked
    obtain ⟨rfl, connects⟩ := (fits.names other ip).mp names
    apply guarded.permitted ip connects other fits.hasHost
    cases overlooked with
    | block v6 isV6 inside => exact .itself
    | mapped v4 net bits fits isMapped lists within' => exact .mapped v4 isMapped
    | unseen v4 v6 isV6 embeds => exact .unseen v4 v6 isV6 embeds
  · intro permitted
    refine ⟨fun ip connects other hasHost addr carries => ?_, fun entry network _ ip =>
      networkContains_iff network ip⟩
    cases fits.hasHost.symm.trans hasHost
    by_cases overlooked : Overlooked around.parseIp settings ip addr
    · exact permitted host ip ((fits.names host ip).mpr ⟨rfl, connects⟩) addr overlooked
    · rcases fits.passes ip connects with allowed | ⟨listed, metadata⟩
      · exact permitted_of_ipIsAllowed allowed carries overlooked
      · exact permitted_of_hostListed listed metadata carries overlooked

end Accepted

/-! ## An address behind NAT64 -/

/-- `64:ff9b::7f00:1`, which embeds 127.0.0.1. -/
def nat64Loopback : BitVec 128 := 0x0064FF9B0000000000000000#96 ++ ipv4 127 0 0 1

def nat64Text : List Char := "64:ff9b::7f00:1".toList

def nat64Url : String := "http://[64:ff9b::7f00:1]/"

/-- A library that knows this URL only and writes the other addresses as it likes. -/
def nat64Around : Surroundings where
  parse rawUrl :=
    if rawUrl = nat64Url then
      .ok { scheme := "http", host := some (.ipv6 nat64Loopback), portOrKnownDefault := some 80 }
    else .error "relative URL without a base"
  hostStr
    | .domain name => name
    | .ipv4 addr => '4' :: List.replicate addr.toNat '0'
    | .ipv6 addr =>
        if addr = nat64Loopback then '[' :: nat64Text ++ [']']
        else '6' :: List.replicate addr.toNat '0'
  parseIp text :=
    if text = nat64Text then some (.v6 nat64Loopback)
    else
      match text with
      | '4' :: rest => some (.v4 (BitVec.ofNat 32 rest.length))
      | '6' :: rest => some (.v6 (BitVec.ofNat 128 rest.length))
      | _ => none
  lookupHost _ _ := .error "failed to lookup address information"

theorem unbracketed_of_absent {first : Char} {rest : List Char} (opened : first ≠ '[')
    (closed : ∀ char ∈ first :: rest, char ≠ ']') :
    Core.unbracketed (first :: rest) = first :: rest := by
  rw [Core.unbracketed, List.dropWhile_cons_of_neg (by simpa using opened),
    List.rdropWhile_eq_self_iff]
  intro notEmpty
  simpa using closed _ (List.getLast_mem notEmpty)

theorem unbracketed_numeral {first : Char} (opened : first ≠ '[') (closed : first ≠ ']') (n : ℕ) :
    Core.unbracketed (first :: List.replicate n '0') = first :: List.replicate n '0' := by
  apply unbracketed_of_absent opened
  intro char mem
  rcases List.mem_cons.mp mem with rfl | later
  · exact closed
  · rw [List.eq_of_mem_replicate later]
    decide

theorem standard_nat64Around : nat64Around.Standard where
  ipv4 addr := by
    have other : '4' :: List.replicate addr.toNat '0' ≠ nat64Text := by
      intro same
      exact absurd (congrArg List.head? same) (show some '4' ≠ some '6' by decide)
    simp only [nat64Around, unbracketed_numeral (show '4' ≠ '[' by decide) (by decide),
      if_neg other, List.length_replicate, BitVec.ofNat_toNat, BitVec.setWidth_eq]
  ipv6 addr := by
    by_cases same : addr = nat64Loopback
    · subst same
      decide
    · have other : '6' :: List.replicate addr.toNat '0' ≠ nat64Text := by
        intro same
        have mem : '4' ∈ '6' :: List.replicate addr.toNat '0' := same ▸ by decide
        simp at mem
      simp only [nat64Around, if_neg same,
        unbracketed_numeral (show '6' ≠ '[' by decide) (by decide), if_neg other,
        List.length_replicate, BitVec.ofNat_toNat, BitVec.setWidth_eq]
  domain rawUrl url name parsed hasHost := by
    rw [nat64Around] at parsed
    dsimp only at parsed
    split at parsed
    · cases parsed
      cases hasHost
    · cases parsed

def strict : Settings where
  fetchAllowPrivate := false
  fetchAllowedHosts := []

def nat64Plan : FetchUrlPlan where
  url := { scheme := "http", host := some (.ipv6 nat64Loopback), portOrKnownDefault := some 80 }
  resolvedAddrs := none

theorem accepted_nat64 :
    validateFetchUrlWith nat64Around nat64Url (strict.policy nat64Around.parseIp) =
      .ok nat64Plan := by
  have allowed : (strict.policy nat64Around.parseIp).ipIsAllowed (.v6 nat64Loopback) := by decide
  have notMetadata : isCloudMetadata (.v6 nat64Loopback) = false := by decide
  have literal : validateLiteral (strict.policy nat64Around.parseIp) nat64Plan.url
      (.v6 nat64Loopback) = .ok nat64Plan := by
    rw [validateLiteral, allowed, notMetadata]
    rfl
  have parsed : nat64Around.parse nat64Url = .ok nat64Plan.url := by
    simp only [nat64Around, nat64Plan, if_true]
  have read := standard_nat64Around.ipv6 nat64Loopback
  have inner : validateInner nat64Around nat64Url (strict.policy nat64Around.parseIp) =
      .ok nat64Plan := by
    rw [validateInner, parsed]
    dsimp only
    rw [if_neg (by decide), nat64Plan]
    dsimp only
    rw [read]
    exact literal
  rw [validateFetchUrlWith, inner]

theorem guarded_iff_nat64 :
    Guarded nat64Around strict nat64Plan ↔ ∀ host ip, nat64Around.Names nat64Url host ip →
      ∀ addr, Overlooked nat64Around.parseIp strict ip addr →
        Permitted nat64Around.parseIp strict (nat64Around.HostListed strict host) addr :=
  guarded_iff nat64Around standard_nat64Around strict nat64Url nat64Plan accepted_nat64

theorem not_guarded_nat64 :
    validateFetchUrlWith nat64Around nat64Url (strict.policy nat64Around.parseIp) =
      .ok nat64Plan ∧ nat64Around.Standard ∧ ¬Guarded nat64Around strict nat64Plan := by
  refine ⟨accepted_nat64, standard_nat64Around, fun guarded => ?_⟩
  have permitted := guarded.permitted (.v6 nat64Loopback) rfl _ rfl (.v4 (ipv4 127 0 0 1))
    (.unseen _ _ rfl .nat64)
  rcases permitted with ⟨network, ⟨entry, mem, -⟩, -⟩ | ⟨listed, -⟩ | ⟨notSpecial, -⟩
  · cases mem
  · exact listed
  · apply notSpecial
    rw [Special, inside_specialV4_iff]
    exact .inl (by decide)

end Rustnzb.Web.FetchGuard
