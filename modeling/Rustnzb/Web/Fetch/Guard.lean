import Rustnzb.Core.IpNetwork

/-!
# The fetch guard

`validate_fetch_url_with` decides which addresses a URL may be fetched from. The URL library, the
parser of addresses and what the name service answers are parameters.
-/

namespace Rustnzb.Web.FetchGuard

open Core (IpAddr IpNetwork networkContains parseIpNetwork toIpv4Mapped trim)

/-! ## Classes of addresses -/

section Ipv4

variable (v4 : BitVec 32)

def firstOctet : ℕ := v4.toNat / 2 ^ 24

def secondOctet : ℕ := v4.toNat / 2 ^ 16 % 2 ^ 8

def thirdOctet : ℕ := v4.toNat / 2 ^ 8 % 2 ^ 8

def isPrivate : Bool :=
  firstOctet v4 = 10 || (firstOctet v4 = 172 && 16 ≤ secondOctet v4 && secondOctet v4 ≤ 31) ||
    (firstOctet v4 = 192 && secondOctet v4 = 168)

def isLoopback : Bool := firstOctet v4 = 127

def isLinkLocal : Bool := firstOctet v4 = 169 && secondOctet v4 = 254

def isBroadcast : Bool := v4 = 0xFFFFFFFF#32

def isUnspecified : Bool := v4 = 0#32

def isDocumentation : Bool :=
  (firstOctet v4 = 192 && secondOctet v4 = 0 && thirdOctet v4 = 2) ||
    (firstOctet v4 = 198 && secondOctet v4 = 51 && thirdOctet v4 = 100) ||
    (firstOctet v4 = 203 && secondOctet v4 = 0 && thirdOctet v4 = 113)

def isSharedAddressSpace : Bool :=
  firstOctet v4 = 100 && 64 ≤ secondOctet v4 && secondOctet v4 ≤ 127

def isGloballyRoutableV4 : Bool :=
  let thisNetwork := firstOctet v4 = 0
  let benchmarkingSpace := firstOctet v4 = 198 && 18 ≤ secondOctet v4 && secondOctet v4 ≤ 19
  let reservedZeroBlock := firstOctet v4 = 192 && secondOctet v4 = 0
  let multicast := 224 ≤ firstOctet v4 && firstOctet v4 ≤ 239
  let reservedFutureUse := 240 ≤ firstOctet v4
  !thisNetwork && !isLoopback v4 && !isPrivate v4 && !isLinkLocal v4 && !isBroadcast v4 &&
    !isUnspecified v4 && !isDocumentation v4 && !isSharedAddressSpace v4 && !benchmarkingSpace &&
    !reservedZeroBlock && !multicast && !reservedFutureUse

def isPrivateLanV4 : Bool := isPrivate v4 || isSharedAddressSpace v4

def ipv4 (first second third fourth : ℕ) : BitVec 32 :=
  BitVec.ofNat 32 (first * 2 ^ 24 + second * 2 ^ 16 + third * 2 ^ 8 + fourth)

def isCloudMetadataV4 : Bool := v4 = ipv4 169 254 169 254 || v4 = ipv4 100 100 100 200

end Ipv4

section Ipv6

variable (v6 : BitVec 128)

def firstSegment : BitVec 16 := v6.extractLsb' 112 16

def secondSegment : BitVec 16 := v6.extractLsb' 96 16

def isMulticastV6 : Bool := firstSegment v6 &&& 0xFF00#16 = 0xFF00#16

def isUniqueLocal : Bool := firstSegment v6 &&& 0xFE00#16 = 0xFC00#16

end Ipv6

/-- The address that begins with these segments and goes on with zeros. -/
def ipv6 (first second third : BitVec 16) : BitVec 128 := first ++ second ++ third ++ 0#80

def metadataV6 : BitVec 128 := ipv6 0xFD00 0x0EC2 0 ||| 0x254#128

def isGloballyRoutable : IpAddr → Bool
  | .v4 v4 => isGloballyRoutableV4 v4
  | .v6 v6 =>
      let mappedIsGlobal := (toIpv4Mapped v6).all isGloballyRoutableV4
      !decide (v6 = 1#128) && !decide (v6 = 0#128) && !isMulticastV6 v6 && !isUniqueLocal v6 &&
        firstSegment v6 &&& 0xFFC0#16 ≠ 0xFE80#16 && firstSegment v6 &&& 0xFFC0#16 ≠ 0xFEC0#16 &&
        !(firstSegment v6 = 0x2001#16 && secondSegment v6 = 0x0DB8#16) && mappedIsGlobal

def isPrivateLan : IpAddr → Bool
  | .v4 v4 => isPrivateLanV4 v4
  | .v6 v6 => (toIpv4Mapped v6).elim (isUniqueLocal v6) isPrivateLanV4

def isCloudMetadata : IpAddr → Bool
  | .v4 v4 => isCloudMetadataV4 v4
  | .v6 v6 => (toIpv4Mapped v6).elim (v6 = metadataV6) isCloudMetadataV4

/-! ## The policy -/

/-- `trim_end_matches('.')` and `to_ascii_lowercase` -/
def normalHost (host : List Char) : String :=
  String.ofList ((host.rdropWhile (· = '.')).map Char.toLower)

structure FetchPolicy where
  allowPrivate : Bool
  allowedHostnames : List String := []
  allowedNetworks : List IpNetwork := []

namespace FetchPolicy

def addEntry (parseIp : List Char → Option IpAddr) (policy : FetchPolicy) (entry : String) :
    FetchPolicy :=
  let entry := trim entry.toList
  if entry = [] then policy
  else
    match parseIpNetwork parseIp entry with
    | some network => { policy with allowedNetworks := policy.allowedNetworks ++ [network] }
    | none => { policy with allowedHostnames := policy.allowedHostnames ++ [normalHost entry] }

def new (parseIp : List Char → Option IpAddr) (allowPrivate : Bool) (allowedHosts : List String) :
    FetchPolicy :=
  allowedHosts.foldl (addEntry parseIp) { allowPrivate }

variable (policy : FetchPolicy)

def hostIsListed (host : List Char) : Bool := normalHost host ∈ policy.allowedHostnames

def ipIsExplicitlyAllowed (ip : IpAddr) : Bool :=
  policy.allowedNetworks.any fun network => networkContains network ip

def ipIsAllowed (ip : IpAddr) : Bool :=
  if isCloudMetadata ip then policy.ipIsExplicitlyAllowed ip
  else
    isGloballyRoutable ip ||
      policy.allowedNetworks.any (fun network => networkContains network ip) ||
      (policy.allowPrivate && isPrivateLan ip)

end FetchPolicy

/-! ## The validation -/

inductive Host where
  | domain (name : List Char)
  | ipv4 (addr : BitVec 32)
  | ipv6 (addr : BitVec 128)

structure Url where
  scheme : String
  host : Option Host
  portOrKnownDefault : Option ℕ

structure Surroundings where
  parse : String → Except String Url
  hostStr : Host → List Char
  parseIp : List Char → Option IpAddr
  lookupHost : List Char → ℕ → Except String (List (IpAddr × ℕ))

inductive ApiError where
  | urlRejected (message : String)
  | badGateway (message : String)

inductive GuardError where
  | rejected (error : ApiError)
  | unresolved (error : ApiError)

structure FetchUrlPlan where
  url : Url
  resolvedAddrs : Option (List Char × List (IpAddr × ℕ))

section Validation

variable (around : Surroundings)

def reject (message : String) : GuardError := .rejected (.urlRejected message)

def validateLiteral (policy : FetchPolicy) (url : Url) (ip : IpAddr) :
    Except GuardError FetchUrlPlan :=
  if isCloudMetadata ip && !policy.ipIsExplicitlyAllowed ip then
    .error (reject ("URL targets a cloud metadata address (allow it only with an explicit IP " ++
      "or CIDR in general.fetch_allowed_hosts)"))
  else if !policy.ipIsAllowed ip then
    .error (reject ("URL targets a private/reserved address (allow it with " ++
      "general.fetch_allow_private or general.fetch_allowed_hosts)"))
  else .ok { url := url, resolvedAddrs := none }

def validateResolved (policy : FetchPolicy) (url : Url) (host : List Char)
    (addrs : List (IpAddr × ℕ)) : Except GuardError FetchUrlPlan :=
  if addrs = [] then
    .error (.unresolved (.badGateway
      ("DNS resolution returned no addresses for '" ++ String.ofList host ++ "'")))
  else if !policy.hostIsListed host then
    if addrs.any fun addr => !policy.ipIsAllowed addr.1 then
      .error (reject ("URL resolves to a private/reserved address (allow it with " ++
        "general.fetch_allow_private or general.fetch_allowed_hosts)"))
    else .ok { url := url, resolvedAddrs := some (host, addrs) }
  else if addrs.any fun addr => isCloudMetadata addr.1 && !policy.ipIsExplicitlyAllowed addr.1 then
    .error (reject ("URL resolves to a cloud metadata address (allow it only with an explicit " ++
      "IP or CIDR in general.fetch_allowed_hosts)"))
  else .ok { url := url, resolvedAddrs := some (host, addrs) }

def validateInner (rawUrl : String) (policy : FetchPolicy) : Except GuardError FetchUrlPlan :=
  match around.parse rawUrl with
  | .error e => .error (reject ("Invalid URL: " ++ e))
  | .ok url =>
      if url.scheme ≠ "http" ∧ url.scheme ≠ "https" then
        .error (reject ("URL scheme '" ++ url.scheme ++ "' not allowed (must be http or https)"))
      else
        match url.host with
        | none => .error (reject "URL has no host")
        | some host =>
            let host := around.hostStr host
            match around.parseIp (Core.unbracketed host) with
            | some ip => validateLiteral policy url ip
            | none =>
                match around.lookupHost host (url.portOrKnownDefault.getD 80) with
                | .error e =>
                    .error (.unresolved (.badGateway
                      ("DNS resolution failed for '" ++ String.ofList host ++ "': " ++ e)))
                | .ok addrs => validateResolved policy url host addrs

def validateFetchUrlWith (rawUrl : String) (policy : FetchPolicy) : Except ApiError FetchUrlPlan :=
  match validateInner around rawUrl policy with
  | .ok plan => .ok plan
  | .error (.rejected e) => .error e
  | .error (.unresolved e) => .error e

end Validation

end Rustnzb.Web.FetchGuard
