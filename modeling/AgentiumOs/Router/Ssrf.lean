import AgentiumOs.Lib.IpAddr
import AgentiumOs.Lib.Text

/-! Checks on the endpoints of cluster peers, and the client that is pinned to the
addresses they resolve to. URL parsing, name resolution and the HTTP client are
given; the checks are the code's. -/

namespace AgentiumOs.Router

open Lib

inductive Host where
  | domain (name : String)
  | ipv4 (ip : Ipv4Addr)
  | ipv6 (ip : Ipv6Addr)
  deriving DecidableEq

structure Url where
  scheme : String
  host : Option Host
  hostStr : Option String
  portOrKnownDefault : Option UInt16
  cannotBeABase : Bool
  path : List String
  query : Option String
  fragment : Option String
  deriving DecidableEq

/-- A client that connects to a host at the given addresses only. -/
structure PeerClient where
  host : String
  addrs : List SocketAddr
  deriving DecidableEq

/-- The libraries around the checks: the URL parser, name resolution, the texts of
addresses, the encoding of a path segment, and the errors of the client builder. -/
structure Network where
  parseUrl : String → Except String Url
  lookupHost : String → Except String (List SocketAddr)
  displayV4 : Ipv4Addr → String
  displayV6 : Ipv6Addr → String
  encodeSegment : String → String
  buildError : PeerClient → Option String

def isLinkLocalOrMetadata : IpAddr → Bool
  | .v4 ip => ip.octets[0]! = 169 && ip.octets[1]! = 254
  | .v6 ip => ip.segments[0]! &&& 0xffc0 = 0xfe80

def isCloudMetadataIp : IpAddr → Bool
  | .v4 ip => ip = .new 100 100 100 200
  | .v6 ip => ip.segments[0]! = 0xfd00 && ip.segments[1]! = 0x0ec2

def rejectDangerousIp (ip : IpAddr) (host : String) : Except String Unit :=
  if ip.isLoopback then .error ("endpoint host '" ++ host ++ "' is a loopback address")
  else if ip.isUnspecified then .error ("endpoint host '" ++ host ++ "' is an unspecified address")
  else if isLinkLocalOrMetadata ip then
    .error ("endpoint host '" ++ host ++ "' is a link-local or metadata address")
  else if isCloudMetadataIp ip then
    .error ("endpoint host '" ++ host ++ "' is a cloud metadata address")
  else .ok ()

def blockedHostnames : List String :=
  ["localhost", "metadata.google.internal", "metadata.aws.internal", "metadata.azure.internal"]

def isBlockedHost (host : String) : Bool :=
  let lower := Text.toAsciiLowercase host
  blockedHostnames.any fun blocked => lower = blocked || Text.endsWith lower ("." ++ blocked)

def rejectLiteral (url : Url) (host : String) : Except String Unit :=
  match url.host with
  | some (.ipv4 ip) => rejectDangerousIp (.v4 ip) host
  | some (.ipv6 ip) => rejectDangerousIp (.v6 ip) host
  | _ => .ok ()

def validateClusterEndpoint (N : Network) (raw : String) : Except String Url :=
  if !Text.isAscii raw then .error "endpoint URL contains non-ASCII characters"
  else match N.parseUrl raw with
    | .error e => .error ("invalid endpoint URL '" ++ raw ++ "': " ++ e)
    | .ok parsed =>
        if parsed.scheme ≠ "http" ∧ parsed.scheme ≠ "https" then
          .error ("endpoint scheme must be http or https, got '" ++ parsed.scheme ++ "'")
        else match parsed.hostStr with
          | none => .error ("endpoint '" ++ raw ++ "' has no host")
          | some host =>
              if isBlockedHost host then .error ("endpoint host '" ++ host ++ "' is blocked")
              else (rejectLiteral parsed host).map fun _ => parsed

def rejectAny (host : String) : List SocketAddr → Except String Unit
  | [] => .ok ()
  | addr :: rest =>
      match rejectDangerousIp addr.ip host with
      | .error e => .error e
      | .ok () => rejectAny host rest

def resolveHost (N : Network) (host : String) (port : UInt16) : Except String (List SocketAddr) :=
  match N.lookupHost (host ++ ":" ++ Nat.repr port.toNat) with
  | .error e => .error ("DNS resolution failed for '" ++ host ++ "': " ++ e)
  | .ok ips =>
      if ips.isEmpty then .error ("DNS resolution returned no addresses for '" ++ host ++ "'")
      else (rejectAny host ips).map fun _ => ips

/-- Literal addresses are taken as they are; names are resolved. -/
def resolveAddresses (N : Network) (url : Url) : Except String (List SocketAddr) :=
  match url.host with
  | some (.ipv4 ip) => .ok [⟨.v4 ip, url.portOrKnownDefault.getD 80⟩]
  | some (.ipv6 ip) => .ok [⟨.v6 ip, url.portOrKnownDefault.getD 80⟩]
  | _ => resolveHost N (url.hostStr.getD "") (url.portOrKnownDefault.getD 80)

def resolveAndValidateClusterEndpoint (N : Network) (raw : String) : Except String (Url × List SocketAddr) :=
  match validateClusterEndpoint N raw with
  | .error e => .error e
  | .ok parsed => (resolveAddresses N parsed).map fun addrs => (parsed, addrs)

/-- The text of the host the client is pinned for. -/
def pinnedHost (N : Network) : Option Host → Except String String
  | some (.domain name) => .ok name
  | some (.ipv4 ip) => .ok (N.displayV4 ip)
  | some (.ipv6 ip) => .ok (N.displayV6 ip)
  | none => .error "endpoint has no host"

def buildValidatedPeerClient (N : Network) (endpoint pathSegment : String) : Except String (PeerClient × Url) := do
  let (validated, addrs) ← resolveAndValidateClusterEndpoint N endpoint
  let host ← pinnedHost N validated.host
  if validated.cannotBeABase then
    throw "endpoint URL is not a base"
  let client : PeerClient := { host, addrs }
  match N.buildError client with
  | some e => throw ("client build: " ++ e)
  | none =>
      -- whatever path the endpoint had is replaced
      pure (client, { validated with path := [N.encodeSegment pathSegment], query := none, fragment := none })

/-- Loopback, unspecified, link-local or a cloud-metadata address. -/
def isDangerous (ip : IpAddr) : Bool :=
  ip.isLoopback || ip.isUnspecified || isLinkLocalOrMetadata ip || isCloudMetadataIp ip

/-- The addresses the host of a URL stands for: the literal one, or the answer of
the name resolution. -/
def hostAddresses (N : Network) (url : Url) : List SocketAddr :=
  match url.host with
  | some (.ipv4 ip) => [⟨.v4 ip, url.portOrKnownDefault.getD 80⟩]
  | some (.ipv6 ip) => [⟨.v6 ip, url.portOrKnownDefault.getD 80⟩]
  | _ =>
      match N.lookupHost (url.hostStr.getD "" ++ ":" ++ Nat.repr (url.portOrKnownDefault.getD 80).toNat) with
      | .ok ips => ips
      | .error _ => []

variable {host : String} {N : Network}

theorem rejectDangerousIp_ok (h : rejectDangerousIp ip host = .ok ()) : isDangerous ip = false := by
  unfold rejectDangerousIp at h
  split_ifs at h with hl hu hlo hm
  simp [isDangerous, hl, hu, hlo, hm]

variable {ad : List SocketAddr}

theorem rejectAny_ok (h : rejectAny host ad = .ok ()) : ∀ addr ∈ ad, isDangerous addr.ip = false := by
  induction ad with
  | nil => simp
  | cons first rest ih =>
    simp only [rejectAny] at h
    split at h
    · cases h
    · next hf =>
      intro addr ha
      rcases List.mem_cons.mp ha with rfl | hr
      · exact rejectDangerousIp_ok hf
      · exact ih h addr hr

variable {url : Url} {raw endpoint pathSegment : String}

theorem rejectLiteral_ok (h : rejectLiteral url host = .ok ()) :
    (∀ ip, url.host = some (.ipv4 ip) → isDangerous (.v4 ip) = false) ∧
      ∀ ip, url.host = some (.ipv6 ip) → isDangerous (.v6 ip) = false := by
  constructor
  all_goals
    intro ip hip
    rw [rejectLiteral, hip] at h
    exact rejectDangerousIp_ok h

theorem map_const_ok {α β : Type} {e : Except String α} {b c : β} (h : e.map (fun _ => b) = .ok c) :
    (∃ a, e = .ok a) ∧ b = c := by
  cases e with
  | error e => cases h
  | ok a =>
    cases h
    exact ⟨⟨a, rfl⟩, rfl⟩

theorem validateClusterEndpoint_ok (h : validateClusterEndpoint N raw = .ok url) :
    N.parseUrl raw = .ok url ∧ (∀ ip, url.host = some (.ipv4 ip) → isDangerous (.v4 ip) = false) ∧
      ∀ ip, url.host = some (.ipv6 ip) → isDangerous (.v6 ip) = false := by
  unfold validateClusterEndpoint at h
  split at h
  · cases h
  · split at h
    · cases h
    · next parsed hp =>
      split at h
      · cases h
      · split at h
        · cases h
        · split at h
          · cases h
          · obtain ⟨⟨_, hl⟩, rfl⟩ := map_const_ok h
            exact ⟨hp, rejectLiteral_ok hl⟩

theorem resolveHost_ok {p : UInt16} (h : resolveHost N host p = .ok ad) :
    N.lookupHost (host ++ ":" ++ Nat.repr p.toNat) = .ok ad ∧ ∀ addr ∈ ad, isDangerous addr.ip = false := by
  unfold resolveHost at h
  split at h
  · cases h
  · next ips hl =>
    split at h
    · cases h
    · obtain ⟨⟨_, ha⟩, rfl⟩ := map_const_ok h
      exact ⟨hl, rejectAny_ok ha⟩

theorem resolveAndValidateClusterEndpoint_ok (h : resolveAndValidateClusterEndpoint N raw = .ok (url, ad)) :
    N.parseUrl raw = .ok url ∧ ad = hostAddresses N url ∧ ∀ addr ∈ ad, isDangerous addr.ip = false := by
  unfold resolveAndValidateClusterEndpoint at h
  split at h
  · cases h
  · next parsed hvalid =>
    obtain ⟨hp, hv4, hv6⟩ := validateClusterEndpoint_ok hvalid
    cases ha : resolveAddresses N parsed with
    | error e => simp [ha, Except.map] at h
    | ok found =>
      rw [ha] at h
      cases h
      refine ⟨hp, ?_⟩
      unfold resolveAddresses at ha
      unfold hostAddresses
      split at ha
      · next ip hip =>
        cases ha
        exact ⟨rfl, by simpa using hv4 ip hip⟩
      · next ip hip =>
        cases ha
        exact ⟨rfl, by simpa using hv6 ip hip⟩
      · obtain ⟨hl, hs⟩ := resolveHost_ok ha
        simp only [hl]
        exact ⟨trivial, hs⟩

theorem buildValidatedPeerClient_ok (h : buildValidatedPeerClient N endpoint pathSegment = .ok (c, target)) :
    ∃ url, resolveAndValidateClusterEndpoint N endpoint = .ok (url, c.addrs) := by
  unfold buildValidatedPeerClient at h
  cases hr : resolveAndValidateClusterEndpoint N endpoint with
  | error e => simp [hr, bind, Except.bind] at h
  | ok r =>
    obtain ⟨url, ad⟩ := r
    refine ⟨url, ?_⟩
    simp only [hr, bind, Except.bind] at h
    cases hh : pinnedHost N url.host with
    | error e => simp [hh] at h
    | ok host =>
      simp only [hh] at h
      split at h
      · cases h
      · split at h
        · cases h
        · cases h
          rfl

/-- For every endpoint that is accepted, whatever the resolution answers, the
addresses the client is pinned to are safe once mapped addresses are read as IPv4
exactly when none of the host's addresses is a mapped form of a dangerous one. -/
theorem pinned_addresses_safe_iff (N : Network) (endpoint pathSegment : String) (client : PeerClient)
    (target : Url) (h : buildValidatedPeerClient N endpoint pathSegment = .ok (client, target)) :
    (∀ addr ∈ client.addrs, isDangerous addr.ip.toCanonical = false) ↔
      ∀ url, N.parseUrl endpoint = .ok url → ∀ addr ∈ hostAddresses N url, ∀ ip ∈ addr.ip.mapped,
        isDangerous (.v4 ip) = false := by
  obtain ⟨url, hr⟩ := buildValidatedPeerClient_ok h
  obtain ⟨hparse, had, hs⟩ := resolveAndValidateClusterEndpoint_ok hr
  have hcanonical : ∀ addr ∈ client.addrs, isDangerous addr.ip.toCanonical = false ↔
      ∀ ip ∈ addr.ip.mapped, isDangerous (.v4 ip) = false := by
    intro addr ha
    rw [IpAddr.toCanonical_eq]
    cases hmapped : addr.ip.mapped with
    | none => simpa using hs addr ha
    | some ip => simp
  constructor
  · intro hall url' hparse' addr ha
    cases hparse.symm.trans hparse'
    rw [← had] at ha
    exact (hcanonical addr ha).mp (hall addr ha)
  · intro hall addr ha
    exact (hcanonical addr ha).mpr (hall url hparse addr (had ▸ ha))

/-- A network in which every endpoint is parsed as the given host. -/
def networkTo (host : Host) (hostStr : String) : Network where
  parseUrl := fun _ => .ok ⟨"http", some host, some hostStr, some 80, false, [], none, none⟩
  lookupHost := fun _ => .ok [⟨.v4 (.new 10 0 0 7), 80⟩]
  displayV4 := fun _ => hostStr
  displayV6 := fun _ => "::ffff:127.0.0.1"
  encodeSegment := id
  buildError := fun _ => none

theorem private_peer_safe : buildValidatedPeerClient (networkTo (.domain "peer") "peer") "http://peer/" "agents" =
      .ok (⟨"peer", [⟨.v4 (.new 10 0 0 7), 80⟩]⟩,
        ⟨"http", some (.domain "peer"), some "peer", some 80, false, ["agents"], none, none⟩) ∧
    ∀ addr ∈ [(⟨.v4 (.new 10 0 0 7), 80⟩ : SocketAddr)], isDangerous addr.ip.toCanonical = false := by
  have hbuild : buildValidatedPeerClient (networkTo (.domain "peer") "peer") "http://peer/" "agents" =
      .ok (⟨"peer", [⟨.v4 (.new 10 0 0 7), 80⟩]⟩,
        ⟨"http", some (.domain "peer"), some "peer", some 80, false, ["agents"], none, none⟩) := by
    decide +kernel
  refine ⟨hbuild, (pinned_addresses_safe_iff _ _ _ _ _ hbuild).mpr ?_⟩
  rintro url ⟨⟩ addr ha ip hip
  simp [hostAddresses, networkTo] at ha
  subst ha
  cases hip

/-- The endpoint `http://[::ffff:127.0.0.1]/` is accepted, and the client is pinned
to the loopback address. -/
theorem mapped_loopback_pinned :
    let mapped : Ipv6Addr := .new 0 0 0 0 0 0xffff 0x7f00 1
    buildValidatedPeerClient (networkTo (.ipv6 mapped) "[::ffff:7f00:1]") "http://[::ffff:127.0.0.1]/"
        "agents" =
        .ok (⟨"::ffff:127.0.0.1", [⟨.v6 mapped, 80⟩]⟩,
          ⟨"http", some (.ipv6 mapped), some "[::ffff:7f00:1]", some 80, false, ["agents"], none, none⟩) ∧
      (IpAddr.v6 mapped).toCanonical = .v4 (.new 127 0 0 1) ∧
      isDangerous (IpAddr.v6 mapped).toCanonical = true := by
  decide +kernel

end AgentiumOs.Router
