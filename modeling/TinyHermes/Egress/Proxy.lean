import TinyHermes.Egress.Decision
import TinyHermes.Egress.Request

/-! One connection of the proxy, from its head to the address it is opened to. -/
namespace TinyHermes.Egress
open Lib Outbound

structure ProxySettings where
  token : List Char
  approvedNetworks : List Network := []
  allowedPorts : List Nat := [80, 443]

/-- What the directory and the resolver answer while one connection is served. -/
structure Outside where
  layersFor : CallerClaim → ScopeLayers
  sandboxClaim : Address → Option CallerClaim
  /-- What a lookup of a host and port answers, for the first one made, the second one and so on. -/
  resolve : Nat → List Char → Nat → List Address

def scopeHeader : String := "X-Tiny-Hermes-Scope"

def maxHeadBytes : Nat := 32 * 1024

/-- What `_connect` opens, and for whom. -/
structure Connection where
  request : ProxyRequest
  claim : CallerClaim
  layers : ScopeLayers
  resolution : List Address
  address : Address
  deriving DecidableEq

/-- What becomes of a connection: an answer of the proxy's own, nothing at all, or a connection to a target. -/
inductive Served where
  | answered (status : Nat) (reason : Option String)
  | dropped
  | connects (c : Connection)
  deriving DecidableEq

section Serve
variable (w : HeadReading) (k : Classification) (settings : ProxySettings) (o : Outside)

/-- The ids of `_claimed_layers`, the last of a name being the one that counts. -/
def claimedIds (header : List Char) : List (List Char × Nat) :=
  ((header.splitOn ';').filterMap fun part =>
    let (key, _, value) := partition '=' part
    (w.uuid (Text.stripChars value)).map fun id => (w.lower (Text.stripChars key), id)).reverse

/-- `_claimed_layers`. -/
def claimedLayers (header : Option (List Char)) : CallerClaim :=
  let found := claimedIds w (header.getD [])
  { kind := .platform
    workspaceId := found.lookup "workspace".toList
    agentVersionId := found.lookup "agent".toList
    runId := found.lookup "run".toList
    discoveryId := found.lookup "discovery".toList }

/-- `_identify`. -/
def identify (request : ProxyRequest) (peer : Option Address) : Option CallerClaim :=
  match request.header w "Proxy-Authorization" with
  | some authorization =>
    let (scheme, _, value) := partition ' ' authorization
    if w.lower scheme ≠ "bearer".toList ∨ Text.stripChars value ≠ settings.token then none
    else some (claimedLayers w (request.header w scopeHeader))
  | none => peer.bind o.sandboxClaim

def decideFor (request : ProxyRequest) (scope : OutboundScope) (addresses : List Address) : ProxyVerdict :=
  decide w.toReading k { scheme := request.scheme, host := request.host, port := request.port } scope addresses
    settings.approvedNetworks settings.allowedPorts

/-- The end of `_serve_one`, for a caller that is known. -/
def serveKnown (request : ProxyRequest) (claim : CallerClaim) : Served :=
  let layers := o.layersFor claim
  let scope := layers.effective w.toReading
  let early := decideFor w k settings request scope []
  -- an unresolved target is the only one that a lookup is made for
  if early.refusal ≠ some .unresolved ∧ early.allowed = false then .answered 403 (some early.reasonText)
  else
    let addresses := o.resolve 0 request.host request.port
    let answer := decideFor w k settings request scope addresses
    match answer.allowed, answer.address with
    | true, some address => .connects ⟨request, claim, layers, addresses, address⟩
    | _, _ => .answered 403 (some answer.reasonText)

/-- `_serve_one`. -/
def serveOne (head : List UInt8) (peer : Option Address) : Served :=
  if maxHeadBytes < head.length then .answered 431 (some ProxyRefusal.unknownCaller.value)
  else
    match parseHead w head with
    | .error .urlError => .dropped
    | .error _ => .answered 400 none
    | .ok request =>
      match identify w settings o request peer with
      | none => .answered 407 (some ProxyRefusal.unknownCaller.value)
      | some claim => serveKnown w k settings o request claim

end Serve

def ProxyRequest.target (request : ProxyRequest) : Target :=
  { scheme := request.scheme, host := request.host, port := request.port }

variable {w : HeadReading} {k : Classification} {settings : ProxySettings} {o : Outside} {head : List UInt8}
  {peer : Option Address} {request : ProxyRequest} {claim : CallerClaim} {c : Connection}

theorem early_unresolved {scope : OutboundScope}
    (h : Checked w.toReading request.target scope settings.allowedPorts) :
    (decideFor w k settings request scope []).refusal = some .unresolved := by
  rw [decideFor, decide, ← ProxyRequest.target, checkRequest_none.mpr h]
  rfl

theorem decideFor_allowed {scope : OutboundScope} {addresses : List Address} :
    (decideFor w k settings request scope addresses).allowed = true ↔ addresses ≠ [] ∧
      Allowed w.toReading k request.target scope addresses settings.approvedNetworks settings.allowedPorts :=
  decide_allowed

theorem serveKnown_connects : serveKnown w k settings o request claim = .connects c ↔
    c.request = request ∧ c.claim = claim ∧ c.layers = o.layersFor claim ∧
      c.resolution = o.resolve 0 request.host request.port ∧ c.resolution.head? = some c.address ∧
      Allowed w.toReading k request.target (c.layers.effective w.toReading) c.resolution settings.approvedNetworks
        settings.allowedPorts := by
  rw [serveKnown]
  constructor
  · intro h
    dsimp only at h
    split_ifs at h with hearly
    split at h
    · next address hallowed haddress =>
      cases h
      have haddress' := (decide_address hallowed).symm.trans haddress
      exact ⟨rfl, rfl, rfl, rfl, haddress', (decideFor_allowed.mp hallowed).2⟩
    · cases h
  · obtain ⟨request', _, _, _, _⟩ := c
    dsimp only
    rintro ⟨rfl, rfl, rfl, rfl, haddress, hallowed⟩
    rw [if_neg (fun h => h.1 (early_unresolved hallowed.checked))]
    have hne : o.resolve 0 request'.host request'.port ≠ [] := by
      intro hempty
      rw [hempty] at haddress
      cases haddress
    have hyes := decideFor_allowed.mpr ⟨hne, hallowed⟩
    have hfirst := (decide_address hyes).trans haddress
    rw [hyes, decideFor, hfirst]

theorem serveOne_connects (h : serveOne w k settings o head peer = .connects c) :
    parseHead w head = .ok c.request ∧ identify w settings o c.request peer = some c.claim ∧
      serveKnown w k settings o c.request c.claim = .connects c := by
  rw [serveOne] at h
  split_ifs at h with hsize
  cases hparse : parseHead w head with
  | error fault =>
    rw [hparse] at h
    cases fault <;> cases h
  | ok request =>
    rw [hparse] at h
    dsimp only at h
    cases hclaim : identify w settings o request peer with
    | none =>
      rw [hclaim] at h
      cases h
    | some =>
      rw [hclaim] at h
      dsimp only at h
      obtain ⟨hrequest, hsame, _⟩ := serveKnown_connects.mp h
      rw [hrequest, hsame]
      exact ⟨rfl, hclaim, h⟩

/-- Every connection was approved: by each layer, by name or for every address the lookup answered; on an allowed port; and at
an address of that lookup, none of which is of a class that is refused and not opened. -/
theorem connection_approved (hvalid : ∀ claim, ∀ layer ∈ (o.layersFor claim).present, layer.Valid w.toReading)
    (h : serveOne w k settings o head peer = .connects c) :
    (∀ layer ∈ c.layers.present, layer.allowsHost w.toReading c.request.host = true ∨
      ∀ a ∈ c.resolution, layer.allowsAddress a = true) ∧
    c.request.port ∈ settings.allowedPorts ∧
    c.resolution = o.resolve 0 c.request.host c.request.port ∧ c.address ∈ c.resolution ∧
    ∀ a ∈ c.resolution,
      (k.isLoopback a = false ∧ k.isLinkLocal a = false ∧ k.isUnspecified a = false ∧ k.isMulticast a = false ∧
        k.isReserved a = false) ∧
      (k.isPrivate a = true ∨ carrierGradeNat.holds a = true → ∃ n ∈ settings.approvedNetworks, n.holds a = true) := by
  obtain ⟨_, _, hserved⟩ := serveOne_connects h
  obtain ⟨_, _, hlayers, hresolution, haddress, hallowed⟩ := serveKnown_connects.mp hserved
  have hstored : ∀ layer ∈ c.layers.present, layer.Valid w.toReading := by
    rw [hlayers]
    exact hvalid c.claim
  refine ⟨?_, hallowed.checked.port, hresolution, List.mem_of_head? haddress, ?_⟩
  · intro layer hlayer
    obtain hhost | haddresses := hallowed.inScope
    · left
      have happroved := OutboundScope.approves_host.mpr hhost
      exact OutboundScope.approves_host.mp (intersect_sound hstored happroved layer hlayer)
    · right
      intro a ha
      have happroved := OutboundScope.approves_address (p := w.toReading).mpr (haddresses a ha)
      exact OutboundScope.approves_address.mp (intersect_sound hstored happroved layer hlayer)
  · intro a ha
    refine ⟨(hallowed.opened a ha).not_local, ?_⟩
    intro hrestricted
    exact List.any_eq_true.mp ((hallowed.opened a ha).inApproved hrestricted)

/-- A request that is forwarded in the clear goes to an approved network, whatever the lookup answers, if and only if its scheme
is plaintext or the scope and the address policy leave nothing outside these networks to connect to. -/
theorem forwarded_approved_iff (settings : ProxySettings) (o : Outside) (hsize : head.length ≤ maxHeadBytes) (hparse : parseHead w head = .ok request)
    (htunnel : request.tunnel = false) (hclaim : identify w settings o request peer = some claim) :
    (∀ resolve c, serveOne w k settings { o with resolve := resolve } head peer = .connects c →
      c.request.tunnel = false ∧ inApproved settings.approvedNetworks c.address = true) ↔
    (Checked w.toReading request.target ((o.layersFor claim).effective w.toReading) settings.allowedPorts →
      request.scheme = "http".toList ∨
        ∀ a, refusal k a = none →
          ((o.layersFor claim).effective w.toReading).allowsHost w.toReading request.host = true ∨
            ((o.layersFor claim).effective w.toReading).allowsAddress a = true →
          inApproved settings.approvedNetworks a = true) := by
  have hserve (resolve : Nat → List Char → Nat → List Address) :
      serveOne w k settings { o with resolve := resolve } head peer =
        serveKnown w k settings { o with resolve := resolve } request claim := by
    have hidentified : identify w settings { o with resolve := resolve } request peer = some claim := hclaim
    rw [serveOne, if_neg (Nat.not_lt.mpr hsize), hparse]
    dsimp only
    rw [hidentified]
  constructor
  · intro hsafe hchecked
    by_contra hnot
    rw [not_or] at hnot
    obtain ⟨hscheme, hnot⟩ := hnot
    apply hnot
    intro a hpublic hscope
    have hconnects : serveOne w k settings { o with resolve := fun _ _ _ => [a] } head peer =
        .connects ⟨request, claim, o.layersFor claim, [a], a⟩ := by
      rw [hserve, serveKnown_connects]
      refine ⟨rfl, rfl, rfl, rfl, rfl, hchecked, ?_, ?_, ?_⟩
      · refine hscope.imp_right fun happroved b hb => ?_
        rw [List.mem_singleton.mp hb]
        exact happroved
      · intro _ hb
        rw [List.mem_singleton.mp hb]
        exact .inl hpublic
      · intro hplain
        exact absurd hplain hscheme
    exact (hsafe _ _ hconnects).2
  · intro hcondition _ c hconnects
    rw [hserve, serveKnown_connects] at hconnects
    obtain ⟨hrequest, _, hlayers, _, haddress, hallowed⟩ := hconnects
    refine ⟨by rw [hrequest]; exact htunnel, ?_⟩
    have hfirst := List.mem_of_head? haddress
    rw [hlayers] at hallowed
    obtain hplain | hnone := hcondition hallowed.checked
    · have hinside := hallowed.plaintext hplain
      rw [haddress] at hinside
      exact hinside
    · obtain hpublic | ⟨_, hopened⟩ := hallowed.opened c.address hfirst
      · exact hnone c.address hpublic (hallowed.inScope.imp_right fun h => h c.address hfirst)
      · exact hopened

def allPublic : Classification where
  isLoopback _ := false
  isLinkLocal _ := false
  isUnspecified _ := false
  isMulticast _ := false
  isReserved _ := false
  isPrivate _ := false

/-- Heads without identifiers and without anything that `urlsplit` refuses. -/
def plainHeads : HeadReading where
  toReading := hostsOnly
  uuid _ := none
  refusesNetloc _ := false

def publicAddress : Address where
  version := .v4
  value := 0x5DB8D822
  value_lt := by decide

def oneHost : Outside where
  layersFor _ := { platform := hostLayer ["a.b"] }
  sandboxClaim _ := some { kind := .sandbox }
  resolve _ _ _ := [publicAddress]

def bytesOf (text : String) : List UInt8 := text.toList.map fun c => UInt8.ofNat c.toNat

theorem oneHost_valid : ∀ claim, ∀ layer ∈ (oneHost.layersFor claim).present, layer.Valid plainHeads.toReading := by
  intro _ _ hlayer _ he
  rw [List.mem_singleton.mp hlayer] at he
  rw [List.mem_singleton.mp he]
  decide

theorem tunnel_approved : ∃ c, serveOne plainHeads allPublic { token := [] } oneHost (bytesOf "CONNECT a.b HTTP/1.1\r\n\r\n")
    (some publicAddress) = .connects c ∧ c.address ∈ c.resolution ∧
      ∀ layer ∈ c.layers.present, layer.allowsHost hostsOnly c.request.host = true ∨
        ∀ a ∈ c.resolution, layer.allowsAddress a = true := by
  have hconnects : serveOne plainHeads allPublic { token := [] } oneHost (bytesOf "CONNECT a.b HTTP/1.1\r\n\r\n")
      (some publicAddress) = .connects
        { request := ⟨"CONNECT".toList, "https".toList, "a.b".toList, 443, [], "HTTP/1.1".toList, []⟩
          claim := { kind := .sandbox }
          layers := { platform := hostLayer ["a.b"] }
          resolution := [publicAddress], address := publicAddress } := by
    decide
  obtain ⟨hlayers, _, _, haddress, _⟩ := connection_approved oneHost_valid hconnects
  exact ⟨_, hconnects, haddress, hlayers⟩

/-- A target with the plaintext scheme is never connected to outside the approved networks. -/
theorem http_approved : ∃ request, parseHead plainHeads (bytesOf "GET http://a.b/ HTTP/1.1\r\n\r\n") = .ok request ∧
    ∀ resolve c, serveOne plainHeads allPublic { token := [] } { oneHost with resolve := resolve }
        (bytesOf "GET http://a.b/ HTTP/1.1\r\n\r\n") (some publicAddress) = .connects c →
      c.request.tunnel = false ∧ inApproved [] c.address = true := by
  have hparse : parseHead plainHeads (bytesOf "GET http://a.b/ HTTP/1.1\r\n\r\n") = .ok
      ⟨"GET".toList, "http".toList, "a.b".toList, 80, "/".toList, "HTTP/1.1".toList, []⟩ := by
    decide
  refine ⟨_, hparse, ?_⟩
  exact (forwarded_approved_iff { token := [] } oneHost (by decide) hparse (by decide) rfl).mpr fun _ => .inl rfl

/-- An absolute target with the scheme of a tunnel is forwarded in the clear to an address of no approved network. -/
theorem https_in_the_clear : ∃ c, serveOne plainHeads allPublic { token := [] } oneHost
    (bytesOf "GET https://a.b/ HTTP/1.1\r\n\r\n") (some publicAddress) = .connects c ∧
      c.request.tunnel = false ∧ inApproved [] c.address = false :=
  ⟨{ request := ⟨"GET".toList, "https".toList, "a.b".toList, 443, "/".toList, "HTTP/1.1".toList, []⟩
     claim := { kind := .sandbox }
     layers := { platform := hostLayer ["a.b"] }
     resolution := [publicAddress], address := publicAddress }, by decide, by decide, by decide⟩

end TinyHermes.Egress
