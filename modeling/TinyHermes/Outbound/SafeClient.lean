import TinyHermes.Egress.Request

/-! The requests one call of `SafeOutboundClient` sends, along whatever chain of redirects it is answered with. -/
namespace TinyHermes.Outbound.SafeClient
open Lib
open Egress (HeadReading partition urlsplit)

section Origins
variable (w : HeadReading)

/-- `text.rpartition(sep)[2]`. -/
def afterLast (sep : Char) (text : List Char) : List Char := (text.reverse.takeWhile (· != sep)).reverse

/-- `_hostinfo`: the host and the port as they are written. -/
def hostInfo (netloc : List Char) : List Char × List Char :=
  let written := afterLast '@' netloc
  match partition '[' written with
  | (_, true, bracketed) =>
    let (host, _, behind) := partition ']' bracketed
    let (_, _, port) := partition ':' behind
    (host, port)
  | _ =>
    let (host, _, port) := partition ':' written
    (host, port)

/-- `hostname or ""`: in lower case up to the zone. -/
def hostName (netloc : List Char) : List Char :=
  let (host, zoned, zone) := partition '%' (hostInfo netloc).1
  w.lower host ++ if zoned then '%' :: zone else []

/-- `port`: none is written, or it is a number; anything else raises. -/
def portNumber (netloc : List Char) : Option (Option Nat) :=
  match (hostInfo netloc).2 with
  | [] => some none
  | digits =>
    if digits.all Char.isDigit then
      let port := digits.foldl (fun n d => 10 * n + (d.toNat - '0'.toNat)) 0
      if port ≤ 65535 then some (some port) else none
    else none

structure Origin where
  scheme : List Char
  host : List Char
  port : Nat
  deriving DecidableEq

/-- `_origin`, where nothing is raised. A port of zero is as good as none. -/
def origin (url : List Char) : Option Origin :=
  match urlsplit w url with
  | .error _ => none
  | .ok parts =>
    (portNumber parts.netloc).map fun port =>
      { scheme := parts.scheme
        host := hostName w parts.netloc
        port := match port with
          | none | some 0 => if parts.scheme = "https".toList then 443 else 80
          | some port => port }

end Origins

structure Request where
  method : String
  url : List Char
  content : Option String := none
  headers : List (String × String) := []
  deriving DecidableEq

structure Response where
  status : Nat
  /-- `response.headers.get("location", "")`. -/
  location : List Char := []
  /-- `REFUSED_HEADER`: the proxy said no. -/
  egressRefusal : Option String := none
  /-- `UPSTREAM_HEADER`: the proxy did not reach the target. -/
  upstreamFailed : Bool := false
  content : List UInt8 := []
  deriving DecidableEq

inductive Reply where
  | lost | tooLarge
  | response (response : Response)
  deriving DecidableEq

structure Exchange where
  request : Request
  reply : Reply
  deriving DecidableEq

inductive Failure where
  | refused (reason : String)
  | unreachable (effectUnknown : Bool)
  | tooLarge | tooManyRedirects
  /-- Not an `OutboundError`: `urlsplit` or a port raised. -/
  | raised
  deriving DecidableEq

/-- Everything at the other end of the egress proxy, with all that was sent to it before. -/
structure FarEnd where
  /-- Whether an attempt at a connection succeeds. -/
  connects : List Exchange → Nat → Bool
  reply : List Exchange → Request → Reply

structure SafeOutboundClient where
  hasRoute : Bool := true
  maxRedirects : Nat := 5

def connectAttempts : Nat := 3

def isRedirect (status : Nat) : Bool := [301, 302, 303, 307, 308].contains status

/-- `REPLAYING_STATUSES`. -/
def replays (status : Nat) : Bool := [307, 308].contains status

section Sending
variable (w : HeadReading) (join : List Char → List Char → List Char) (client : SafeOutboundClient) (far : FarEnd)

def named (name : String) (header : String × String) : Bool := w.lower header.1.toList == name.toList

def without (name : String) (headers : List (String × String)) : List (String × String) :=
  headers.filter (!named w name ·)

/-- `_read`. A connection that was never set up has sent nothing. -/
def read (sent : List Exchange) (r : Request) : List Exchange × Except Failure Response :=
  if (List.range connectAttempts).any (far.connects sent) then
    let reply := far.reply sent r
    let sent := sent ++ [⟨r, reply⟩]
    match reply with
    | .lost => (sent, .error (.unreachable true))
    | .tooLarge => (sent, .error .tooLarge)
    | .response answer =>
      match answer.egressRefusal with
      | some reason => (sent, .error (.refused reason))
      | none => (sent, if answer.upstreamFailed then .error (.unreachable false) else .ok answer)
  else (sent, .error (.refused "egress_unavailable"))

/-- `_send`. -/
def send (sent : List Exchange) (r : Request) : List Exchange × Except Failure Response :=
  if !client.hasRoute then (sent, .error (.refused "egress_not_configured"))
  else
    match origin w r.url with
    | none => (sent, .error .raised)
    | some o =>
      if o.scheme ≠ "http".toList ∧ o.scheme ≠ "https".toList then (sent, .error (.refused "scheme_not_allowed"))
      else if o.host.isEmpty then (sent, .error (.refused "unresolved"))
      else read far sent r

def redirected (r : Request) (answer : Response) : Option Request :=
  let target := join r.url answer.location
  match origin w target, origin w r.url with
  | some there, some here =>
    let headers := if there ≠ here then without w "authorization" r.headers else r.headers
    if replays answer.status then some { r with url := target, headers }
    else some { method := "GET", url := target, headers := without w "content-type" headers }
  | _, _ => none

/-- The loop of `request`, with as many rounds to go. -/
def follow : Nat → Request → List Exchange → List Exchange × Except Failure Response
  | 0, _, sent => (sent, .error .tooManyRedirects)
  | rounds + 1, r, sent =>
    match send w client far sent r with
    | (sent, .error failure) => (sent, .error failure)
    | (sent, .ok answer) =>
      if !isRedirect answer.status || answer.location.isEmpty then (sent, .ok answer)
      else
        match redirected w join r answer with
        | none => (sent, .error .raised)
        | some next => follow rounds next sent

/-- `request`, with its content encoded. -/
def request (r : Request) : List Exchange × Except Failure Response :=
  follow w join client far (client.maxRedirects + 1) r []

end Sending

section Chains
variable {w : HeadReading} {join : List Char → List Char → List Char} {client : SafeOutboundClient} {far : FarEnd}
  {r next : Request} {sent sent' : List Exchange} {answer : Response} {outcome : Except Failure Response}

def Hop (w : HeadReading) (join : List Char → List Char → List Char) (e : Exchange) (next : Request) : Prop :=
  ∃ answer, e.reply = .response answer ∧ redirected w join e.request answer = some next

structure Chain (w : HeadReading) (join : List Char → List Char → List Char) (first : Request) (sent : List Exchange) : Prop where
  first : ∀ e ∈ sent.head?, e.request = first
  hops : sent.IsChain fun e e' => Hop w join e e'.request

theorem read_sends (far : FarEnd) (sent : List Exchange) (r : Request) :
    (read far sent r).1 = sent ∨ ∃ reply, (read far sent r).1 = sent ++ [⟨r, reply⟩] := by
  unfold read
  split
  · right
    refine ⟨far.reply sent r, ?_⟩
    cases far.reply sent r with
    | lost => rfl
    | tooLarge => rfl
    | response answer => cases hrefusal : answer.egressRefusal <;> simp only [hrefusal]
  · exact .inl rfl

theorem read_ok (h : read far sent r = (sent', .ok answer)) : sent' = sent ++ [⟨r, .response answer⟩] := by
  unfold read at h
  split at h
  · simp only at h
    cases hreply : far.reply sent r with
    | lost =>
      rw [hreply] at h
      cases h
    | tooLarge =>
      rw [hreply] at h
      cases h
    | response a =>
      rw [hreply] at h
      cases hrefusal : a.egressRefusal with
      | some =>
        simp only [hrefusal] at h
        cases h
      | none =>
        simp only [hrefusal] at h
        cases hfailed : a.upstreamFailed with
        | true =>
          rw [hfailed] at h
          cases h
        | false =>
          rw [hfailed] at h
          cases h
          rfl
  · cases h

theorem send_sends (w : HeadReading) (client : SafeOutboundClient) (far : FarEnd) (sent : List Exchange) (r : Request) :
    (send w client far sent r).1 = sent ∨ ∃ reply, (send w client far sent r).1 = sent ++ [⟨r, reply⟩] := by
  unfold send
  split
  · exact .inl rfl
  · split
    · exact .inl rfl
    · split
      · exact .inl rfl
      · split
        · exact .inl rfl
        · exact read_sends far sent r

theorem send_ok (h : send w client far sent r = (sent', .ok answer)) : sent' = sent ++ [⟨r, .response answer⟩] := by
  unfold send at h
  split at h
  · cases h
  · split at h
    · cases h
    · split at h
      · cases h
      · split at h
        · cases h
        · exact read_ok h

structure Next (w : HeadReading) (join : List Char → List Char → List Char) (first : Request) (sent : List Exchange)
    (r : Request) : Prop where
  first : sent = [] → r = first
  hop : ∀ e ∈ sent.getLast?, Hop w join e r

variable {first : Request}

theorem Chain.append (h : Chain w join first sent) (hnext : Next w join first sent r) (reply : Reply) :
    Chain w join first (sent ++ [⟨r, reply⟩]) where
  first := by
    intro e he
    cases sent with
    | nil =>
      cases he
      exact hnext.first rfl
    | cons => exact h.first e he
  hops := by
    refine h.hops.append (List.isChain_singleton _) fun e he e' he' => ?_
    cases he'
    exact hnext.hop e he

theorem Chain.sends (h : Chain w join first sent) (hnext : Next w join first sent r)
    (hsent : sent' = sent ∨ ∃ reply, sent' = sent ++ [⟨r, reply⟩]) : Chain w join first sent' ∧ sent'.length ≤ sent.length + 1 := by
  obtain rfl | ⟨reply, rfl⟩ := hsent
  · exact ⟨h, by omega⟩
  · refine ⟨h.append hnext reply, ?_⟩
    rw [List.length_append, List.length_singleton]

theorem follow_chain (rounds : Nat) (h : Chain w join first sent) (hnext : Next w join first sent r) :
    Chain w join first (follow w join client far rounds r sent).1 ∧
      (follow w join client far rounds r sent).1.length ≤ sent.length + rounds := by
  induction rounds generalizing r sent with
  | zero => exact ⟨h, Nat.le_refl _⟩
  | succ rounds ih =>
    have hround := h.sends hnext (send_sends w client far sent r)
    rw [follow]
    cases hsend : send w client far sent r with
    | mk sent₁ outcome =>
      rw [hsend] at hround
      obtain ⟨hchain₁, _⟩ : Chain w join first sent₁ ∧ sent₁.length ≤ sent.length + 1 := hround
      have hfew : sent₁.length ≤ sent.length + (rounds + 1) := by omega
      cases outcome with
      | error => exact ⟨hchain₁, hfew⟩
      | ok answer =>
        have hlast := send_ok hsend
        simp only
        split
        · exact ⟨hchain₁, hfew⟩
        · split
          · exact ⟨hchain₁, hfew⟩
          · next next hredirected =>
            have hfollows : Next w join first sent₁ next := by
              constructor
              · intro hnil
                rw [hlast] at hnil
                simp at hnil
              · intro _ he
                rw [hlast, List.getLast?_concat, Option.mem_some_iff] at he
                cases he
                exact ⟨answer, rfl, hredirected⟩
            obtain ⟨hchain, _⟩ := ih hchain₁ hfollows
            exact ⟨hchain, by omega⟩

theorem request_chain (w : HeadReading) (join : List Char → List Char → List Char) (client : SafeOutboundClient) (far : FarEnd)
    (r : Request) : Chain w join r (request w join client far r).1 ∧
      (request w join client far r).1.length ≤ client.maxRedirects + 1 := by
  have hempty : Chain w join r [] := { first := by simp, hops := List.isChain_nil }
  have hstart : Next w join r [] r := { first := fun _ => rfl, hop := by simp }
  have h : Chain w join r (request w join client far r).1 ∧
      (request w join client far r).1.length ≤ ([] : List Exchange).length + (client.maxRedirects + 1) :=
    follow_chain (client.maxRedirects + 1) hempty hstart
  rwa [List.length_nil, Nat.zero_add] at h

theorem Chain.hop_at {i : Nat} {e e' : Exchange} (h : Chain w join first sent) (he : sent[i]? = some e)
    (he' : sent[i + 1]? = some e') : Hop w join e e'.request := by
  obtain ⟨_, rfl⟩ := List.getElem?_eq_some_iff.mp he
  obtain ⟨hi', rfl⟩ := List.getElem?_eq_some_iff.mp he'
  exact h.hops.getElem i hi'

def rides (w : HeadReading) (header : String × String) : Bool := !named w "authorization" header && !named w "content-type" header

def carries (w : HeadReading) (name : String) (r : Request) : Prop := ∃ header ∈ r.headers, named w name header = true

structure Redirected (w : HeadReading) (r next : Request) (status : Nat) : Prop where
  moved : carries w "authorization" next → origin w next.url = origin w r.url
  kept : ∀ header ∈ next.headers, header ∈ r.headers
  riding : next.headers.filter (rides w) = r.headers.filter (rides w)
  replayed : replays status = true → next.method = r.method ∧ next.content = r.content
  reread : replays status = false → next.method = "GET" ∧ next.content = none

theorem without_kept (name : String) (headers : List (String × String)) :
    ∀ header ∈ without w name headers, header ∈ headers ∧ named w name header = false := by
  intro _ hheader
  obtain ⟨hmem, hother⟩ := List.mem_filter.mp hheader
  refine ⟨hmem, ?_⟩
  rw [Bool.not_eq_true'] at hother
  exact hother

theorem without_riding {name : String} (hname : ∀ header, rides w header = true → named w name header = false)
    (headers : List (String × String)) : (without w name headers).filter (rides w) = headers.filter (rides w) := by
  rw [without, List.filter_filter]
  refine List.filter_congr fun header _ => ?_
  cases hrides : rides w header with
  | false => rfl
  | true => rw [hname header hrides]; rfl

theorem rides_authorization {header : String × String} (h : rides w header = true) : named w "authorization" header = false := by
  rw [rides, Bool.and_eq_true, Bool.not_eq_true', Bool.not_eq_true'] at h
  exact h.1

theorem rides_contentType {header : String × String} (h : rides w header = true) : named w "content-type" header = false := by
  rw [rides, Bool.and_eq_true, Bool.not_eq_true', Bool.not_eq_true'] at h
  exact h.2

theorem redirected_some (h : redirected w join r answer = some next) : Redirected w r next answer.status := by
  unfold redirected at h
  simp only at h
  cases hthere : origin w (join r.url answer.location) with
  | none =>
    rw [hthere] at h
    cases h
  | some there =>
    cases hhere : origin w r.url with
    | none =>
      rw [hthere, hhere] at h
      cases h
    | some here =>
      rw [hthere, hhere] at h
      simp only at h
      -- The headers after the origins were compared, before the content is looked at.
      generalize hheaders : (if there ≠ here then without w "authorization" r.headers else r.headers) = headers at h
      have hkept : ∀ header ∈ headers, header ∈ r.headers ∧ (there ≠ here → named w "authorization" header = false) := by
        intro header hheader
        rw [← hheaders] at hheader
        split_ifs at hheader with hsame
        · exact ⟨(without_kept _ _ header hheader).1, fun _ => (without_kept _ _ header hheader).2⟩
        · exact ⟨hheader, fun hmoved => absurd hmoved hsame⟩
      have hriding : headers.filter (rides w) = r.headers.filter (rides w) := by
        rw [← hheaders]
        split_ifs
        · exact without_riding (fun _ => rides_authorization) _
        · rfl
      have hmoved : (∃ header ∈ headers, named w "authorization" header = true) → there = here := by
        rintro ⟨header, hheader, hnamed⟩
        by_contra hne
        rw [(hkept header hheader).2 hne] at hnamed
        cases hnamed
      cases hreplays : replays answer.status with
      | true =>
        rw [hreplays, if_pos rfl] at h
        cases h
        constructor
        · intro hcarries
          rw [hthere, hhere, hmoved hcarries]
        · exact fun header hheader => (hkept header hheader).1
        · exact hriding
        · exact fun _ => ⟨rfl, rfl⟩
        · intro hnot
          exact absurd (hreplays.symm.trans hnot) (by decide)
      | false =>
        rw [hreplays, if_neg Bool.false_ne_true] at h
        cases h
        constructor
        · rintro ⟨header, hheader, hnamed⟩
          rw [hthere, hhere, hmoved ⟨header, (without_kept _ _ header hheader).1, hnamed⟩]
        · exact fun header hheader => (hkept header (without_kept _ _ header hheader).1).1
        · exact (without_riding (fun _ => rides_contentType) _).trans hriding
        · intro hreplay
          exact absurd (hreplays.symm.trans hreplay) (by decide)
        · exact fun _ => ⟨rfl, rfl⟩

theorem Hop.redirected {e : Exchange} (h : Hop w join e next) :
    ∃ answer, e.reply = .response answer ∧ Redirected w e.request next answer.status := by
  obtain ⟨answer, hreply, hredirected⟩ := h
  exact ⟨answer, hreply, redirected_some hredirected⟩

theorem Chain.authorization_home (h : Chain w join first sent) {i : Nat} {e : Exchange} (he : sent[i]? = some e)
    (hcarries : carries w "authorization" e.request) :
    ∀ j ≤ i, ∀ e', sent[j]? = some e' → origin w e'.request.url = origin w first.url := by
  induction i generalizing e with
  | zero =>
    intro j hj e' he'
    obtain rfl : j = 0 := by omega
    rw [← List.head?_eq_getElem?] at he'
    rw [h.first e' he']
  | succ i ih =>
    intro j _ e' he'
    have hbefore : i < sent.length := by
      have := (List.getElem?_eq_some_iff.mp he).1
      omega
    obtain ⟨_, _, hredirected⟩ := (h.hop_at (List.getElem?_eq_getElem hbefore) he).redirected
    obtain ⟨header, hheader, hnamed⟩ := hcarries
    have hearlier := ih (List.getElem?_eq_getElem hbefore) ⟨header, hredirected.kept header hheader, hnamed⟩
    obtain hlt | rfl : j ≤ i ∨ j = i + 1 := by omega
    · exact hearlier j hlt e' he'
    · rw [he] at he'
      cases he'
      rw [hredirected.moved ⟨header, hheader, hnamed⟩]
      exact hearlier i (Nat.le_refl _) _ (List.getElem?_eq_getElem hbefore)

def replayed (reply : Reply) : Prop := ∃ answer, reply = .response answer ∧ replays answer.status = true

theorem Chain.write_replayed (h : Chain w join first sent) {i : Nat} {e : Exchange} (he : sent[i]? = some e)
    (hwrites : e.request.method ≠ "GET" ∨ e.request.content.isSome = true) :
    (∀ j < i, ∀ e', sent[j]? = some e' → replayed e'.reply) ∧
      e.request.method = first.method ∧ e.request.content = first.content := by
  induction i generalizing e with
  | zero =>
    rw [← List.head?_eq_getElem?] at he
    rw [h.first e he]
    exact ⟨fun j hj => absurd hj (by omega), rfl, rfl⟩
  | succ i ih =>
    have hbefore : i < sent.length := by
      have := (List.getElem?_eq_some_iff.mp he).1
      omega
    obtain ⟨answer, hreply, hredirected⟩ := (h.hop_at (List.getElem?_eq_getElem hbefore) he).redirected
    cases hreplays : replays answer.status with
    | false =>
      obtain ⟨hmethod, hcontent⟩ := hredirected.reread hreplays
      rw [hmethod, hcontent] at hwrites
      simp at hwrites
    | true =>
      obtain ⟨hmethod, hcontent⟩ := hredirected.replayed hreplays
      rw [hmethod, hcontent] at hwrites ⊢
      obtain ⟨hearlier, hsame⟩ := ih (List.getElem?_eq_getElem hbefore) hwrites
      refine ⟨fun j hj e' he' => ?_, hsame⟩
      obtain hlt | rfl : j < i ∨ j = i := by omega
      · exact hearlier j hlt e' he'
      · rw [List.getElem?_eq_getElem hbefore] at he'
        cases he'
        exact ⟨answer, hreply, hreplays⟩

theorem Chain.riding (h : Chain w join first sent) :
    ∀ e ∈ sent, e.request.headers.filter (rides w) = first.headers.filter (rides w) := by
  apply h.hops.induction fun e => e.request.headers.filter (rides w) = first.headers.filter (rides w)
  · rintro _ _ hhop hearlier
    obtain ⟨_, _, hredirected⟩ := hhop.redirected
    rw [hredirected.riding, hearlier]
  · intro hne
    rw [h.first _ (List.head_mem_head? hne)]

end Chains

end TinyHermes.Outbound.SafeClient
