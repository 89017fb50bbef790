import TinyHermes.Egress.Proxy
import TinyHermes.Outbound.SafeClient
import TinyHermes.Tools.ToolAnswers

/-! Sending a composed call, with its credential, and everything that goes out on its behalf. -/
namespace TinyHermes.Tools
open Lib
open Egress (HeadReading)
open Outbound Outbound.SafeClient

/-- `MAX_RESPONSE_BYTES`. -/
def maxResponseBytes : Nat := 65536

/-- `without_credential`. -/
def withoutCredential (body : String) (token : Option String) : String :=
  match token with
  | none | some "" => body
  | some token => String.ofList (replaceFrom token.toList "[redacted credential]".toList 0 body.toList)

/-- What a sender has besides its client: the credentials, and how bytes are read as text. -/
structure SenderParts where
  resolve : String → Option String
  decode : List UInt8 → String

section Sending
variable (w : HeadReading) (join : List Char → List Char → List Char) (client : SafeOutboundClient) (far : FarEnd)
  (parts : SenderParts)

def planRequest (plan : HttpRequestPlan) (token : Option String) : Request where
  method := plan.method
  url := plan.url
  content := plan.body
  headers := plan.headers ++ (token.map fun token => ("Authorization", "Bearer " ++ token)).toList

/-- What the answer to a call says, where its request raised nothing unforeseen. -/
def toolAnswer (token : Option String) : Except Failure Response → Option HttpToolAnswer
  | .error (.refused reason) => some { statusCode := none, body := "", refusal := some reason }
  | .error .tooManyRedirects => some { statusCode := none, body := "", refusal := some "too_many_redirects" }
  | .error .tooLarge => some { statusCode := none, body := "", refusal := some "response_too_large" }
  | .error (.unreachable _) => some { statusCode := none, body := "", refusal := some "endpoint_unreachable" }
  | .error .raised => none
  | .ok answer =>
    if maxResponseBytes < answer.content.length then
      some { statusCode := some answer.status, body := "", refusal := some "response_too_large" }
    else some { statusCode := some answer.status, body := withoutCredential (parts.decode answer.content) token }

/-- `OutboundHttpToolSender.send`: what goes out, and what comes back. -/
def sendPlan (plan : HttpRequestPlan) (credentialRef : Option String) : List Exchange × Option HttpToolAnswer :=
  match credentialRef with
  | none =>
    let (sent, outcome) := request w join client far (planRequest plan none)
    (sent, toolAnswer parts none outcome)
  | some reference =>
    match parts.resolve reference with
    | none => ([], some { statusCode := none, body := "", refusal := some "credential_unavailable" })
    | some token =>
      let (sent, outcome) := request w join client far (planRequest plan (some token))
      (sent, toolAnswer parts (some token) outcome)

end Sending

section Sent
variable {w : HeadReading} {join : List Char → List Char → List Char} {client : SafeOutboundClient} {far : FarEnd}
  {parts : SenderParts} {plan : HttpRequestPlan} {credentialRef : Option String}

theorem named_authorization (w : HeadReading) (value : String) : named w "authorization" ("Authorization", value) = true := by
  have hlatin : ∀ c ∈ "Authorization".toList, c.toNat < 256 := by
    intro _ hc
    rw [show "Authorization".toList = ['A', 'u', 't', 'h', 'o', 'r', 'i', 'z', 'a', 't', 'i', 'o', 'n'] from rfl] at hc
    fin_cases hc <;> decide
  rw [named, w.lower_latin _ hlatin]
  rfl

theorem planRequest_riding (plan : HttpRequestPlan) (token : Option String) :
    (planRequest plan token).headers.filter (rides w) = plan.headers.filter (rides w) := by
  cases token with
  | none => simp [planRequest]
  | some token =>
    have hcredential : rides w ("Authorization", "Bearer " ++ token) = false := by
      rw [rides, named_authorization]
      rfl
    simp [planRequest, hcredential]

theorem sendPlan_chain (w : HeadReading) (join : List Char → List Char → List Char) (client : SafeOutboundClient) (far : FarEnd)
    (parts : SenderParts) (plan : HttpRequestPlan) (credentialRef : Option String) :
    ∃ token, Chain w join (planRequest plan token) (sendPlan w join client far parts plan credentialRef).1 ∧
      (sendPlan w join client far parts plan credentialRef).1.length ≤ client.maxRedirects + 1 := by
  unfold sendPlan
  cases credentialRef with
  | none => exact ⟨none, request_chain w join client far (planRequest plan none)⟩
  | some reference =>
    cases hresolve : parts.resolve reference with
    | none =>
      simp only [hresolve]
      exact ⟨none, { first := by simp, hops := List.isChain_nil }, Nat.zero_le _⟩
    | some token =>
      simp only [hresolve]
      exact ⟨some token, request_chain w join client far (planRequest plan (some token))⟩

/-- What goes out for a plan: few requests, the credential only where the plan goes, more than a plain read only behind redirects
that keep the request, and every other header with all of them. -/
structure GoesAlong (w : HeadReading) (maxRedirects : Nat) (plan : HttpRequestPlan) (sent : List Exchange) : Prop where
  few : sent.length ≤ maxRedirects + 1
  credential : ∀ (i : Nat) (e : Exchange), sent[i]? = some e → carries w "authorization" e.request →
    ∀ j ≤ i, ∀ e' : Exchange, sent[j]? = some e' →
      SafeClient.origin w e'.request.url = SafeClient.origin w plan.url
  writes : ∀ (i : Nat) (e : Exchange), sent[i]? = some e →
    (e.request.method ≠ "GET" ∧ e.request.method ≠ "HEAD") ∨ e.request.content.isSome = true →
    (∀ j < i, ∀ e' : Exchange, sent[j]? = some e' → replayed e'.reply) ∧
      e.request.method = plan.method ∧ e.request.content = plan.body
  riding : ∀ e ∈ sent, e.request.headers.filter (rides w) = plan.headers.filter (rides w)

/-- Whatever chain of redirects a call is answered with. -/
theorem sent_along (w : HeadReading) (join : List Char → List Char → List Char) (client : SafeOutboundClient) (far : FarEnd)
    (parts : SenderParts) (plan : HttpRequestPlan) (credentialRef : Option String) :
    GoesAlong w client.maxRedirects plan (sendPlan w join client far parts plan credentialRef).1 := by
  obtain ⟨_, hchain, hlength⟩ := sendPlan_chain w join client far parts plan credentialRef
  constructor
  · exact hlength
  · intro i e he hcarries
    exact hchain.authorization_home he hcarries
  · intro _ e he hwrites
    exact hchain.write_replayed he (hwrites.imp_left And.left)
  · intro e he
    rw [hchain.riding e he, planRequest_riding]

/-- `POST` with a body, to be sent once only. -/
def payment : HttpRequestPlan where
  method := "POST"
  url := "https://a/pay".toList
  body := some "1"
  headers := [("Idempotency-Key", "k")]
  readOnly := false

def movedForGood : FarEnd where
  connects _ _ := true
  reply sent _ :=
    if sent.isEmpty then .response { status := 308, location := "https://b/pay".toList }
    else .response { status := 200 }

/-- `urljoin` of a location with a scheme. -/
def absolute (_ location : List Char) : List Char := location

def noCredentials : SenderParts where
  resolve _ := none
  decode _ := ""

/-- A redirect that keeps the request as it was takes a write, its body and its key to another origin. -/
theorem payment_leaves : ¬ ∀ e ∈ (sendPlan Egress.plainHeads absolute {} movedForGood noCredentials payment none).1,
    (e.request.method ≠ "GET" ∧ e.request.method ≠ "HEAD") ∨ e.request.content.isSome = true ∨
        carries Egress.plainHeads "idempotency-key" e.request →
      SafeClient.origin Egress.plainHeads e.request.url = SafeClient.origin Egress.plainHeads payment.url := by
  have hsent : (sendPlan Egress.plainHeads absolute {} movedForGood noCredentials payment none).1[1]? =
      some ⟨{ planRequest payment none with url := "https://b/pay".toList }, .response { status := 200 }⟩ := by
    decide +kernel
  intro h
  have hhome := h _ (List.mem_of_getElem? hsent) (.inr (.inl rfl))
  exact absurd hhome (by decide +kernel)

end Sent

end TinyHermes.Tools
