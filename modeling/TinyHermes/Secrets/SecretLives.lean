import TinyHermes.Identity.Machines
import TinyHermes.Lib.Execution
import TinyHermes.Lib.Text
import TinyHermes.Secrets.Rotation

/-! `SecretService`, one command after another under whatever KEKs the process has by then: what was once sealed opens. -/
namespace TinyHermes.Secrets
open Lib
open Runs (Uuid Time)
open Identity (fits Role)

inductive CommandError where
  | invalidSecretName | invalidSecretPlaintext | secretNameTaken | unknownSecret
  | refused (e : SecretError)
  deriving DecidableEq

/-- Who asks, from which workspace, and what `user_role` answers of them there. -/
structure Caller extends Actor where
  workspaceId : Uuid
  role : Option Role := none

/-- Whether `_require_writer` lets a caller pass. -/
def Caller.mayWrite (caller : Caller) (scope : SecretScope) : Bool :=
  !caller.isServiceAccount &&
    if scope = .platform then caller.isPlatformAdmin
    else match caller.role with
      | some role => role = .workspaceAdmin
      | none => caller.isPlatformAdmin

def maskPlaintext (plaintext : String) : String :=
  let chars := plaintext.toList
  let kept := if chars.length ≤ 2 then 0 else if chars.length ≤ 4 then 1 else 2
  .ofList (chars.take kept ++ List.replicate (chars.length - 2 * kept) '•' ++ chars.drop (chars.length - kept))

/-- `create` of the store: a name is one secret's in its workspace, or on the platform. -/
def Store.create (store : Store) (id : Uuid) (row : SecretRow) : Except CommandError Store :=
  if ¬ (fits 120 row.name ∧ fits 200 row.mask ∧ fits 64 row.keyId) then .error (.refused .dataError)
  else if (store.lookup id).isSome ∨ store.count (fun _ other =>
      other.scope = row.scope ∧ other.workspaceId = row.workspaceId ∧ other.name = row.name) ≠ 0 then .error .secretNameTaken
  else .ok (store.insert id row)

/-- What `create` draws: the id, and what `seal` takes of `token_bytes`. -/
structure Drawn where
  id : Uuid
  dek : Bytes
  nonce : Bytes
  wrapNonce : Bytes

inductive Command where
  | create (caller : Caller) (name : String) (scope : SecretScope) (plaintext : String) (purpose : SecretPurpose) (drawn : Drawn)
  | disable (caller : Caller) (secretId : Uuid)
  | rewrap (actor : Actor) (wrapNonce : Uuid → Bytes)

/-- A command, and what the process that answers it is set to. -/
structure Call where
  kek : KekSettings
  now : Time
  command : Command

section Service
variable (aes : AesGcm) (b64decode : String → Option Bytes) (kek : KekSettings)

def freshRow (caller : Caller) (name : String) (scope : SecretScope) (plaintext : String) (purpose : SecretPurpose)
    (envelope : Envelope) (now : Time) : SecretRow where
  purpose := purpose
  name := name
  scope := scope
  workspaceId := if scope = .platform then none else some caller.workspaceId
  mask := maskPlaintext plaintext
  ciphertext := envelope.ciphertext
  nonce := envelope.nonce
  wrappedDek := envelope.wrappedDek
  wrapNonce := envelope.wrapNonce
  keyId := envelope.keyId
  createdAt := now
  updatedAt := now

def create (caller : Caller) (name : String) (scope : SecretScope) (plaintext : String) (purpose : SecretPurpose) (drawn : Drawn)
    (now : Time) (store : Store) : Except CommandError Store :=
  let normalized := Text.strip name
  if caller.mayWrite scope = false then .error (.refused .forbiddenSecretAction)
  else if normalized = "" ∨ 120 < normalized.length then .error .invalidSecretName
  else if plaintext = "" then .error .invalidSecretPlaintext
  else match currentKek b64decode kek >>= fun current =>
      Envelope.seal aes drawn.dek drawn.nonce drawn.wrapNonce (encoded plaintext) current kek.currentId with
    | .error e => .error (.refused e)
    | .ok envelope => store.create drawn.id (freshRow caller normalized scope plaintext purpose envelope now)

def disable (caller : Caller) (secretId : Uuid) (now : Time) (store : Store) : Except CommandError Store :=
  match store.get secretId with
  | none => .error .unknownSecret
  | some record =>
    -- `_visible`
    if record.scope ≠ .platform ∧ record.workspaceId ≠ some caller.workspaceId then .error .unknownSecret
    else if caller.mayWrite record.scope = false then .error (.refused .forbiddenSecretAction)
    else .ok (store.modify secretId fun row => { row with status := .disabled, updatedAt := now })

def Call.perform (call : Call) (store : Store) : Except CommandError Store :=
  match call.command with
  | .create caller name scope plaintext purpose drawn =>
    Secrets.create aes b64decode call.kek caller name scope plaintext purpose drawn call.now store
  | .disable caller secretId => Secrets.disable caller secretId call.now store
  | .rewrap actor wrapNonce =>
    match Secrets.rewrap aes b64decode call.kek wrapNonce call.now actor store with
    | .error e => .error (.refused e)
    | .ok (_, after) => .ok after

/-- What is refused changes nothing. -/
def Commands (store : Store) (call : Call) (_ : Unit) (store' : Store) : Prop := call.perform aes b64decode store = .ok store'

/-- The process has no other KEK under a name than `kekNamed` has. -/
structure Named (kekNamed : String → Option Bytes) : Prop where
  current : ∀ bytes, currentKek b64decode kek = .ok bytes → kekNamed kek.currentId = some bytes
  previous : ∀ bytes, previousKek b64decode kek = .ok bytes → kekNamed kek.previousId = some bytes

end Service

/-- All of a secret but its wrap, whether it is disabled, and when it was touched. -/
def SecretRow.face (row : SecretRow) : SecretRow :=
  { row with status := .active, wrappedDek := [], wrapNonce := [], keyId := "", updatedAt := 0 }

structure Lived (aes : AesGcm) (kekNamed : String → Option Bytes) (row row' : SecretRow) : Prop where
  face : row'.face = row.face
  disabled : row.status = .disabled → row'.status = .disabled
  opens : ∀ plaintext, plaintextOf aes kekNamed row = some plaintext → plaintextOf aes kekNamed row' = some plaintext

section Lives
variable {aes : AesGcm} {b64decode : String → Option Bytes} {kekNamed : String → Option Bytes} {kek : KekSettings}
  {store store' : Store} {id : Uuid} {row : SecretRow}

theorem Lived.refl (row : SecretRow) : Lived aes kekNamed row row := ⟨rfl, fun h => h, fun _ h => h⟩

theorem Lived.trans {row' row'' : SecretRow} (h : Lived aes kekNamed row row') (h' : Lived aes kekNamed row' row'') :
    Lived aes kekNamed row row'' where
  face := h'.face.trans h.face
  disabled := h'.disabled ∘ h.disabled
  opens plaintext hopens := h'.opens plaintext (h.opens plaintext hopens)

theorem create_sealed {caller : Caller} {name plaintext : String} {scope : SecretScope} {purpose : SecretPurpose} {drawn : Drawn}
    {now : Time} (hnamed : Named b64decode kek kekNamed)
    (h : create aes b64decode kek caller name scope plaintext purpose drawn now store = .ok store') :
    ∃ row, store.lookup drawn.id = none ∧ store' = store.insert drawn.id row ∧
      plaintextOf aes kekNamed row = some (encoded plaintext) := by
  unfold create at h
  dsimp only at h
  split_ifs at h
  cases hsealed : currentKek b64decode kek >>= fun current =>
      Envelope.seal aes drawn.dek drawn.nonce drawn.wrapNonce (encoded plaintext) current kek.currentId with
  | error =>
    rw [hsealed] at h
    cases h
  | ok envelope =>
    rw [hsealed] at h
    dsimp only [Store.create] at h
    split_ifs at h with _ hclash
    rw [not_or, Option.isSome_iff_ne_none, not_not] at hclash
    refine ⟨_, hclash.1, (Except.ok.inj h).symm, ?_⟩
    obtain ⟨current, hcurrent, hseal⟩ := Fallible.bind_ok.mp hsealed
    have hopened : ∃ other, Envelope.seal aes drawn.dek drawn.nonce drawn.wrapNonce (encoded plaintext) current kek.currentId = .ok other ∧
        other.keyId = kek.currentId ∧ Envelope.unseal aes other current = .ok (encoded plaintext) :=
      unseal_seal (currentKek_length hcurrent) drawn.nonce kek.currentId
    obtain ⟨_, hseal', hkey, hopens⟩ := hopened
    cases hseal'.symm.trans hseal
    dsimp only [plaintextOf, SecretRow.envelope, freshRow]
    rw [hkey, hnamed.current _ hcurrent, Option.bind_some, ← hkey, hopens]
    rfl

theorem rewrap_lives {wrapNonce : Uuid → Bytes} {now : Time} {actor : Actor} {result : RewrapResult} (hnamed : Named b64decode kek kekNamed)
    (h : rewrap aes b64decode kek wrapNonce now actor store = .ok (result, store')) (hrow : store.lookup id = some row) :
    ∃ row', store'.lookup id = some row' ∧ Lived aes kekNamed row row' := by
  unfold rewrap at h
  split_ifs at h
  obtain ⟨current, hcurrent, h⟩ := Fallible.bind_ok.mp h
  obtain ⟨previous, hprevious, h⟩ := Fallible.bind_ok.mp h
  obtain ⟨last, hlast, h⟩ := Fallible.bind_ok.mp h
  cases h
  have hlength := currentKek_length hcurrent
  have hturned := foldlM_turned hlength (previousKek_length hprevious) listByKeyId_nodup (fun r hr => (mem_listByKeyId.mp hr).1) hlast
  by_cases hkey : row.keyId = kek.previousId
  · have hrow' := hturned.lookup_under hrow hkey
    refine ⟨_, hrow', ?_, ?_, ?_⟩
    · unfold rotatedRow
      split <;> rfl
    · intro hdisabled
      unfold rotatedRow
      split <;> exact hdisabled
    · intro plaintext hopens
      obtain ⟨_, hfound, hopens'⟩ := hturned.kept hlength ⟨hnamed.current _ hcurrent, hnamed.previous _ hprevious⟩ hrow hopens
      cases hrow'.symm.trans hfound
      exact hopens'
  · refine ⟨row, ?_, .refl row⟩
    rw [hturned.lookup_beside, hrow]
    intro _ hrow'
    cases hrow.symm.trans hrow'
    exact hkey

theorem perform_lives {call : Call} (hnamed : Named b64decode call.kek kekNamed) (h : call.perform aes b64decode store = .ok store')
    (hrow : store.lookup id = some row) : ∃ row', store'.lookup id = some row' ∧ Lived aes kekNamed row row' := by
  obtain ⟨kek, now, command⟩ := call
  cases command with
  | create caller name scope plaintext purpose drawn =>
    obtain ⟨_, hnew, rfl, _⟩ := create_sealed hnamed h
    have hne : id ≠ drawn.id := by
      rintro rfl
      rw [hnew] at hrow
      cases hrow
    exact ⟨row, (AList.lookup_insert_ne hne).trans hrow, .refl row⟩
  | disable caller secretId =>
    unfold Call.perform disable at h
    dsimp only at h
    split at h
    · cases h
    · split_ifs at h
      cases h
      rw [Table.lookup_modify]
      split_ifs
      · rw [hrow]
        exact ⟨_, rfl, rfl, fun _ => rfl, fun _ h => h⟩
      · exact ⟨row, hrow, .refl row⟩
  | rewrap actor wrapNonce =>
    unfold Call.perform at h
    dsimp only at h
    split at h
    · cases h
    · next hresult =>
      cases h
      exact rewrap_lives hnamed hresult hrow

/-- Whatever is created, disabled and wrapped anew, as long as no name stands for two KEKs: a secret stays what it is, disabled for
good once it is, and opens under the KEK that its wrap then names; and so does each secret created on the way, onto what was handed
in. -/
theorem secrets_live {start : Store} {log : List (Commit Store Call Unit)}
    (hrun : Execution (Commands aes b64decode) start log store) (hnamed : ∀ c ∈ log, Named b64decode c.input.kek kekNamed) :
    (∀ id row, start.lookup id = some row → ∃ row', store.lookup id = some row' ∧ Lived aes kekNamed row row') ∧
      ∀ c ∈ log, ∀ caller name scope plaintext purpose drawn,
        c.input.command = .create caller name scope plaintext purpose drawn →
        ∃ row, store.lookup drawn.id = some row ∧ plaintextOf aes kekNamed row = some (encoded plaintext) := by
  induction hrun with
  | nil => exact ⟨fun id row hrow => ⟨row, hrow, .refl row⟩, fun _ hc => absurd hc List.not_mem_nil⟩
  | @snoc log before after call _ _ hstep ih =>
    obtain ⟨hlived, hcreated⟩ := ih fun c hc => hnamed c (List.mem_append_left _ hc)
    have hlast : Named b64decode call.kek kekNamed := hnamed _ (List.mem_append_right _ (List.mem_singleton_self _))
    refine ⟨?_, ?_⟩
    · intro id row hrow
      obtain ⟨row', hrow', hlived⟩ := hlived id row hrow
      obtain ⟨row'', hrow'', hnext⟩ := perform_lives hlast hstep hrow'
      exact ⟨row'', hrow'', hlived.trans hnext⟩
    · intro c hc caller name scope plaintext purpose drawn hcommand
      rcases List.mem_append.mp hc with hc | hc
      · obtain ⟨row, hrow, hopens⟩ := hcreated c hc caller name scope plaintext purpose drawn hcommand
        obtain ⟨row', hrow', hnext⟩ := perform_lives hlast hstep hrow
        exact ⟨row', hrow', hnext.opens _ hopens⟩
      · rw [List.mem_singleton.mp hc] at hcommand
        obtain ⟨_, _, _⟩ := call
        cases hcommand
        obtain ⟨row, _, rfl, hopens⟩ := create_sealed hlast hstep
        exact ⟨row, AList.lookup_insert _, hopens⟩

/-! The rotation from `v1` to `v2` again. -/

def keks (keyId : String) : Option Bytes :=
  if keyId = "v1" then some (List.replicate 32 0) else if keyId = "v2" then some (List.replicate 32 1) else none

theorem rotation_named : Named decoded rotation keks := by
  constructor
  · intro _ h
    have hcurrent : currentKek decoded rotation = .ok (List.replicate 32 1) := by decide
    cases hcurrent.symm.trans h
    rfl
  · intro _ h
    have hprevious : previousKek decoded rotation = .ok (List.replicate 32 0) := by decide
    cases hprevious.symm.trans h
    rfl

def rotateNow : Call where
  kek := rotation
  now := 1
  command := .rewrap admin fun _ => List.replicate 12 5

theorem rotated_secret_lives : ∃ after row, Commands Sealing.framed decoded storeWithLost rotateNow () after ∧
    after.lookup 1 = some row ∧ Lived Sealing.framed keks sealedRow row := by
  have hcurrent : currentKek decoded rotation = .ok (List.replicate 32 1) := by decide
  have hprevious : previousKek decoded rotation = .ok (List.replicate 32 0) := by decide
  obtain ⟨result, after, hresult, _⟩ :=
    @rewrap_returns Sealing.framed decoded rotation _ _ admin storeWithLost (fun _ => List.replicate 12 5) 1 rfl rfl
      hcurrent hprevious (by decide) storeWithLost_clean
  have hstep : Commands Sealing.framed decoded storeWithLost rotateNow () after := by
    unfold Commands Call.perform rotateNow
    dsimp only
    rw [hresult]
  have hnamed : ∀ c ∈ [(⟨storeWithLost, rotateNow, (), after⟩ : Commit Store Call Unit)], Named decoded c.input.kek keks := by
    intro c hc
    rw [List.mem_singleton.mp hc]
    exact rotation_named
  obtain ⟨row, hrow, hlived⟩ := (secrets_live (.snoc .nil hstep) hnamed).1 1 sealedRow (AList.lookup_insert _)
  exact ⟨after, row, hstep, hrow, hlived⟩

end Lives
end TinyHermes.Secrets
