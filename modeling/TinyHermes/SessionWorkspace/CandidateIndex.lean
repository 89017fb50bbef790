import TinyHermes.Lib.Hex
import TinyHermes.SessionWorkspace.Canonical
import TinyHermes.SessionWorkspace.Staging

/-! The candidate index of an upload: what a checkpoint stores of it, and what the collector makes of that. -/
namespace TinyHermes.SessionWorkspace
open Lib JsonText Hex

section Keys

def candidateIndexObject (workspaceId sessionId uploadId : Nat) : String :=
  "workspaces/" ++ uuidText workspaceId ++ "/sessions/" ++ uuidText sessionId ++ "/uploads/" ++ uuidText uploadId ++ ".index.json"

def manifestObject (workspaceId sessionId revisionId : Nat) : String :=
  "workspaces/" ++ uuidText workspaceId ++ "/sessions/" ++ uuidText sessionId ++ "/manifests/" ++ uuidText revisionId ++ ".json"

/-- The key of `blob_object`, for a digest that it does not refuse. -/
def blobKey (workspaceId sessionId : Nat) (digest : String) : String :=
  "workspaces/" ++ uuidText workspaceId ++ "/sessions/" ++ uuidText sessionId ++ "/blobs/sha256/" ++ digest

end Keys

section Index

structure CandidateIndex where
  uploadId : Nat
  finalKeys : List String
  deriving DecidableEq

/-- `INDEX_SCHEMA_VERSION`. -/
def indexSchemaVersion : Int := 1

/-- `INDEX_LIMIT_BYTES`. -/
def indexLimitBytes : Nat := 1024 * 1024

def CandidateIndex.document (index : CandidateIndex) : Json := .object [
  ("schema_version", .int indexSchemaVersion),
  ("upload_id", .string (uuidText index.uploadId)),
  ("final_keys", .array (index.finalKeys.map .string))]

def encodeCandidateIndex (floatText : ℚ → List Char) (index : CandidateIndex) : List UInt8 :=
  Utf8.encode (write floatText index.document)

/-- What `CandidateIndexInvalid` is raised for. -/
inductive IndexInvalid where
  | notJson
  | notObject
  | schema
  | differentUpload
  | keysNotList
  | digestMismatch
  | foreignKey
  | tooLarge
  deriving DecidableEq, Repr

/-- `value == INDEX_SCHEMA_VERSION`, where `True` and `1.0` are `1`. -/
def isSchemaVersion : Json → Bool
  | .int value => value = indexSchemaVersion
  | .bool value => value
  | .float value => value = 1
  | _ => false

def keyOf : Json → Except IndexInvalid String
  | .string key => .ok key
  | _ => .error .keysNotList

def parseCandidateIndex (reader : Reader) (data : List UInt8) (expected : Nat) : Except IndexInvalid CandidateIndex :=
  match loadsBytes reader.decodeOther reader.floatOf data with
  | none => .error .notJson
  | some (.object document) =>
    if !(document.lookup "schema_version").any isSchemaVersion then .error .schema
    else if !(document.lookup "upload_id").any (Json.isText (uuidText expected)) then .error .differentUpload
    else match document.lookup "final_keys" with
      | some (.array rawKeys) => do
        let finalKeys ← rawKeys.mapM keyOf
        return { uploadId := expected, finalKeys }
      | _ => .error .keysNotList
  | some _ => .error .notObject

end Index

section Writing

/-- An upload's row, as far as the collector reads it. -/
structure ObjectUpload where
  uploadId : Nat
  workspaceId : Nat
  candidateIndexKey : String
  candidateIndexSha256 : Option String

structure WorkspaceCheckpoint where
  workspaceId : Nat
  sessionId : Nat
  quota : WorkspaceQuota

/-- `MANIFEST_LIMIT_BYTES`. -/
def manifestLimitBytes : Nat := 128 * 1024 * 1024

inductive CheckpointFailure where
  | refused (refusal : Refusal)
  | stage (failure : StageFailure)
  | objectTooLarge (limit : Nat)
  /-- "the candidate index did not persist" -/
  | notPersisted
  deriving DecidableEq

/-- `put_stream` of bytes that are all there, with the digest it answers. -/
def putOnce (hasher : Hasher) (octets : List UInt8) (limit : Nat) : Except CheckpointFailure String :=
  if limit < octets.length then .error (.objectTooLarge limit) else .ok (hasher.digest octets)

structure Finalizing where
  upload : ObjectUpload
  index : CandidateIndex
  octets : List UInt8

inductive CheckpointOutcome where
  | limitExceeded
  | unchanged
  | finalizing (stored : Finalizing)

/-- What a checkpoint meets: the ids it draws, the frozen tree, what `stat` finds of the blobs and of the index. -/
structure Surroundings where
  uploadId : Nat
  revisionId : Nat
  archive : List ArchiveMember
  held : String → Bool
  persisted : Bool

variable (nfc : String → String) (hasher : Hasher) (floatText : ℚ → List Char)

def WorkspaceManifest.sha256 (m : WorkspaceManifest) : String := hasher.digest (m.canonicalBytes floatText)

def scannedManifest (archive : List ArchiveMember) : Except CheckpointFailure WorkspaceManifest :=
  match manifestOfScan nfc (scanTree hasher archive) with
  | .ok m => .ok m
  | .error refusal => .error (.refused refusal)

def stagedDigests (m : WorkspaceManifest) (base : Option WorkspaceManifest) (around : Surroundings) :
    Except CheckpointFailure (List String) :=
  match stageBodies nfc hasher m base around.held around.archive with
  | .ok staged => .ok (staged.map (·.1)).dedup
  | .error failure => .error (.stage failure)

/-- `final_keys`. -/
def finalKeys (command : WorkspaceCheckpoint) (revisionId : Nat) (digests : List String) : List String :=
  (digests.insertionSort (· ≤ ·)).map (blobKey command.workspaceId command.sessionId) ++
    [manifestObject command.workspaceId command.sessionId revisionId]

/-- `checkpoint`, as far as `mark_finalizing`; `base` is what `_base_manifest` answers. -/
def checkpoint (command : WorkspaceCheckpoint) (base : Option WorkspaceManifest) (around : Surroundings) :
    Except CheckpointFailure CheckpointOutcome := do
  let m ← scannedManifest nfc hasher around.archive
  if !(measure m command.quota).allowed then return .limitExceeded
  else if base.any fun b => m.sha256 hasher floatText = b.sha256 hasher floatText then return .unchanged
  else do
    let staged ← stagedDigests nfc hasher m base around
    let _ ← putOnce hasher (m.canonicalBytes floatText) manifestLimitBytes
    let index := { uploadId := around.uploadId, finalKeys := finalKeys command around.revisionId staged : CandidateIndex }
    let octets := encodeCandidateIndex floatText index
    let sha256 ← putOnce hasher octets manifestLimitBytes
    if !around.persisted then .error .notPersisted
    else return .finalizing {
      upload := {
        uploadId := around.uploadId
        workspaceId := command.workspaceId
        candidateIndexKey := candidateIndexObject command.workspaceId command.sessionId around.uploadId
        candidateIndexSha256 := some sha256 }
      index, octets }

end Writing

section Collecting

/-- `_read_bounded`; `received` is what came so far. -/
def readBounded (limit : Nat) (received : List UInt8) : List (List UInt8) → Except IndexInvalid (List UInt8)
  | [] => .ok received
  | chunk :: rest =>
    if limit < (received ++ chunk).length then .error .tooLarge else readBounded limit (received ++ chunk) rest

/-- `key.startswith(_)` of what a workspace's keys start with. -/
def belongsTo (workspaceId : Nat) (key : String) : Bool :=
  ("workspaces/" ++ uuidText workspaceId ++ "/").toList.isPrefixOf key.toList

/-- `_read_index`; `answer` is the object's chunks, or that it is missing. -/
def readIndex (hasher : Hasher) (reader : Reader) (upload : ObjectUpload) (answer : Option (List (List UInt8))) :
    Except IndexInvalid (Option CandidateIndex) :=
  match answer with
  | none => .ok none
  | some chunks => do
    let data ← readBounded indexLimitBytes [] chunks
    let index ← parseCandidateIndex reader data upload.uploadId
    if upload.candidateIndexSha256.any fun sha256 => hasher.digest data ≠ sha256 then .error .digestMismatch
    else if index.finalKeys.any fun key => !belongsTo upload.workspaceId key then .error .foreignKey
    else return some index

end Collecting

variable {digest : String}

section KeyTexts

/-- A text that is written as itself, an octet for each character. -/
def Literals (text : String) : Prop := ∀ c ∈ text.toList, Literal c

theorem Literals.append {a b : String} (ha : Literals a) (hb : Literals b) : Literals (a ++ b) := by
  intro c hc
  rw [String.toList_append] at hc
  rcases List.mem_append.mp hc with hc | hc
  · exact ha c hc
  · exact hb c hc

theorem literal_digitChar : ∀ n < 16, Literal n.digitChar := by decide

theorem literal_alphabet {c : Char} (hc : c ∈ alphabet) : Literal c := by
  have hdigits : alphabet = (List.range 16).map Nat.digitChar := rfl
  rw [hdigits] at hc
  obtain ⟨n, hn, rfl⟩ := List.mem_map.mp hc
  exact literal_digitChar n (List.mem_range.mp hn)

theorem literals_parts : ∀ text ∈ ["workspaces/", "/sessions/", "/blobs/sha256/", "/manifests/", ".json"], Literals text := by
  simp [Literals, Literal]

theorem literals_uuidText (id : Nat) : Literals (uuidText id) := by
  intro _ hc
  rcases mem_uuidText hc with rfl | hc
  · decide
  · exact literal_alphabet hc

theorem literals_digest (h : isHexDigest digest = true) : Literals digest := by
  rw [isHexDigest, Bool.and_eq_true, List.all_eq_true] at h
  intro c hc
  exact literal_alphabet (of_decide_eq_true (h.2 c hc))

theorem literals_session (workspaceId sessionId : Nat) :
    Literals ("workspaces/" ++ uuidText workspaceId ++ "/sessions/" ++ uuidText sessionId) := by
  have hworkspaces : Literals "workspaces/" := literals_parts _ (by simp)
  have hsessions : Literals "/sessions/" := literals_parts _ (by simp)
  exact ((hworkspaces.append (literals_uuidText _)).append hsessions).append (literals_uuidText _)

theorem length_session (workspaceId sessionId : Nat) :
    ("workspaces/" ++ uuidText workspaceId ++ "/sessions/" ++ uuidText sessionId).toList.length = 93 := by
  simp only [String.toList_append, List.length_append, length_uuidText]
  rfl

theorem literals_blobKey (workspaceId sessionId : Nat) (h : isHexDigest digest = true) :
    Literals (blobKey workspaceId sessionId digest) := by
  have hblobs : Literals "/blobs/sha256/" := literals_parts _ (by simp)
  exact ((literals_session workspaceId sessionId).append hblobs).append (literals_digest h)

theorem literals_manifestObject (workspaceId sessionId revisionId : Nat) :
    Literals (manifestObject workspaceId sessionId revisionId) := by
  have hmanifests : Literals "/manifests/" := literals_parts _ (by simp)
  have hjson : Literals ".json" := literals_parts _ (by simp)
  exact (((literals_session workspaceId sessionId).append hmanifests).append (literals_uuidText revisionId)).append hjson

theorem blobKey_session (workspaceId sessionId : Nat) (digest : String) : blobKey workspaceId sessionId digest =
    "workspaces/" ++ uuidText workspaceId ++ "/sessions/" ++ uuidText sessionId ++ ("/blobs/sha256/" ++ digest) :=
  String.append_assoc

theorem manifestObject_session (workspaceId sessionId revisionId : Nat) : manifestObject workspaceId sessionId revisionId =
    "workspaces/" ++ uuidText workspaceId ++ "/sessions/" ++ uuidText sessionId ++ ("/manifests/" ++ (uuidText revisionId ++ ".json")) :=
  String.append_assoc.trans String.append_assoc

theorem length_blobKey (workspaceId sessionId : Nat) (h : isHexDigest digest = true) :
    (blobKey workspaceId sessionId digest).toList.length = 171 := by
  rw [isHexDigest, Bool.and_eq_true] at h
  have hdigest : digest.toList.length = 64 := (String.length_toList).trans (of_decide_eq_true h.1)
  have hblobs : "/blobs/sha256/".toList.length = 14 := rfl
  rw [blobKey_session, String.toList_append, List.length_append, length_session, String.toList_append, List.length_append, hblobs, hdigest]

theorem length_manifestObject (workspaceId sessionId revisionId : Nat) :
    (manifestObject workspaceId sessionId revisionId).toList.length = 145 := by
  have hmanifests : "/manifests/".toList.length = 11 := rfl
  have hjson : ".json".toList.length = 5 := rfl
  rw [manifestObject_session, String.toList_append, List.length_append, length_session, String.toList_append, List.length_append,
    String.toList_append, List.length_append, hmanifests, length_uuidText, hjson]

theorem belongsTo_append (workspaceId : Nat) (rest : String) :
    belongsTo workspaceId ("workspaces/" ++ uuidText workspaceId ++ "/" ++ rest) = true := by
  rw [belongsTo, @String.toList_append _ rest, List.isPrefixOf_iff_prefix]
  exact List.prefix_append _ _

theorem belongsTo_session (workspaceId sessionId : Nat) (rest : String) :
    belongsTo workspaceId ("workspaces/" ++ uuidText workspaceId ++ "/sessions/" ++ uuidText sessionId ++ rest) = true := by
  have hsplit : "workspaces/" ++ uuidText workspaceId ++ "/sessions/" ++ uuidText sessionId ++ rest =
      "workspaces/" ++ uuidText workspaceId ++ "/" ++ ("sessions/" ++ uuidText sessionId ++ rest) := by
    have hsessions : "/sessions/" = "/" ++ "sessions/" := rfl
    rw [hsessions]
    simp only [String.append_assoc]
  rw [hsplit, belongsTo_append]

theorem belongsTo_blobKey (workspaceId sessionId : Nat) (digest : String) :
    belongsTo workspaceId (blobKey workspaceId sessionId digest) = true := by
  rw [blobKey_session]
  exact belongsTo_session workspaceId sessionId _

theorem belongsTo_manifestObject (workspaceId sessionId revisionId : Nat) :
    belongsTo workspaceId (manifestObject workspaceId sessionId revisionId) = true := by
  rw [manifestObject_session]
  exact belongsTo_session workspaceId sessionId _

end KeyTexts

section RoundTrip
variable {floatText : ℚ → List Char} {index : CandidateIndex}

def CandidateIndex.saved (index : CandidateIndex) : Document := [
  ("final_keys", .array (index.finalKeys.map .string)),
  ("schema_version", .int indexSchemaVersion),
  ("upload_id", .string (uuidText index.uploadId))]

theorem CandidateIndex.saved_keys (index : CandidateIndex) : (index.saved.map (·.1)).Pairwise (· < ·) := by
  change ["final_keys", "schema_version", "upload_id"].Pairwise (· < ·)
  decide

theorem write_index (index : CandidateIndex) : write floatText index.document = write floatText (.object index.saved) := by
  have hplaces : [0, 1, 2].Perm ([2, 0, 1] : List (Fin 3)) := by decide
  apply write_object_perm
  · exact hplaces.map fun i => (([("schema_version", .int indexSchemaVersion), ("upload_id", .string (uuidText index.uploadId)),
      ("final_keys", .array (index.finalKeys.map .string))] : Document).get i)
  · exact index.saved_keys

theorem CandidateIndex.plain_saved (index : CandidateIndex) : Plain (.object index.saved) := by
  apply Plain.object
  · exact List.pairwise_map.mp index.saved_keys
  · intro _ hf
    simp only [CandidateIndex.saved, List.mem_cons, List.not_mem_nil, or_false] at hf
    rcases hf with rfl | rfl | rfl
    · apply Plain.array
      intro _ hitem
      obtain ⟨key, _, rfl⟩ := List.mem_map.mp hitem
      exact Plain.string key
    · exact Plain.int _
    · exact Plain.string _

theorem mapM_keyOf (keys : List String) : (keys.map Json.string).mapM keyOf = .ok keys := by
  apply mapM_of_forall₂
  rw [List.forall₂_map_left_iff]
  exact List.forall₂_same.mpr fun _ _ => rfl

theorem parseCandidateIndex_encode (reader : Reader) (index : CandidateIndex) :
    parseCandidateIndex reader (encodeCandidateIndex floatText index) index.uploadId = .ok index := by
  have hloads : loadsBytes reader.decodeOther reader.floatOf (encodeCandidateIndex floatText index) = some (.object index.saved) := by
    have hread := loads_write floatText reader.floatOf index.plain_saved
    rw [encodeCandidateIndex, write_index]
    rw [write_object floatText index.saved_keys] at hread ⊢
    obtain ⟨rest, hrest⟩ : ∃ rest, '\x7b' :: (commas (index.saved.map fun f => writeField (f.1, write floatText f.2)) ++ ['\x7d']) =
      '\x7b' :: '"' :: rest := by
      rw [CandidateIndex.saved, List.map_cons, List.map_cons, commas_cons (List.cons_ne_nil _ _), writeField, writeString]
      exact ⟨_, rfl⟩
    rw [hrest] at hread ⊢
    rw [loadsBytes_encode reader.decodeOther reader.floatOf (by decide) (by decide)]
    exact hread
  have hversion : (index.saved.lookup "schema_version").any isSchemaVersion = true := rfl
  have hnamed : index.saved.lookup "upload_id" = some (.string (uuidText index.uploadId)) := rfl
  have hupload : (index.saved.lookup "upload_id").any (Json.isText (uuidText index.uploadId)) = true := by
    rw [hnamed, Option.any_some, Json.isText, decide_eq_true_eq]
  have hkeys : index.saved.lookup "final_keys" = some (.array (index.finalKeys.map .string)) := rfl
  unfold parseCandidateIndex
  rw [hloads]
  dsimp only
  rw [hversion, hupload, hkeys, Bool.not_true, if_neg Bool.false_ne_true, if_neg Bool.false_ne_true]
  dsimp only
  rw [mapM_keyOf]
  rfl

end RoundTrip

section Size
variable {floatText : ℚ → List Char} {index : CandidateIndex} {command : WorkspaceCheckpoint} {revisionId : Nat}
  {digests : List String}

theorem Literals.writeString {text : String} (h : Literals text) :
    (∀ c ∈ writeString text, Literal c ∨ c = '"') ∧ (writeString text).length = text.toList.length + 2 := by
  rw [writeString_literal h]
  constructor
  · intro c hc
    simp only [List.mem_cons, List.mem_append, List.not_mem_nil, or_false] at hc
    rcases hc with rfl | hc | rfl
    · exact .inr rfl
    · exact .inl (h c hc)
    · exact .inr rfl
  · simp

theorem write_index_text (index : CandidateIndex) : write floatText index.document =
    '\x7b' :: (commas [writeField ("final_keys", '[' :: (commas (index.finalKeys.map writeString) ++ [']'])),
      writeField ("schema_version", ['1']), writeField ("upload_id", writeString (uuidText index.uploadId))] ++ ['\x7d']) := by
  have hkeys : write floatText (.array (index.finalKeys.map .string)) =
      '[' :: (commas (index.finalKeys.map writeString) ++ [']']) := by
    have htexts : (index.finalKeys.map Json.string).map (write floatText) = index.finalKeys.map writeString := List.map_map
    rw [write, writeItems_eq, htexts]
  rw [write_index, write_object floatText index.saved_keys, CandidateIndex.saved, List.map_cons, hkeys]
  rfl

theorem literals_names : ∀ name ∈ ["final_keys", "schema_version", "upload_id"], Literals name := by
  simp [Literals, Literal]

theorem ascii_index (hkeys : ∀ key ∈ index.finalKeys, Literals key) : ∀ c ∈ write floatText index.document, c.toNat < 128 := by
  have hwritten : ∀ text, Literals text → ∀ c ∈ writeString text, c.toNat < 128 := by
    intro _ htext c hc
    rcases htext.writeString.1 c hc with hc | rfl
    · exact hc.2.1
    · decide
  have hfield : ∀ name ∈ ["final_keys", "schema_version", "upload_id"], ∀ value : List Char, (∀ c ∈ value, c.toNat < 128) →
      ∀ c ∈ writeField (name, value), c.toNat < 128 := by
    intro name hname _ hvalue c hc
    rcases List.mem_append.mp hc with hc | hc
    · exact hwritten name (literals_names name hname) c hc
    · rcases List.mem_cons.mp hc with rfl | hc
      · exact (by decide : ':'.toNat < 128)
      · exact hvalue c hc
  intro c hc
  rw [write_index_text] at hc
  simp only [List.mem_cons, List.mem_append, List.not_mem_nil, or_false] at hc
  rcases hc with rfl | hc | rfl
  · decide
  · obtain rfl | ⟨part, hpart, hc⟩ := mem_commas hc
    · decide
    · simp only [List.mem_cons, List.not_mem_nil, or_false] at hpart
      rcases hpart with rfl | rfl | rfl
      · refine hfield _ (by simp) _ ?_ c hc
        intro d hd
        simp only [List.mem_cons, List.mem_append, List.not_mem_nil, or_false] at hd
        rcases hd with rfl | hd | rfl
        · decide
        · obtain rfl | ⟨_, hpart, hd⟩ := mem_commas hd
          · decide
          · obtain ⟨key, hkey, rfl⟩ := List.mem_map.mp hpart
            exact hwritten key (hkeys key hkey) d hd
        · decide
      · exact hfield _ (by simp) _ (by simp) c hc
      · exact hfield _ (by simp) _ (hwritten _ (literals_uuidText _)) c hc
  · decide

theorem length_encodeCandidateIndex (hkeys : ∀ key ∈ index.finalKeys, Literals key) (hne : index.finalKeys ≠ []) :
    (encodeCandidateIndex floatText index).length = (index.finalKeys.map fun key => key.toList.length + 3).sum + 86 := by
  have hcommas := length_commas (by simpa using hne : index.finalKeys.map writeString ≠ [])
  have hlengths : (index.finalKeys.map writeString).map (fun part => part.length + 1) =
      index.finalKeys.map fun key => key.toList.length + 3 := by
    rw [List.map_map]
    apply List.map_congr_left
    intro key hkey
    rw [Function.comp_apply, (hkeys key hkey).writeString.2]
  have hfields := length_commas (List.cons_ne_nil (writeField ("final_keys", '[' :: (commas (index.finalKeys.map writeString) ++ [']'])))
    [writeField ("schema_version", ['1']), writeField ("upload_id", writeString (uuidText index.uploadId))])
  have hkeysName : (writeString "final_keys").length = 12 := (literals_names _ (by simp)).writeString.2
  have hversionName : (writeString "schema_version").length = 16 := (literals_names _ (by simp)).writeString.2
  have huploadName : (writeString "upload_id").length = 11 := (literals_names _ (by simp)).writeString.2
  have hupload := (literals_uuidText index.uploadId).writeString.2
  rw [length_uuidText] at hupload
  rw [encodeCandidateIndex, Utf8.encode_ascii (ascii_index hkeys), List.length_map, write_index_text]
  rw [hlengths] at hcommas
  simp only [List.map_cons, List.map_nil, List.sum_cons, List.sum_nil, writeField, List.length_append, List.length_cons,
    List.length_nil, hkeysName, hversionName, huploadName, hupload] at hfields ⊢
  omega

theorem mem_finalKeys {key : String} : key ∈ finalKeys command revisionId digests ↔
    (∃ digest ∈ digests, key = blobKey command.workspaceId command.sessionId digest) ∨
      key = manifestObject command.workspaceId command.sessionId revisionId := by
  rw [finalKeys, List.mem_append, List.mem_singleton, List.mem_map]
  simp only [(List.perm_insertionSort (· ≤ ·) digests).mem_iff, eq_comm]

theorem literals_finalKeys (hhex : ∀ digest ∈ digests, isHexDigest digest = true) :
    ∀ key ∈ finalKeys command revisionId digests, Literals key := by
  intro _ hkey
  rcases mem_finalKeys.mp hkey with ⟨digest, hdigest, rfl⟩ | rfl
  · exact literals_blobKey _ _ (hhex digest hdigest)
  · exact literals_manifestObject _ _ _

theorem length_finalKeys (hhex : ∀ digest ∈ digests, isHexDigest digest = true) :
    ((finalKeys command revisionId digests).map fun key => key.toList.length + 3).sum = 174 * digests.length + 148 := by
  have hperm := List.perm_insertionSort (· ≤ ·) digests
  have hblobs : ((digests.insertionSort (· ≤ ·)).map (blobKey command.workspaceId command.sessionId)).map
      (fun key => key.toList.length + 3) = (digests.insertionSort (· ≤ ·)).map fun _ => 174 := by
    rw [List.map_map]
    apply List.map_congr_left
    intro digest hdigest
    rw [Function.comp_apply, length_blobKey _ _ (hhex digest (hperm.mem_iff.mp hdigest))]
  rw [finalKeys, List.map_append, List.sum_append, hblobs, List.map_singleton, List.sum_singleton, length_manifestObject,
    List.map_const', List.sum_replicate, hperm.length_eq, smul_eq_mul, mul_comm]

theorem length_stored (hhex : ∀ digest ∈ digests, isHexDigest digest = true) (uploadId : Nat) :
    (encodeCandidateIndex floatText { uploadId, finalKeys := finalKeys command revisionId digests }).length =
      174 * digests.length + 234 := by
  rw [length_encodeCandidateIndex (literals_finalKeys hhex) (by simp [finalKeys]), length_finalKeys hhex]

end Size

section Bounds

theorem readBounded_eq {limit : Nat} {received : List UInt8} (hreceived : received.length ≤ limit) (chunks : List (List UInt8)) :
    readBounded limit received chunks =
      if (received ++ chunks.flatten).length ≤ limit then .ok (received ++ chunks.flatten) else .error .tooLarge := by
  induction chunks generalizing received with
  | nil => rw [readBounded, List.flatten_nil, List.append_nil, if_pos hreceived]
  | cons chunk rest ih =>
    rw [readBounded, List.flatten_cons, ← List.append_assoc]
    by_cases hchunk : (received ++ chunk).length ≤ limit
    · rw [if_neg (Nat.not_lt.mpr hchunk), ih hchunk]
    · have hall : ¬ ((received ++ chunk) ++ rest.flatten).length ≤ limit := by
        rw [List.length_append]
        omega
      rw [if_pos (Nat.lt_of_not_le hchunk), if_neg hall]

end Bounds

section Contents
variable {nfc : String → String} {hasher : Hasher} {archive : List ArchiveMember} {base : Option WorkspaceManifest}
  {held : String → Bool} {m : WorkspaceManifest}

/-- The contents of a tree that its Session does not hold, each once. -/
def newContents (hasher : Hasher) (archive : List ArchiveMember) (base : Option WorkspaceManifest) (held : String → Bool) :
    List String :=
  ((archive.filter fun member => relativeName member.name ≠ "" ∧ member.kind = .regular).map fun member =>
    hasher.digest member.body).dedup.filter fun digest => digest ∉ baseDigests base ∧ held digest = false

theorem mem_digests (h : manifestOfScan nfc (scanTree hasher archive) = .ok m) :
    (∃ e ∈ m.entries, e.sha256 = some digest) ↔
      ∃ member ∈ archive, (relativeName member.name ≠ "" ∧ member.kind = .regular) ∧ hasher.digest member.body = digest := by
  obtain ⟨_, hjudged, hperm, _⟩ := manifestOfScan_ok h
  constructor
  · rintro ⟨_, he, hdigest⟩
    obtain ⟨j, hj, rfl⟩ := List.mem_map.mp (hperm.mem_iff.mp he)
    obtain ⟨scanned, hscanned, hjudge⟩ := exists_related (List.Forall₂.flip hjudged) hj
    obtain ⟨member, hmember, hkept⟩ := List.mem_filterMap.mp hscanned
    split_ifs at hkept with hroot
    obtain rfl := Option.some.inj hkept
    refine ⟨member, hmember, ?_⟩
    obtain ⟨_, _, hkinds⟩ := ScanEntry.judged_ok hjudge
    have hsha : j.sha256 = some digest := hdigest
    rcases hkinds with ⟨_, _, _, hnone⟩ | ⟨_, _, _, hsome⟩
    · rw [hnone] at hsha
      cases hsha
    · rw [hsha, ArchiveMember.scanned] at hsome
      dsimp only at hsome
      split_ifs at hsome with hregular
      exact ⟨⟨hroot, hregular⟩, (Option.some.inj hsome).symm⟩
  · rintro ⟨member, hmember, ⟨hroot, hregular⟩, rfl⟩
    have hscanned : member.scanned hasher (relativeName member.name) ∈ scanTree hasher archive :=
      List.mem_filterMap.mpr ⟨member, hmember, if_neg hroot⟩
    obtain ⟨j, hj, hjudge⟩ := exists_related hjudged hscanned
    refine ⟨_, hperm.mem_iff.mpr (List.mem_map.mpr ⟨j, hj, rfl⟩), ?_⟩
    obtain ⟨_, _, hkinds⟩ := ScanEntry.judged_ok hjudge
    have hkind : (member.scanned hasher (relativeName member.name)).entryType = "file" := by
      rw [ArchiveMember.scanned, hregular]
      rfl
    rcases hkinds with ⟨hdirectory, _⟩ | ⟨_, _, _, hsome⟩
    · rw [hkind] at hdirectory
      exact absurd hdirectory (by decide)
    · rw [WorkspaceEntry.normalized, hsome, ArchiveMember.scanned]
      exact if_pos hregular

theorem mem_newContents : digest ∈ newContents hasher archive base held ↔
    (∃ member ∈ archive, (relativeName member.name ≠ "" ∧ member.kind = .regular) ∧ hasher.digest member.body = digest) ∧
      digest ∉ baseDigests base ∧ held digest = false := by
  rw [newContents, List.mem_filter, List.mem_dedup, List.mem_map]
  simp only [List.mem_filter, decide_eq_true_eq, and_assoc]

theorem mem_needed (h : manifestOfScan nfc (scanTree hasher archive) = .ok m) :
    digest ∈ (neededBodies m base held).map (·.1) ↔ digest ∈ newContents hasher archive base held := by
  rw [mem_newContents, ← mem_digests h]
  constructor
  · intro hin
    obtain ⟨⟨_, entry⟩, hneeded, rfl⟩ := List.mem_map.mp hin
    obtain ⟨hwanted, hheld⟩ := List.mem_filter.mp hneeded
    obtain ⟨hentry, hnew⟩ := Firsts.mem_of hwanted
    obtain ⟨hsha, hkept⟩ := Option.filter_eq_some_iff.mp hnew
    rw [Bool.and_eq_true, decide_eq_true_eq] at hkept
    exact ⟨⟨entry, hentry, hsha⟩, of_decide_eq_true hkept.2, by simpa using hheld⟩
  · rintro ⟨⟨entry, hentry, hsha⟩, hbase, hheld⟩
    have hhex : isHexDigest digest = true := by
      obtain ⟨member, _, _, rfl⟩ := (mem_digests h).mp ⟨entry, hentry, hsha⟩
      exact hasher.hex member.body
    obtain ⟨_, hfirst⟩ := Firsts.exists_of_key hentry ((newDigest_some hhex).mpr ⟨hsha, hbase⟩)
    exact List.mem_map.mpr ⟨_, List.mem_filter.mpr ⟨hfirst, by rw [hheld]; rfl⟩, rfl⟩

theorem stageBodies_keys {staged : List (String × List UInt8)} (h : stageBodies nfc hasher m base held archive = .ok staged)
    (digest : String) : digest ∈ (neededBodies m base held).map (·.1) ↔ digest ∈ staged.map (·.1) := by
  rw [stageBodies] at h
  cases hnamed : (wantedBodies m base).mapM fun e => blobObject e.1 with
  | error =>
    rw [hnamed] at h
    cases h
  | ok =>
    rw [hnamed] at h
    dsimp only [bind, Except.bind] at h
    cases hfiles : (exportFiles ((byPaths (neededBodies m base held)).map (·.1)) archive).mapM
        (stageFile nfc hasher (neededBodies m base held)) with
    | error =>
      rw [hfiles] at h
      cases h
    | ok =>
      rw [hfiles] at h
      dsimp only at h
      split_ifs at h with hkeys
      cases h
      simp only [Bool.and_eq_true, List.all_eq_true, decide_eq_true_eq] at hkeys
      exact ⟨hkeys.1 digest, hkeys.2 digest⟩

end Contents

section Reading
variable {nfc : String → String} {hasher : Hasher} {floatText : ℚ → List Char} {command : WorkspaceCheckpoint}
  {base : Option WorkspaceManifest} {around : Surroundings} {stored : Finalizing}

theorem isHexDigest_new {archive : List ArchiveMember} {held : String → Bool}
    (h : digest ∈ newContents hasher archive base held) : isHexDigest digest = true := by
  obtain ⟨⟨member, _, _, rfl⟩, _⟩ := mem_newContents.mp h
  exact hasher.hex member.body

/-- What a checkpoint that reaches `mark_finalizing` has stored. -/
structure IndexStored (hasher : Hasher) (floatText : ℚ → List Char) (command : WorkspaceCheckpoint)
    (base : Option WorkspaceManifest) (around : Surroundings) (stored : Finalizing) : Prop where
  index : ∃ digests : List String, digests.Nodup ∧
    (∀ digest, digest ∈ digests ↔ digest ∈ newContents hasher around.archive base around.held) ∧
    stored.index = { uploadId := around.uploadId, finalKeys := finalKeys command around.revisionId digests }
  octets : stored.octets = encodeCandidateIndex floatText stored.index
  uploadId : stored.upload.uploadId = around.uploadId
  workspaceId : stored.upload.workspaceId = command.workspaceId
  sha256 : stored.upload.candidateIndexSha256 = some (hasher.digest stored.octets)

theorem checkpoint_stored (h : checkpoint nfc hasher floatText command base around = .ok (.finalizing stored)) :
    IndexStored hasher floatText command base around stored := by
  rw [checkpoint, scannedManifest] at h
  cases hscan : manifestOfScan nfc (scanTree hasher around.archive) with
  | error =>
    rw [hscan] at h
    cases h
  | ok m =>
    rw [hscan] at h
    dsimp only [bind, Except.bind] at h
    by_cases hquota : (!(measure m command.quota).allowed) = true
    · rw [if_pos hquota] at h
      cases h
    · rw [if_neg hquota] at h
      by_cases hunchanged : (base.any fun b => m.sha256 hasher floatText = b.sha256 hasher floatText) = true
      · rw [if_pos hunchanged] at h
        cases h
      · rw [if_neg hunchanged, stagedDigests] at h
        cases hstaged : stageBodies nfc hasher m base around.held around.archive with
        | error =>
          rw [hstaged] at h
          cases h
        | ok =>
          rw [hstaged] at h
          dsimp only at h
          rw [putOnce, putOnce] at h
          split_ifs at h
          obtain rfl := CheckpointOutcome.finalizing.inj (Except.ok.inj h)
          refine ⟨⟨_, List.nodup_dedup _, ?_, rfl⟩, rfl, rfl, rfl, rfl⟩
          intro _
          rw [List.mem_dedup, ← stageBodies_keys hstaged, mem_needed hscan]

theorem IndexStored.length (h : IndexStored hasher floatText command base around stored) :
    stored.octets.length = 174 * (newContents hasher around.archive base around.held).length + 234 := by
  obtain ⟨digests, hnodup, hmem, hindex⟩ := h.index
  have hnew : (newContents hasher around.archive base around.held).Nodup := (List.nodup_dedup _).filter _
  have hlength : digests.length = (newContents hasher around.archive base around.held).length :=
    ((List.perm_ext_iff_of_nodup hnodup hnew).mpr hmem).length_eq
  rw [h.octets, hindex, length_stored fun digest hdigest => isHexDigest_new ((hmem digest).mp hdigest), hlength]

theorem IndexStored.belongs (h : IndexStored hasher floatText command base around stored) :
    (stored.index.finalKeys.any fun key => !belongsTo stored.upload.workspaceId key) = false := by
  obtain ⟨_, _, _, hindex⟩ := h.index
  apply List.any_eq_false.mpr
  intro _ hkey
  rw [hindex] at hkey
  rw [h.workspaceId]
  rcases mem_finalKeys.mp hkey with ⟨_, _, rfl⟩ | rfl
  · rw [belongsTo_blobKey]
    decide
  · rw [belongsTo_manifestObject]
    decide

theorem IndexStored.parsed (h : IndexStored hasher floatText command base around stored) (reader : Reader) :
    parseCandidateIndex reader stored.octets stored.upload.uploadId = .ok stored.index := by
  have hupload : stored.upload.uploadId = stored.index.uploadId := by
    obtain ⟨_, _, _, hindex⟩ := h.index
    rw [h.uploadId, hindex]
  rw [h.octets, hupload, parseCandidateIndex_encode]

theorem IndexStored.read (h : IndexStored hasher floatText command base around stored) (reader : Reader)
    {chunks : List (List UInt8)} (hchunks : chunks.flatten = stored.octets) {recorded : Option String}
    (hrecorded : recorded = none ∨ recorded = stored.upload.candidateIndexSha256) :
    readIndex hasher reader { stored.upload with candidateIndexSha256 := recorded } (some chunks) =
      if stored.octets.length ≤ indexLimitBytes then .ok (some stored.index) else .error .tooLarge := by
  have hbounded := @readBounded_eq indexLimitBytes [] (Nat.zero_le _) chunks
  rw [List.nil_append, hchunks] at hbounded
  have hdigest : (recorded.any fun sha256 => hasher.digest stored.octets ≠ sha256) = false := by
    rcases hrecorded with rfl | rfl
    · rfl
    · rw [h.sha256, Option.any_some]
      simp
  unfold readIndex
  dsimp only
  rw [hbounded]
  by_cases hlimit : stored.octets.length ≤ indexLimitBytes
  · rw [if_pos hlimit, if_pos hlimit]
    dsimp only [bind, Except.bind]
    rw [h.parsed]
    dsimp only
    rw [hdigest, h.belongs]
    rfl
  · rw [if_neg hlimit, if_neg hlimit]
    rfl

end Reading

end TinyHermes.SessionWorkspace
