import TinyHermes.Lib.JsonText
import TinyHermes.SessionWorkspace.Paths

/-! The saved form of a manifest: its bytes, and what `parse_saved_manifest` makes of them. -/
namespace TinyHermes.SessionWorkspace
open Lib JsonText

section Saving

def EntryType.value : EntryType → String
  | .directory => "directory"
  | .file => "file"

def WorkspaceEntry.document (entry : WorkspaceEntry) : Json := .object [
  ("path", .string entry.path),
  ("type", .string entry.entryType.value),
  ("mode", .int entry.mode),
  ("size", .int entry.size),
  ("sha256", .ofText entry.sha256)]

def WorkspaceManifest.document (m : WorkspaceManifest) : Json := .object [
  ("schema_version", .int m.schemaVersion),
  ("entries", .array (m.entries.map WorkspaceEntry.document)),
  ("total_bytes", .int m.totalBytes),
  ("object_count", .int m.objectCount)]

/-- `canonical_bytes`; `floatText`, how a float is written, is never asked. -/
def WorkspaceManifest.canonicalBytes (floatText : ℚ → List Char) (m : WorkspaceManifest) : List UInt8 :=
  Utf8.encode (write floatText m.document)

end Saving

section Parsing

inductive Broken where
  | keyError (key : String)
  | typeError
  | valueError (raw : String)
  | refused (refusal : Refusal)
  deriving DecidableEq

inductive IntegrityFailure where
  | notJson
  | notObject
  | entriesNotList
  | failsValidation (broken : Broken)
  | totalsDisagree
  /-- a total that `int` does not take: this one is not caught -/
  | raised (broken : Broken)
  deriving DecidableEq

/-- What a reader takes from the standard library: other encodings, `float`, `int` of a text, and `str` of
what is no text. -/
structure Reader where
  decodeOther : Encoding → List UInt8 → Option (List Char)
  floatOf : List Char → Json
  intText : String → Option Int
  shown : Json → String

variable (reader : Reader)

/-- `int(_)`. -/
def Reader.int : Json → Except Broken Int
  | .int value => .ok value
  | .bool value => .ok (if value then 1 else 0)
  | .float value => .ok (value.num.tdiv value.den)
  | .string text =>
    match reader.intText text with
    | some value => .ok value
    | none => .error (.valueError text)
  | _ => .error .typeError

/-- `str(_)`. -/
def Reader.str : Json → String
  | .string text => text
  | other => reader.shown other

/-- `item[key]`. -/
def fieldOf (item : Json) (key : String) : Except Broken Json :=
  match item with
  | .object fields =>
    match fields.lookup key with
    | some value => .ok value
    | none => .error (.keyError key)
  | _ => .error .typeError

/-- `EntryType(_)`. -/
def EntryType.ofValue (raw : String) : Except Broken EntryType :=
  if raw = "directory" then .ok .directory else if raw = "file" then .ok .file else .error (.valueError raw)

/-- `None if value is None else str(value)`. -/
def Reader.optionalStr : Json → Option String
  | .null => none
  | other => some (reader.str other)

def caught {α : Type} : Except Refusal α → Except Broken α
  | .ok a => .ok a
  | .error refusal => .error (.refused refusal)

def parseEntry (item : Json) : Except Broken WorkspaceEntry := do
  let path ← fieldOf item "path"
  let entryType ← fieldOf item "type"
  let entryType ← EntryType.ofValue (reader.str entryType)
  let mode ← fieldOf item "mode"
  let mode ← reader.int mode
  let size ← fieldOf item "size"
  let size ← reader.int size
  let sha256 ← fieldOf item "sha256"
  caught (WorkspaceEntry.make (reader.str path) entryType mode size (reader.optionalStr sha256))

/-- The part of `parse_saved_manifest` in its second `try`. -/
def parseEntries (nfc : String → String) (document : Document) (rawEntries : List Json) : Except Broken WorkspaceManifest := do
  let entries ← rawEntries.mapM (parseEntry reader)
  let schemaVersion ← reader.int (Documents.getOr document "schema_version" (.int 0))
  caught (buildManifest nfc entries schemaVersion)

/-- `int(document.get(key, -1))`. -/
def savedTotal (document : Document) (key : String) : Except IntegrityFailure Int :=
  match reader.int (Documents.getOr document key (.int (-1))) with
  | .ok value => .ok value
  | .error broken => .error (.raised broken)

def checkTotals (document : Document) (m : WorkspaceManifest) : Except IntegrityFailure WorkspaceManifest := do
  let totalBytes ← savedTotal reader document "total_bytes"
  if m.totalBytes ≠ totalBytes then .error .totalsDisagree
  else do
    let objectCount ← savedTotal reader document "object_count"
    if (m.objectCount : Int) ≠ objectCount then .error .totalsDisagree else .ok m

def parseSavedManifest (nfc : String → String) (data : List UInt8) : Except IntegrityFailure WorkspaceManifest :=
  match loadsBytes reader.decodeOther reader.floatOf data with
  | none => .error .notJson
  | some (.object document) =>
    match document.lookup "entries" with
    | some (.array rawEntries) =>
      match parseEntries reader nfc document rawEntries with
      | .error broken => .error (.failsValidation broken)
      | .ok m => checkTotals reader document m
    | _ => .error .entriesNotList
  | some _ => .error .notObject

end Parsing

section RoundTrip
variable {floatText : ℚ → List Char} {reader : Reader} {nfc : String → String} {m m' : WorkspaceManifest}

def WorkspaceEntry.saved (entry : WorkspaceEntry) : Document := [
  ("mode", .int entry.mode),
  ("path", .string entry.path),
  ("sha256", .ofText entry.sha256),
  ("size", .int entry.size),
  ("type", .string entry.entryType.value)]

def WorkspaceManifest.saved (m : WorkspaceManifest) : Document := [
  ("entries", .array (m.entries.map fun e => .object e.saved)),
  ("object_count", .int m.objectCount),
  ("schema_version", .int m.schemaVersion),
  ("total_bytes", .int m.totalBytes)]

theorem WorkspaceEntry.saved_keys (entry : WorkspaceEntry) : (entry.saved.map (·.1)).Pairwise (· < ·) := by
  change ["mode", "path", "sha256", "size", "type"].Pairwise (· < ·)
  decide

theorem WorkspaceManifest.saved_keys (m : WorkspaceManifest) : (m.saved.map (·.1)).Pairwise (· < ·) := by
  change ["entries", "object_count", "schema_version", "total_bytes"].Pairwise (· < ·)
  decide

theorem write_entry (entry : WorkspaceEntry) : write floatText entry.document = write floatText (.object entry.saved) := by
  have hplaces : [0, 1, 2, 3, 4].Perm ([2, 0, 4, 3, 1] : List (Fin 5)) := by decide
  apply write_object_perm
  · exact hplaces.map fun i => (([("path", .string entry.path), ("type", .string entry.entryType.value),
      ("mode", .int entry.mode), ("size", .int entry.size), ("sha256", .ofText entry.sha256)] : Document).get i)
  · exact entry.saved_keys

theorem write_document (m : WorkspaceManifest) : write floatText m.document = write floatText (.object m.saved) := by
  have hentries : write floatText (.array (m.entries.map WorkspaceEntry.document)) =
      write floatText (.array (m.entries.map fun e => .object e.saved)) := by
    have hitems : m.entries.map (write floatText ∘ WorkspaceEntry.document) =
        m.entries.map (write floatText ∘ fun e => .object e.saved) := List.map_congr_left fun e _ => write_entry e
    rw [write, write, writeItems_eq, writeItems_eq, List.map_map, List.map_map, hitems]
  have hplaces : [0, 1, 2, 3].Perm ([1, 3, 0, 2] : List (Fin 4)) := by decide
  have hsorted : write floatText m.document = write floatText (.object [
      ("entries", .array (m.entries.map WorkspaceEntry.document)), ("object_count", .int m.objectCount),
      ("schema_version", .int m.schemaVersion), ("total_bytes", .int m.totalBytes)]) := by
    apply write_object_perm
    · exact hplaces.map fun i => (([("schema_version", .int m.schemaVersion),
        ("entries", .array (m.entries.map WorkspaceEntry.document)), ("total_bytes", .int m.totalBytes),
        ("object_count", .int m.objectCount)] : Document).get i)
    · exact m.saved_keys
  rw [hsorted, WorkspaceManifest.saved, write, write, writeFields_eq, writeFields_eq]
  simp only [List.map_cons, List.map_nil, hentries]

theorem plain_ofText (text : Option String) : Plain (.ofText text) := by
  cases text with
  | none => exact Plain.null
  | some text => exact Plain.string text

theorem WorkspaceEntry.plain_saved (entry : WorkspaceEntry) : Plain (.object entry.saved) := by
  apply Plain.object
  · exact List.pairwise_map.mp entry.saved_keys
  · intro _ hf
    simp only [WorkspaceEntry.saved, List.mem_cons, List.not_mem_nil, or_false] at hf
    rcases hf with rfl | rfl | rfl | rfl | rfl
    · exact Plain.int _
    · exact Plain.string _
    · exact plain_ofText _
    · exact Plain.int _
    · exact Plain.string _

theorem WorkspaceManifest.plain_saved (m : WorkspaceManifest) : Plain (.object m.saved) := by
  apply Plain.object
  · exact List.pairwise_map.mp m.saved_keys
  · intro _ hf
    simp only [WorkspaceManifest.saved, List.mem_cons, List.not_mem_nil, or_false] at hf
    rcases hf with rfl | rfl | rfl | rfl
    · apply Plain.array
      intro _ hitem
      obtain ⟨entry, _, rfl⟩ := List.mem_map.mp hitem
      exact entry.plain_saved
    · exact Plain.int _
    · exact Plain.int _
    · exact Plain.int _

theorem loadsBytes_canonical (m : WorkspaceManifest) :
    loadsBytes reader.decodeOther reader.floatOf (m.canonicalBytes floatText) = some (.object m.saved) := by
  have hread := loads_write floatText reader.floatOf m.plain_saved
  rw [WorkspaceManifest.canonicalBytes, write_document]
  obtain ⟨rest, hrest⟩ : ∃ rest, write floatText (.object m.saved) = '\x7b' :: '"' :: rest := by
    rw [write_object floatText m.saved_keys, WorkspaceManifest.saved]
    exact ⟨_, rfl⟩
  rw [hrest] at hread ⊢
  rw [loadsBytes_encode reader.decodeOther reader.floatOf (by decide) (by decide)]
  exact hread

theorem WorkspaceEntry.make_self (entry : WorkspaceEntry) :
    WorkspaceEntry.make entry.path entry.entryType entry.mode entry.size entry.sha256 = .ok entry := by
  unfold WorkspaceEntry.make
  split
  · rfl
  · rename_i why hwhy
    rw [entry.sound] at hwhy
    cases hwhy

theorem parseEntry_saved (entry : WorkspaceEntry) : parseEntry reader (.object entry.saved) = .ok entry := by
  have htype : EntryType.ofValue entry.entryType.value = .ok entry.entryType := by
    cases entry.entryType <;> rfl
  have hsha256 : reader.optionalStr (.ofText entry.sha256) = entry.sha256 := by
    cases entry.sha256 <;> rfl
  change (EntryType.ofValue entry.entryType.value >>= fun entryType => caught (WorkspaceEntry.make entry.path entryType entry.mode
    entry.size (reader.optionalStr (.ofText entry.sha256)))) = _
  rw [htype, hsha256]
  change caught (WorkspaceEntry.make entry.path entry.entryType entry.mode entry.size entry.sha256) = _
  rw [entry.make_self]
  rfl

theorem parseSavedManifest_canonical (h : buildManifest nfc m.entries m.schemaVersion = .ok m) :
    parseSavedManifest reader nfc (m.canonicalBytes floatText) = .ok m := by
  have hentries : (m.entries.map fun e => Json.object e.saved).mapM (parseEntry reader) = .ok m.entries := by
    apply mapM_of_forall₂
    rw [List.forall₂_map_left_iff]
    apply List.forall₂_same.mpr
    intro entry _
    exact parseEntry_saved entry
  have hparsed : parseEntries reader nfc m.saved (m.entries.map fun e => .object e.saved) = .ok m := by
    rw [parseEntries, hentries]
    change caught (buildManifest nfc m.entries m.schemaVersion) = _
    rw [h]
    rfl
  have hlookup : m.saved.lookup "entries" = some (.array (m.entries.map fun e => .object e.saved)) := rfl
  unfold parseSavedManifest
  rw [loadsBytes_canonical]
  dsimp only
  rw [hlookup]
  dsimp only
  rw [hparsed]
  change (if m.totalBytes ≠ m.totalBytes then _ else if (m.objectCount : Int) ≠ (m.objectCount : Int) then _ else _) = _
  rw [if_neg (not_not.mpr rfl), if_neg (not_not.mpr rfl)]

theorem manifest_ext (hschema : m.schemaVersion = m'.schemaVersion) (hentries : m.entries = m'.entries) : m = m' := by
  cases m
  cases m'
  cases hschema
  cases hentries
  rfl

/-- A reader that knows texts in UTF-8 and numbers without fractions. -/
def leastReader : Reader where
  decodeOther _ _ := none
  floatOf _ := .null
  intText _ := none
  shown _ := ""

theorem WorkspaceEntry.saved_injective {a b : WorkspaceEntry} (h : Json.object a.saved = .object b.saved) : a = b := by
  have ha : parseEntry leastReader (.object a.saved) = .ok a := parseEntry_saved a
  rw [h, parseEntry_saved] at ha
  exact (Except.ok.inj ha).symm

theorem canonicalBytes_injective (h : m.canonicalBytes floatText = m'.canonicalBytes floatText) : m = m' := by
  have hloads := congrArg (loadsBytes leastReader.decodeOther leastReader.floatOf) h
  rw [loadsBytes_canonical, loadsBytes_canonical] at hloads
  have hsaved : m.saved = m'.saved := Json.object.inj (Option.some.inj hloads)
  obtain ⟨hentries, hrest⟩ := List.cons.inj hsaved
  obtain ⟨_, hrest⟩ := List.cons.inj hrest
  obtain ⟨hschema, _⟩ := List.cons.inj hrest
  apply manifest_ext
  · exact Json.int.inj (Prod.mk.inj hschema).2
  · have hitems := Json.array.inj (Prod.mk.inj hentries).2
    exact List.map_injective_iff.mpr (fun _ _ => WorkspaceEntry.saved_injective) hitems

end RoundTrip

section Canonical
variable {floatText : ℚ → List Char} {nfc : String → String} {m m' : WorkspaceManifest} {entries entries' : List WorkspaceEntry}
  {schemaVersion : Int}

/-- What `build_manifest` returns, where it does. -/
theorem buildManifest_entries (h : buildManifest nfc entries schemaVersion = .ok m) :
    m.schemaVersion = schemaVersion ∧ m.entries = sortedEntries (entries.map fun e => e.normalized (nfc e.path)) := by
  unfold buildManifest at h
  split at h
  · rename_i normalized hnormalized
    cases h
    obtain ⟨hmap, _⟩ := normalizeEntries_ok hnormalized
    rw [List.nil_append] at hmap
    exact ⟨rfl, congrArg sortedEntries hmap⟩
  · cases h

theorem buildManifest_perm (hperm : entries.Perm entries') :
    (buildManifest nfc entries schemaVersion).toOption = (buildManifest nfc entries' schemaVersion).toOption := by
  have hreturns : (∃ m, buildManifest nfc entries schemaVersion = .ok m) ↔ ∃ m, buildManifest nfc entries' schemaVersion = .ok m := by
    rw [buildManifest_returns_iff, buildManifest_returns_iff, hperm.pairwise_iff fun h => Ne.symm h]
    simp only [hperm.mem_iff]
  cases hbuilt : buildManifest nfc entries schemaVersion with
  | error =>
    cases hbuilt' : buildManifest nfc entries' schemaVersion with
    | error => rfl
    | ok m' =>
      obtain ⟨m, hm⟩ := hreturns.mpr ⟨m', hbuilt'⟩
      rw [hbuilt] at hm
      cases hm
  | ok m =>
    obtain ⟨m', hm'⟩ := hreturns.mp ⟨m, hbuilt⟩
    obtain ⟨hschema, _⟩ := buildManifest_entries hbuilt
    obtain ⟨hschema', _⟩ := buildManifest_entries hm'
    have hsame := (buildManifest_ok hbuilt).1.trans ((hperm.map _).trans (buildManifest_ok hm').1.symm)
    have hanti : ∀ a b : WorkspaceEntry, a ∈ m.entries → b ∈ m'.entries → a.path < b.path → b.path < a.path → a = b :=
      fun _ _ _ _ hab hba => absurd hba (lt_asymm hab)
    have hentries := hsame.eq_of_pairwise hanti m.ordered m'.ordered
    rw [hm', manifest_ext (hschema.trans hschema'.symm) hentries]

theorem normalized_eq {e : WorkspaceEntry} {path : String} (hpath : e.path = path) (hmode : e.mode % keptModes = e.mode) :
    e.normalized path = e := by
  subst hpath
  cases e
  unfold WorkspaceEntry.normalized
  dsimp only at hmode ⊢
  rw [hmode]

theorem Built.mode (hbuilt : Built nfc m) {e : WorkspaceEntry} (he : e ∈ m.entries) : e.mode % keptModes = e.mode := by
  obtain ⟨_, _, hm⟩ := hbuilt
  obtain ⟨source, _, rfl⟩ := List.mem_map.mp ((buildManifest_ok hm).1.mem_iff.mp he)
  exact Int.emod_emod_of_dvd source.mode (dvd_refl keptModes)

theorem Built.again (hbuilt : Built nfc m) (hnfc : NormalForm nfc) : buildManifest nfc m.entries m.schemaVersion = .ok m := by
  have hsettled : ∀ e ∈ m.entries, Legal e.path ∧ nfc e.path = e.path := fun e he => settled_iff.mp (hbuilt.settled hnfc e he)
  have hdistinct : m.entries.Pairwise fun a b => nfc a.path ≠ nfc b.path := by
    apply m.ordered.imp_of_mem
    intro a b ha hb hlt
    rw [(hsettled a ha).2, (hsettled b hb).2]
    exact ne_of_lt hlt
  have hnormalized : (m.entries.map fun e => e.normalized (nfc e.path)) = m.entries := by
    have hsame : ∀ e ∈ m.entries, e.normalized (nfc e.path) = id e :=
      fun e he => normalized_eq (hsettled e he).2.symm (hbuilt.mode he)
    rw [List.map_congr_left hsame, List.map_id]
  have hsorted : sortedEntries m.entries = m.entries := (m.ordered.imp fun h => le_of_lt h).insertionSort_eq
  obtain ⟨_, hm'⟩ := (buildManifest_returns_iff m.schemaVersion).mpr ⟨fun e he => (hsettled e he).1, hdistinct⟩
  obtain ⟨hschema, hentries⟩ := buildManifest_entries hm'
  rw [hnormalized, hsorted] at hentries
  rw [hm', manifest_ext hschema hentries]

theorem bytes_increase (m : WorkspaceManifest) :
    m.entries.Pairwise fun a b => Utf8.encode a.path.toList < Utf8.encode b.path.toList :=
  m.ordered.imp fun h => Utf8.encode_lt (String.lt_iff_toList_lt.mp h)

theorem ancestor_lt {path a : String} (hlegal : Legal path) (ha : a ∈ ancestors path) : a < path := by
  obtain ⟨front, back, hne, hback, hsplit, rfl, _⟩ := hlegal.mem_ancestors ha
  rw [String.lt_iff_toList_lt, joined, String.toList_ofList]
  have hpath : path.toList = ['/'].intercalate front ++ '/' :: ['/'].intercalate back := by
    rw [← Paths.intercalate_append hne hback, ← hsplit, segments, List.intercalate_splitOn]
  rw [hpath]
  conv_lhs => rw [← List.append_nil (['/'].intercalate front)]
  exact List.append_left_lt (List.nil_lt_cons _ _)

theorem ancestors_first (hbuilt : Built nfc m) (hnfc : NormalForm nfc) {i j : Nat} (hi : i < m.entries.length)
    (hj : j < m.entries.length) (h : m.entries[i].path ∈ ancestors m.entries[j].path) : i < j := by
  have hlegal := (settled_iff.mp (hbuilt.settled hnfc m.entries[j] (List.getElem_mem hj))).1
  have hlt := ancestor_lt hlegal h
  rcases Nat.lt_trichotomy i j with hij | hij | hij
  · exact hij
  · subst hij
    exact absurd hlt (lt_irrefl _)
  · exact absurd hlt (lt_asymm (List.pairwise_iff_getElem.mp m.ordered j i hj hi hij))

theorem totals_given (h : buildManifest nfc entries schemaVersion = .ok m) :
    m.totalBytes = (entries.map (·.size)).sum ∧ m.objectCount = entries.length := by
  obtain ⟨hperm, _, _⟩ := buildManifest_ok h
  rw [WorkspaceManifest.totalBytes, WorkspaceManifest.objectCount, (hperm.map (·.size)).sum_eq, hperm.length_eq, List.map_map,
    List.length_map]
  exact ⟨rfl, rfl⟩

structure CanonicalOf (floatText : ℚ → List Char) (reader : Reader) (nfc : String → String) (entries : List WorkspaceEntry)
    (schemaVersion : Int) (m : WorkspaceManifest) : Prop where
  again : buildManifest nfc m.entries schemaVersion = .ok m
  increasing : m.entries.Pairwise fun a b => Utf8.encode a.path.toList < Utf8.encode b.path.toList
  /-- a directory is listed before what is below it -/
  parents : ∀ i j (hi : i < m.entries.length) (hj : j < m.entries.length),
    m.entries[i].path ∈ ancestors m.entries[j].path → i < j
  totalBytes : m.totalBytes = (entries.map (·.size)).sum
  objectCount : m.objectCount = entries.length
  saved : parseSavedManifest reader nfc (m.canonicalBytes floatText) = .ok m

/-- Manifests are canonical: the order of the entries does not matter to them, and their bytes are as good as they are. -/
theorem manifests_canonical (hnfc : NormalForm nfc) (floatText : ℚ → List Char) (reader : Reader) :
    (∀ entries entries' schemaVersion, entries.Perm entries' →
      (buildManifest nfc entries schemaVersion).toOption = (buildManifest nfc entries' schemaVersion).toOption) ∧
    (∀ entries schemaVersion m, buildManifest nfc entries schemaVersion = .ok m →
      CanonicalOf floatText reader nfc entries schemaVersion m) ∧
    ∀ m m' : WorkspaceManifest, m.canonicalBytes floatText = m'.canonicalBytes floatText ↔ m = m' := by
  refine ⟨fun _ _ _ hperm => buildManifest_perm hperm, ?_, ?_⟩
  · intro entries schemaVersion m hm
    have hbuilt : Built nfc m := ⟨entries, schemaVersion, hm⟩
    have hagain := hbuilt.again hnfc
    constructor
    · rwa [(buildManifest_entries hm).1] at hagain
    · exact bytes_increase m
    · exact fun i j hi hj h => ancestors_first hbuilt hnfc hi hj h
    · exact (totals_given hm).1
    · exact (totals_given hm).2
    · exact parseSavedManifest_canonical hagain
  · intro _ _
    constructor
    · exact canonicalBytes_injective
    · rintro rfl
      rfl

theorem manifests_canonical_id :
    (∀ entries entries' schemaVersion, entries.Perm entries' →
      (buildManifest id entries schemaVersion).toOption = (buildManifest id entries' schemaVersion).toOption) ∧
    (∀ entries schemaVersion m, buildManifest id entries schemaVersion = .ok m →
      CanonicalOf (fun _ => []) leastReader id entries schemaVersion m) ∧
    ∀ m m' : WorkspaceManifest, m.canonicalBytes (fun _ => []) = m'.canonicalBytes (fun _ => []) ↔ m = m' :=
  manifests_canonical normalForm_id (fun _ => []) leastReader

def doubled (first second : String) : List WorkspaceEntry :=
  List.replicate 2 (.directory first 493) ++ List.replicate 2 (.directory second 493)

/-- Which of two doubled paths a refusal names does depend on the order. -/
theorem refusal_follows_order :
    ¬ ∀ entries entries' schemaVersion, entries.Perm entries' →
      buildManifest id entries schemaVersion = buildManifest id entries' schemaVersion := by
  intro h
  have hperm : (doubled "a" "b").Perm (doubled "b" "a") := List.perm_append_comm
  have hsame := h _ _ 1 hperm
  have ha : buildManifest id (doubled "a" "b") 1 = .error (.duplicateWorkspacePath "a") := rfl
  have hb : buildManifest id (doubled "b" "a") 1 = .error (.duplicateWorkspacePath "b") := rfl
  rw [ha, hb] at hsame
  exact absurd (Except.error.inj hsame) (by decide)

end Canonical

end TinyHermes.SessionWorkspace
