import Mathlib

/-! What a workspace is made of, and the one constructor of a manifest that can be compared and measured. -/
namespace TinyHermes.SessionWorkspace

inductive EntryType where
  | directory | file
  deriving DecidableEq, Repr

inductive Refusal where
  | invalidWorkspacePath (why : String)
  | duplicateWorkspacePath (path : String)
  | unsupportedWorkspaceEntry (raw : String)
  | valueError (why : String)
  deriving DecidableEq

def EntryType.fromScan (raw : String) : Except Refusal EntryType :=
  if raw = "directory" then .ok .directory
  else if raw = "file" then .ok .file
  else .error (.unsupportedWorkspaceEntry raw)

/-- `DIGEST_HEX_LENGTH`. -/
def digestHexLength : Nat := 64

/-- What `__post_init__` has against an entry. -/
def complaint (path : String) (entryType : EntryType) (size : Int) (sha256 : Option String) : Option String :=
  if size < 0 then some s!"negative size: {path}"
  else match entryType with
    | .file => if sha256.all fun digest => digest.length ≠ digestHexLength then some s!"a file entry needs a content digest: {path}" else none
    | .directory =>
      if sha256.isSome then some s!"a directory entry carries no digest: {path}"
      else if size ≠ 0 then some s!"a directory entry carries no size: {path}"
      else none

structure WorkspaceEntry where
  path : String
  entryType : EntryType
  mode : Int
  size : Int
  sha256 : Option String
  sound : complaint path entryType size sha256 = none

namespace WorkspaceEntry

def make (path : String) (entryType : EntryType) (mode size : Int) (sha256 : Option String) : Except Refusal WorkspaceEntry :=
  match sound : complaint path entryType size sha256 with
  | none => .ok { path, entryType, mode, size, sha256, sound }
  | some why => .error (.valueError why)

end WorkspaceEntry

theorem directory_sound (path : String) : complaint path .directory 0 none = none := rfl

def WorkspaceEntry.directory (path : String) (mode : Int) : WorkspaceEntry :=
  { path, entryType := .directory, mode, size := 0, sha256 := none, sound := directory_sound path }

def Described (size : Int) (sha256 : Option String) : EntryType → Prop
  | .file => ∃ digest, sha256 = some digest ∧ digest.length = digestHexLength
  | .directory => sha256 = none ∧ size = 0

theorem complaint_eq_none_iff {path : String} {entryType : EntryType} {size : Int} {sha256 : Option String} :
    complaint path entryType size sha256 = none ↔ 0 ≤ size ∧ Described size sha256 entryType := by
  unfold complaint
  by_cases hsize : size < 0
  · simp [hsize, Int.not_le.mpr hsize]
  · rw [if_neg hsize, and_iff_right (Int.not_lt.mp hsize)]
    cases entryType with
    | file => cases sha256 <;> simp [Described]
    | directory => cases sha256 <;> simp [Described]

theorem complaint_path {path : String} {entryType : EntryType} {size : Int} {sha256 : Option String}
    (h : complaint path entryType size sha256 = none) (other : String) : complaint other entryType size sha256 = none :=
  complaint_eq_none_iff.mpr (complaint_eq_none_iff.mp h)

theorem WorkspaceEntry.make_ok {path : String} {entryType : EntryType} {mode size : Int} {sha256 : Option String} {entry : WorkspaceEntry}
    (h : WorkspaceEntry.make path entryType mode size sha256 = .ok entry) :
    entry.path = path ∧ entry.entryType = entryType ∧ entry.mode = mode ∧ entry.size = size ∧ entry.sha256 = sha256 := by
  unfold WorkspaceEntry.make at h
  split at h
  · cases h
    exact ⟨rfl, rfl, rfl, rfl, rfl⟩
  · cases h

theorem WorkspaceEntry.size_nonneg (entry : WorkspaceEntry) : 0 ≤ entry.size := (complaint_eq_none_iff.mp entry.sound).1

theorem WorkspaceEntry.described (entry : WorkspaceEntry) : Described entry.size entry.sha256 entry.entryType :=
  (complaint_eq_none_iff.mp entry.sound).2

section Paths

/-- `str.split("/")`. -/
def segments (path : String) : List (List Char) := path.toList.splitOn '/'

def illegalSegment (segment : List Char) : Bool := segment = [] || segment = ['.'] || segment = ['.', '.']

/-- `normalize_workspace_path` of a `str`; `nfc` is `unicodedata.normalize("NFC", _)`. -/
def normalizeWorkspacePath (nfc : String → String) (path : String) : Except Refusal String :=
  if path = "" then .error (.invalidWorkspacePath "empty path")
  else if '\x00' ∈ path.toList then .error (.invalidWorkspacePath "NUL in path")
  else if '\\' ∈ path.toList then .error (.invalidWorkspacePath "backslash in path")
  else if path.toList.head? = some '/' then .error (.invalidWorkspacePath "absolute path")
  else if (segments path).any illegalSegment then .error (.invalidWorkspacePath s!"illegal segment in: {path}")
  else .ok (nfc path)

variable {nfc : String → String}

theorem normalizeWorkspacePath_ok {path normalized : String} (h : normalizeWorkspacePath nfc path = .ok normalized) :
    normalized = nfc path := by
  rw [normalizeWorkspacePath] at h
  split_ifs at h
  exact (Except.ok.inj h).symm

end Paths

/-- `MODE_KEPT_BITS`, as the number of modes there are: `mode & 0o777`. -/
def keptModes : Int := 512

def WorkspaceEntry.normalized (entry : WorkspaceEntry) (path : String) : WorkspaceEntry where
  path := path
  entryType := entry.entryType
  mode := entry.mode % keptModes
  size := entry.size
  sha256 := entry.sha256
  sound := complaint_path entry.sound path

/-- The loop of `build_manifest`; `seen` is `normalized` so far. -/
def normalizeEntries (nfc : String → String) (seen : List WorkspaceEntry) : List WorkspaceEntry → Except Refusal (List WorkspaceEntry)
  | [] => .ok seen
  | entry :: rest => do
    let path ← normalizeWorkspacePath nfc entry.path
    if seen.any fun e => e.path = path then .error (.duplicateWorkspacePath path)
    else normalizeEntries nfc (seen ++ [entry.normalized path]) rest

/-- An immutable description of one revision's tree, in the order of its paths' bytes. -/
structure WorkspaceManifest where
  schemaVersion : Int
  entries : List WorkspaceEntry
  ordered : entries.Pairwise fun a b => a.path < b.path

namespace WorkspaceManifest
variable (m : WorkspaceManifest)

def totalBytes : Int := (m.entries.map (·.size)).sum

def objectCount : Nat := m.entries.length

end WorkspaceManifest

variable {entries : List WorkspaceEntry}

section Ordering

def byPath (a b : WorkspaceEntry) : Prop := a.path ≤ b.path

instance : DecidableRel byPath := fun a b => inferInstanceAs (Decidable (a.path ≤ b.path))

instance : Std.Total byPath := ⟨fun a b => le_total a.path b.path⟩

instance : IsTrans WorkspaceEntry byPath := ⟨fun _ _ _ hab hbc => le_trans (α := String) hab hbc⟩

def sortedEntries (entries : List WorkspaceEntry) : List WorkspaceEntry := entries.insertionSort byPath

theorem sortedEntries_ordered (h : entries.Pairwise fun a b => a.path ≠ b.path) :
    (sortedEntries entries).Pairwise fun a b => a.path < b.path := by
  have hsorted := List.pairwise_insertionSort byPath entries
  have hdistinct : (sortedEntries entries).Pairwise fun a b => a.path ≠ b.path :=
    ((List.perm_insertionSort byPath entries).pairwise_iff fun h => Ne.symm h).mpr h
  exact (hsorted.and hdistinct).imp fun h => lt_of_le_of_ne h.1 h.2

end Ordering

section Building
variable {nfc : String → String}

/-- What `build_manifest` normalizes: each entry with its path and its mode, and no path twice. -/
theorem normalizeEntries_ok {seen normalized : List WorkspaceEntry} (h : normalizeEntries nfc seen entries = .ok normalized) :
    normalized = seen ++ entries.map (fun e => e.normalized (nfc e.path)) ∧
      (∀ e ∈ entries, normalizeWorkspacePath nfc e.path = .ok (nfc e.path)) ∧
      (seen.Pairwise (fun a b => a.path ≠ b.path) → normalized.Pairwise fun a b => a.path ≠ b.path) := by
  induction entries generalizing seen with
  | nil =>
    cases h
    refine ⟨(List.append_nil _).symm, ?_, id⟩
    intro e he
    cases he
  | cons entry rest ih =>
    rw [normalizeEntries] at h
    cases hpath : normalizeWorkspacePath nfc entry.path with
    | error =>
      rw [hpath] at h
      cases h
    | ok =>
      rw [hpath] at h
      dsimp only [bind, Except.bind] at h
      split_ifs at h with htwice
      have hnfc := normalizeWorkspacePath_ok hpath
      subst hnfc
      obtain ⟨hnormalized, hpaths, hdistinct⟩ := ih h
      refine ⟨?_, ?_, ?_⟩
      · rw [hnormalized, List.map_cons, List.append_assoc, List.singleton_append]
      · intro e he
        rcases List.mem_cons.mp he with rfl | he
        · exact hpath
        · exact hpaths e he
      · intro hseen
        apply hdistinct
        apply List.pairwise_append.mpr
        refine ⟨hseen, List.pairwise_singleton _ _, ?_⟩
        intro a ha _ hb
        rw [List.mem_singleton.mp hb]
        intro hsame
        apply htwice
        exact List.any_eq_true.mpr ⟨a, ha, decide_eq_true hsame⟩

theorem normalizeEntries_distinct {normalized : List WorkspaceEntry} (h : normalizeEntries nfc [] entries = .ok normalized) :
    normalized.Pairwise fun a b => a.path ≠ b.path :=
  (normalizeEntries_ok h).2.2 List.Pairwise.nil

/-- `build_manifest`. -/
def buildManifest (nfc : String → String) (entries : List WorkspaceEntry) (schemaVersion : Int) :
    Except Refusal WorkspaceManifest :=
  match h : normalizeEntries nfc [] entries with
  | .ok normalized =>
    .ok { schemaVersion, entries := sortedEntries normalized, ordered := sortedEntries_ordered (normalizeEntries_distinct h) }
  | .error refusal => .error refusal

theorem buildManifest_ok {schemaVersion : Int} {m : WorkspaceManifest}
    (h : buildManifest nfc entries schemaVersion = .ok m) :
    m.entries.Perm (entries.map fun e => e.normalized (nfc e.path)) ∧
      (entries.Pairwise fun a b => nfc a.path ≠ nfc b.path) ∧
      ∀ e ∈ entries, normalizeWorkspacePath nfc e.path = .ok (nfc e.path) := by
  unfold buildManifest at h
  split at h
  · rename_i normalized hnormalized
    cases h
    obtain ⟨hmap, hpaths, _⟩ := normalizeEntries_ok hnormalized
    have hdistinct := normalizeEntries_distinct hnormalized
    rw [List.nil_append] at hmap
    subst hmap
    rw [List.pairwise_map] at hdistinct
    exact ⟨List.perm_insertionSort byPath _, hdistinct, hpaths⟩
  · cases h

end Building

section Measuring

structure WorkspaceQuota where
  maxBytes : Int
  maxObjects : Nat

inductive Dimension where
  | bytes | objects
  deriving DecidableEq, Repr

structure QuotaMeasurement where
  allowed : Bool
  dimension : Option Dimension
  totalBytes : Int
  objectCount : Nat

/-- `measure`: exactly at the limit passes. -/
def measure (m : WorkspaceManifest) (quota : WorkspaceQuota) : QuotaMeasurement :=
  let dimension :=
    if quota.maxBytes < m.totalBytes then some Dimension.bytes
    else if quota.maxObjects < m.objectCount then some Dimension.objects
    else none
  { allowed := dimension.isNone, dimension, totalBytes := m.totalBytes, objectCount := m.objectCount }

theorem measure_allowed_iff (m : WorkspaceManifest) (quota : WorkspaceQuota) :
    (measure m quota).allowed = true ↔ m.totalBytes ≤ quota.maxBytes ∧ m.objectCount ≤ quota.maxObjects := by
  unfold measure
  split_ifs with hbytes hobjects
  · simp [hbytes]
  · simp [hobjects]
  · simp [Int.not_lt.mp hbytes, Nat.not_lt.mp hobjects]

end Measuring

section Scanning

structure ScanEntry where
  path : String
  entryType : String
  mode : Int
  size : Int
  sha256 : Option String

/-- `MANIFEST_SCHEMA_VERSION`. -/
def manifestSchemaVersion : Int := 1

/-- How `_manifest_of_scan` judges one entry. -/
def ScanEntry.judged (entry : ScanEntry) : Except Refusal WorkspaceEntry := do
  let entryType ← EntryType.fromScan entry.entryType
  WorkspaceEntry.make entry.path entryType entry.mode (if entry.entryType = "file" then entry.size else 0)
    (if entry.entryType = "file" then entry.sha256 else none)

/-- `_manifest_of_scan`. -/
def manifestOfScan (nfc : String → String) (entries : List ScanEntry) : Except Refusal WorkspaceManifest := do
  let judged ← entries.mapM ScanEntry.judged
  buildManifest nfc judged manifestSchemaVersion

theorem mapM_ok {α β ε : Type} {f : α → Except ε β} {xs : List α} {ys : List β} (h : xs.mapM f = .ok ys) :
    List.Forall₂ (fun x y => f x = .ok y) xs ys := by
  induction xs generalizing ys with
  | nil =>
    cases h
    exact .nil
  | cons x xs ih =>
    rw [List.mapM_cons] at h
    cases hx : f x with
    | error =>
      rw [hx] at h
      cases h
    | ok =>
      rw [hx] at h
      cases hxs : xs.mapM f with
      | error =>
        rw [hxs] at h
        cases h
      | ok =>
        rw [hxs] at h
        cases h
        exact .cons hx (ih hxs)

theorem mapM_of_forall₂ {α β ε : Type} {f : α → Except ε β} {xs : List α} {ys : List β}
    (h : List.Forall₂ (fun x y => f x = .ok y) xs ys) : xs.mapM f = .ok ys := by
  induction h with
  | nil => rfl
  | cons hx _ ih =>
    rw [List.mapM_cons, hx, ih]
    rfl

theorem manifestOfScan_ok {nfc : String → String} {entries : List ScanEntry} {m : WorkspaceManifest}
    (h : manifestOfScan nfc entries = .ok m) :
    ∃ judged, List.Forall₂ (fun e j => e.judged = .ok j) entries judged ∧
      m.entries.Perm (judged.map fun e => e.normalized (nfc e.path)) ∧
      (judged.Pairwise fun a b => nfc a.path ≠ nfc b.path) ∧
      ∀ e ∈ judged, normalizeWorkspacePath nfc e.path = .ok (nfc e.path) := by
  rw [manifestOfScan] at h
  cases hjudged : entries.mapM ScanEntry.judged with
  | error =>
    rw [hjudged] at h
    cases h
  | ok judged =>
    rw [hjudged] at h
    exact ⟨judged, mapM_ok hjudged, buildManifest_ok h⟩

theorem ScanEntry.judged_ok {entry : ScanEntry} {judged : WorkspaceEntry} (h : entry.judged = .ok judged) :
    judged.path = entry.path ∧ judged.mode = entry.mode ∧
      (entry.entryType = "directory" ∧ judged.entryType = .directory ∧ judged.size = 0 ∧ judged.sha256 = none ∨
        entry.entryType = "file" ∧ judged.entryType = .file ∧ judged.size = entry.size ∧ judged.sha256 = entry.sha256) := by
  rw [ScanEntry.judged, EntryType.fromScan] at h
  by_cases hdirectory : entry.entryType = "directory"
  · rw [if_pos hdirectory] at h
    obtain ⟨hpath, hkind, hmode, hsize, hdigest⟩ := WorkspaceEntry.make_ok h
    rw [hdirectory] at hsize hdigest
    exact ⟨hpath, hmode, .inl ⟨hdirectory, hkind, hsize, hdigest⟩⟩
  · rw [if_neg hdirectory] at h
    by_cases hfile : entry.entryType = "file"
    · rw [if_pos hfile] at h
      obtain ⟨hpath, hkind, hmode, hsize, hdigest⟩ := WorkspaceEntry.make_ok h
      rw [if_pos hfile] at hsize hdigest
      exact ⟨hpath, hmode, .inr ⟨hfile, hkind, hsize, hdigest⟩⟩
    · rw [if_neg hfile] at h
      cases h

end Scanning

end TinyHermes.SessionWorkspace
