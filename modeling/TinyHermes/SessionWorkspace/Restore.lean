import TinyHermes.Sandbox.Streams
import TinyHermes.SessionWorkspace.Manifest

/-! The archive a restore sends, and whether the streams it goes through have room for it. -/
namespace TinyHermes.SessionWorkspace

/-- The settings of a deployment that the workspace's quota is made of, in their bounds. -/
structure Settings where
  workspaceMaxBytes : Int
  workspaceMaxObjects : Nat
  maxBytes_ge : 1048576 ≤ workspaceMaxBytes
  maxBytes_le : workspaceMaxBytes ≤ 1099511627776
  maxObjects_ge : 100 ≤ workspaceMaxObjects
  maxObjects_le : workspaceMaxObjects ≤ 10000000

def Settings.quota (s : Settings) : WorkspaceQuota where
  maxBytes := s.workspaceMaxBytes
  maxObjects := s.workspaceMaxObjects

section Archive

/-- `_padding`, by its length. -/
def paddingLength (size : Int) : Int := if size % 512 = 0 then 0 else 512 - size % 512

/-- `LENGTH_NAME` of the archive's format. -/
def lengthName : Int := 100

def archiveName (entry : WorkspaceEntry) : String :=
  if entry.entryType = .directory ∧ entry.path.toList.getLast? ≠ some '/' then entry.path ++ "/" else entry.path

def nameLength (entry : WorkspaceEntry) : Int := (archiveName entry).utf8ByteSize

/-- `_tar_header`, by its length: a name that does not fit has a member of its own in front. -/
def tarHeaderLength (entry : WorkspaceEntry) : Int :=
  (if lengthName < nameLength entry then 512 + ((nameLength entry + 1) + paddingLength (nameLength entry + 1)) else 0) + 512

/-- `_tar_total`. -/
def tarTotal (m : WorkspaceManifest) : Int :=
  1024 + (m.entries.map fun entry =>
    tarHeaderLength entry + if entry.entryType = .file then entry.size + paddingLength entry.size else 0).sum

def blocks (bytes : Int) : Int := (bytes + 511) / 512

/-- The blocks an entry takes in the archive: its header, its content, and its name with a header of its own when it is
longer than a header has room for. -/
def entryBlocks (entry : WorkspaceEntry) : Int :=
  1 + blocks entry.size + if lengthName < nameLength entry then 1 + blocks (nameLength entry + 1) else 0

def archiveBlocks (m : WorkspaceManifest) : Int := 2 + (m.entries.map entryBlocks).sum

theorem padded_blocks (bytes : Int) : bytes + paddingLength bytes = 512 * blocks bytes := by
  rw [paddingLength, blocks]
  split_ifs <;> omega

theorem entry_blocks (entry : WorkspaceEntry) :
    (tarHeaderLength entry + if entry.entryType = .file then entry.size + paddingLength entry.size else 0) =
      512 * entryBlocks entry := by
  have hcontent : (if entry.entryType = .file then entry.size + paddingLength entry.size else 0) = 512 * blocks entry.size := by
    have hdescribed := entry.described
    cases hkind : entry.entryType with
    | file => rw [if_pos rfl, padded_blocks]
    | directory =>
      rw [hkind] at hdescribed
      rw [hdescribed.2]
      rfl
  rw [hcontent, tarHeaderLength, entryBlocks, padded_blocks]
  split_ifs <;> omega

theorem tarTotal_blocks (m : WorkspaceManifest) : tarTotal m = 512 * archiveBlocks m := by
  have hsum (entries : List WorkspaceEntry) : (entries.map fun entry =>
      tarHeaderLength entry + if entry.entryType = .file then entry.size + paddingLength entry.size else 0).sum =
        512 * (entries.map entryBlocks).sum := by
    induction entries with
    | nil => rfl
    | cons entry rest ih =>
      rw [List.map_cons, List.sum_cons, ih, entry_blocks, List.map_cons, List.sum_cons]
      omega
  rw [tarTotal, archiveBlocks, hsum]
  omega

theorem archiveBlocks_nonneg (m : WorkspaceManifest) : 0 ≤ archiveBlocks m := by
  have hentry (entry : WorkspaceEntry) : 0 ≤ entryBlocks entry := by
    have hsize := entry.size_nonneg
    have hname : 0 ≤ nameLength entry := Int.natCast_nonneg _
    rw [entryBlocks, blocks, blocks]
    split_ifs <;> omega
  have hsum : 0 ≤ (m.entries.map entryBlocks).sum := by
    apply List.sum_nonneg
    intro _ hn
    obtain ⟨entry, _, rfl⟩ := List.mem_map.mp hn
    exact hentry entry
  rw [archiveBlocks]
  omega

end Archive

section Streams
variable (s : Settings)

def importLimit : Int := s.workspaceMaxBytes

theorem importLimit_pos : 0 < importLimit s := by
  have hmin := s.maxBytes_ge
  rw [importLimit]
  omega

/-- What the daemon's archive of a tree holds beside contents: the headers of each object, and the root's with the end. -/
structure Framing where
  headers : ScanEntry → Nat
  ends : Nat

def importReceiver : Sandbox.StreamReceiver where
  limit := importLimit s
  limit_pos := importLimit_pos s

theorem import_admitted_iff {c : Sandbox.Codec} {m : WorkspaceManifest} {payload : List UInt8} {document : Sandbox.Document}
    (hdocument : c.document payload = some document) (htotal : document.totalLimit = some (tarTotal m)) :
    ((importReceiver s).accept c ⟨.start, 0, payload⟩).2.ok = true ↔ tarTotal m ≤ importLimit s := by
  have hnonneg : 0 ≤ tarTotal m := by
    rw [tarTotal_blocks]
    exact Int.mul_nonneg (by decide) (archiveBlocks_nonneg m)
  exact Sandbox.StreamReceiver.accept_start_ok_iff rfl rfl hdocument htotal hnonneg

end Streams

section Restorable
variable {nfc : String → String}

def ScanEntry.counted (entry : ScanEntry) : Int := if entry.entryType = "file" then entry.size else 0

def smallest : Settings where
  workspaceMaxBytes := 1048576
  workspaceMaxObjects := 100
  maxBytes_ge := by decide
  maxBytes_le := by decide
  maxObjects_ge := by decide
  maxObjects_le := by decide

end Restorable

end TinyHermes.SessionWorkspace
