import TinyHermes.SessionWorkspace.Paths

/-! `project_write`, and the manifest of the tree after the write. -/
namespace TinyHermes.SessionWorkspace

structure ProjectedTotals where
  totalBytes : Int
  objectCount : Nat
  deriving DecidableEq, Repr

/-- `existing`, by its path. -/
def WorkspaceManifest.find (m : WorkspaceManifest) (path : String) : Option WorkspaceEntry := m.entries.find? fun e => e.path = path

/-- The directories a write at `target` has to make. -/
def missing (m : WorkspaceManifest) (target : String) : List String := (ancestors target).filter fun a => (m.find a).isNone

/-- `project_write`. -/
def projectWrite (nfc : String → String) (m : WorkspaceManifest) (path : String) (size : Int) : Except Refusal ProjectedTotals := do
  let target ← normalizeWorkspacePath nfc path
  match m.find target with
  | some replaced => return { totalBytes := m.totalBytes - replaced.size + size, objectCount := m.objectCount }
  | none => return { totalBytes := m.totalBytes + size, objectCount := m.objectCount + 1 + (missing m target).length }

/-- The entries once `file` is written: instead of what had its path, or in directories made for it. -/
def written (m : WorkspaceManifest) (target : String) (file : WorkspaceEntry) (mode : String → Int) : List WorkspaceEntry :=
  file :: ((missing m target).map fun a => .directory a (mode a)) ++ m.entries.filter fun e => e.path ≠ target

def ClosedUnderParents (m : WorkspaceManifest) : Prop :=
  ∀ e ∈ m.entries, ∀ a ∈ ancestors e.path, ∃ d ∈ m.entries, d.path = a ∧ d.entryType = .directory

section Written
variable {nfc : String → String} {m : WorkspaceManifest} {target path : String} {file e : WorkspaceEntry}

theorem find_some (h : m.find path = some e) : e ∈ m.entries ∧ e.path = path :=
  ⟨List.mem_of_find?_eq_some h, by simpa using List.find?_some h⟩

theorem find_none : m.find path = none ↔ ∀ e ∈ m.entries, e.path ≠ path := by
  simp [WorkspaceManifest.find]

theorem perm_cons_filter (h : m.find target = some e) : m.entries.Perm (e :: m.entries.filter fun e => e.path ≠ target) := by
  obtain ⟨hmem, rfl⟩ := find_some h
  obtain ⟨before, after, hsplit⟩ := List.append_of_mem hmem
  have hordered := m.ordered
  rw [hsplit] at hordered ⊢
  obtain ⟨_, hafter, hbefore⟩ := List.pairwise_append.mp hordered
  have hkeep : ∀ l : List WorkspaceEntry, (∀ d ∈ l, d.path ≠ e.path) → (l.filter fun d => d.path ≠ e.path) = l := by
    intro _ hl
    apply List.filter_eq_self.mpr
    intro d hd
    exact decide_eq_true (hl d hd)
  rw [List.filter_append, List.filter_cons_of_neg (by simp), hkeep before, hkeep after]
  · exact List.perm_middle
  · intro d hd
    exact ((List.pairwise_cons.mp hafter).1 d hd).ne'
  · intro d hd
    exact (hbefore d hd e List.mem_cons_self).ne

theorem ClosedUnderParents.missing_eq_nil (hclosed : ClosedUnderParents m) (h : m.find target = some e) :
    missing m target = [] := by
  obtain ⟨hmem, rfl⟩ := find_some h
  apply List.filter_eq_nil_iff.mpr
  intro a ha hnone
  obtain ⟨d, hd, hpath, _⟩ := hclosed e hmem a ha
  exact find_none.mp (Option.isNone_iff_eq_none.mp hnone) d hd hpath

theorem size_directories (m : WorkspaceManifest) (target : String) (mode : String → Int) :
    (((missing m target).map fun a => WorkspaceEntry.directory a (mode a)).map (·.size)).sum = 0 := by
  apply List.sum_eq_zero
  intro _ hsize
  simp only [List.map_map, List.mem_map] at hsize
  obtain ⟨_, _, rfl⟩ := hsize
  rfl

theorem size_written (m : WorkspaceManifest) (target : String) (file : WorkspaceEntry) (mode : String → Int) :
    ((written m target file mode).map (·.size)).sum =
      file.size + ((m.entries.filter fun e => e.path ≠ target).map (·.size)).sum := by
  rw [written, List.map_append, List.sum_append, List.map_cons, List.sum_cons, size_directories, add_zero]

theorem length_written (m : WorkspaceManifest) (target : String) (file : WorkspaceEntry) (mode : String → Int) :
    (written m target file mode).length =
      1 + (missing m target).length + (m.entries.filter fun e => e.path ≠ target).length := by
  simp [written]
  omega

/-- `project_write` counts the entries after the write. -/
theorem projectWrite_eq (mode : String → Int) (hclosed : ClosedUnderParents m) (hpath : normalizeWorkspacePath nfc path = .ok target) :
    projectWrite nfc m path file.size = .ok {
      totalBytes := ((written m target file mode).map (·.size)).sum
      objectCount := (written m target file mode).length } := by
  rw [projectWrite, hpath, size_written, length_written]
  dsimp only [bind, Except.bind]
  cases hfind : m.find target with
  | some =>
    have hperm := perm_cons_filter hfind
    have hsum := (hperm.map (·.size)).sum_eq
    have hlength := hperm.length_eq
    rw [List.map_cons, List.sum_cons] at hsum
    rw [List.length_cons] at hlength
    dsimp only [pure, Except.pure]
    rw [hclosed.missing_eq_nil hfind, WorkspaceManifest.totalBytes, WorkspaceManifest.objectCount, hsum, hlength]
    congr 2
    · ring
    · rw [List.length_nil]
      omega
  | none =>
    have hall : (m.entries.filter fun e => e.path ≠ target) = m.entries := by
      apply List.filter_eq_self.mpr
      intro e he
      exact decide_eq_true (find_none.mp hfind e he)
    dsimp only [pure, Except.pure]
    rw [hall, WorkspaceManifest.totalBytes, WorkspaceManifest.objectCount]
    congr 2
    · ring
    · omega

theorem written_returns (mode : String → Int) (hnfc : NormalForm nfc) (hbuilt : Built nfc m) (hpath : normalizeWorkspacePath nfc file.path = .ok target) :
    (∀ e ∈ written m target file mode, Legal e.path) ∧
      (written m target file mode).Pairwise fun a b => nfc a.path ≠ nfc b.path := by
  obtain ⟨hfile, htarget⟩ := normalizeWorkspacePath_ok_iff.mp hpath
  have hsettled := hnfc.settled hpath
  have hlegal := (settled_iff.mp hsettled).1
  have hmissing : ∀ a ∈ missing m target, Settled nfc a ∧ a ≠ target ∧ ∀ e ∈ m.entries, e.path ≠ a := by
    intro a ha
    obtain ⟨hancestor, hnone⟩ := List.mem_filter.mp ha
    refine ⟨hnfc.settled_ancestor hsettled hancestor, ?_, find_none.mp (Option.isNone_iff_eq_none.mp hnone)⟩
    rintro rfl
    exact hlegal.not_mem_ancestors hancestor
  have hkept : ∀ e ∈ m.entries.filter fun e => e.path ≠ target, e ∈ m.entries ∧ e.path ≠ target := by
    intro e he
    obtain ⟨hmem, hne⟩ := List.mem_filter.mp he
    exact ⟨hmem, of_decide_eq_true hne⟩
  have hfixed : ∀ {p}, Settled nfc p → nfc p = p := fun h => (settled_iff.mp h).2
  constructor
  · intro e he
    rcases List.mem_cons.mp he with rfl | he
    · exact hfile
    · rcases List.mem_append.mp he with he | he
      · obtain ⟨a, ha, rfl⟩ := List.mem_map.mp he
        exact (settled_iff.mp (hmissing a ha).1).1
      · exact (settled_iff.mp (hbuilt.settled hnfc e (hkept e he).1)).1
  · apply List.pairwise_cons.mpr
    constructor
    · intro e he
      rw [← htarget]
      rcases List.mem_append.mp he with he | he
      · obtain ⟨a, ha, rfl⟩ := List.mem_map.mp he
        change target ≠ nfc a
        rw [hfixed (hmissing a ha).1]
        exact (hmissing a ha).2.1.symm
      · rw [hfixed (hbuilt.settled hnfc e (hkept e he).1)]
        exact (hkept e he).2.symm
    · apply List.pairwise_append.mpr
      refine ⟨?_, ?_, ?_⟩
      · apply List.pairwise_map.mpr
        apply (hlegal.nodup_ancestors.filter _).imp_of_mem
        intro a b ha hb _
        change nfc a ≠ nfc b
        rwa [hfixed (hmissing a ha).1, hfixed (hmissing b hb).1]
      · apply (m.ordered.filter _).imp_of_mem
        intro a b ha hb hlt
        rw [hfixed (hbuilt.settled hnfc a (hkept a ha).1), hfixed (hbuilt.settled hnfc b (hkept b hb).1)]
        exact hlt.ne
      · intro _ hd e he
        obtain ⟨a, ha, rfl⟩ := List.mem_map.mp hd
        change nfc a ≠ nfc e.path
        rw [hfixed (hmissing a ha).1, hfixed (hbuilt.settled hnfc e (hkept e he).1)]
        exact ((hmissing a ha).2.2 e (hkept e he).1).symm

/-- The preflight is right: what `project_write` says of a write is what `build_manifest` finds in any listing
of the tree after it. -/
theorem projectWrite_predicts (hnfc : NormalForm nfc) (hbuilt : Built nfc m) (hclosed : ClosedUnderParents m)
    (hpath : normalizeWorkspacePath nfc file.path = .ok target) (mode : String → Int) (schemaVersion : Int)
    {entries : List WorkspaceEntry} (hentries : entries.Perm (written m target file mode)) :
    ∃ m', buildManifest nfc entries schemaVersion = .ok m' ∧
      projectWrite nfc m file.path file.size = .ok { totalBytes := m'.totalBytes, objectCount := m'.objectCount } := by
  obtain ⟨hlegal, hdistinct⟩ := written_returns mode hnfc hbuilt hpath
  obtain ⟨m', hm'⟩ := (buildManifest_returns_iff schemaVersion).mpr
    ⟨fun e he => hlegal e (hentries.mem_iff.mp he), (hentries.pairwise_iff fun h => Ne.symm h).mpr hdistinct⟩
  obtain ⟨hperm, _, _⟩ := buildManifest_ok hm'
  refine ⟨m', hm', ?_⟩
  rw [projectWrite_eq mode hclosed hpath, WorkspaceManifest.totalBytes, WorkspaceManifest.objectCount, (hperm.map (·.size)).sum_eq,
    hperm.length_eq, List.map_map, List.length_map, hentries.length_eq]
  congr 2
  exact ((hentries.map (·.size)).sum_eq).symm

def oneDirectory : WorkspaceManifest where
  schemaVersion := 1
  entries := [.directory "a" 493]
  ordered := List.pairwise_singleton _ _

theorem oneDirectory_built : Built id oneDirectory := ⟨[.directory "a" 493], 1, rfl⟩

theorem oneDirectory_closed : ClosedUnderParents oneDirectory := by
  intro _ he _ ha
  rw [List.mem_singleton.mp he] at ha
  cases ha

def newFile : WorkspaceEntry where
  path := "a/b/c"
  entryType := .file
  mode := 420
  size := 5
  sha256 := some "0123456789abcdef0123456789abcdef0123456789abcdef0123456789abcdef"
  sound := rfl

theorem newFile_predicted : ∃ m', buildManifest id (written oneDirectory "a/b/c" newFile fun _ => 493) 1 = .ok m' ∧
    projectWrite id oneDirectory "a/b/c" 5 = .ok { totalBytes := m'.totalBytes, objectCount := m'.objectCount } :=
  projectWrite_predicts normalForm_id oneDirectory_built oneDirectory_closed rfl _ 1 (List.Perm.refl _)

example : projectWrite id oneDirectory "a/b/c" 5 = .ok { totalBytes := 5, objectCount := 3 } := by decide

end Written

end TinyHermes.SessionWorkspace
