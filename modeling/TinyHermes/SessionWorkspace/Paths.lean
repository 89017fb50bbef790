import TinyHermes.Lib.Paths
import TinyHermes.SessionWorkspace.Manifest

/-! Which paths a manifest holds: those that `normalize_workspace_path` leaves as they are. -/
namespace TinyHermes.SessionWorkspace
open Lib

def joined (parts : List (List Char)) : String := String.ofList (['/'].intercalate parts)

theorem joined_segments (path : String) : joined (segments path) = path := by
  rw [joined, segments, List.intercalate_splitOn, String.ofList_toList]

theorem segments_joined {parts : List (List Char)} (hne : parts ≠ []) (hslash : ∀ s ∈ parts, '/' ∉ s) :
    segments (joined parts) = parts := by
  rw [segments, joined, String.toList_ofList, List.splitOn_intercalate '/' hslash hne]

variable {path : String}

theorem slash_not_mem {s : List Char} (h : s ∈ segments path) : '/' ∉ s := Paths.sep_not_mem_splitOn h

theorem segments_ne_nil (path : String) : segments path ≠ [] := List.splitOn_ne_nil '/' _

theorem mem_iff_mem_segments {c : Char} (hc : c ≠ '/') : c ∈ path.toList ↔ ∃ s ∈ segments path, c ∈ s :=
  Paths.mem_iff_mem_splitOn hc

section Legality

def LegalSegment (s : List Char) : Prop := '\x00' ∉ s ∧ '\\' ∉ s ∧ illegalSegment s = false

/-- What `normalize_workspace_path` asks of a path, segment by segment. -/
def Legal (path : String) : Prop := ∀ s ∈ segments path, LegalSegment s

theorem LegalSegment.ne_nil {s : List Char} (h : LegalSegment s) : s ≠ [] := by
  rintro rfl
  exact absurd h.2.2 (by decide)

theorem Legal.ne_empty (h : Legal path) : path ≠ "" := by
  rintro rfl
  exact (h [] (by decide)).ne_nil rfl

theorem Legal.relative (h : Legal path) : path.toList.head? ≠ some '/' := by
  intro hhead
  obtain ⟨_, hrest⟩ := List.head?_eq_some_iff.mp hhead
  have hempty : [] ∈ segments path := by
    rw [segments, hrest, List.splitOn_cons_eq_if_modifyHead, if_pos (beq_self_eq_true _)]
    exact List.mem_cons_self
  exact (h [] hempty).ne_nil rfl

theorem normalizeWorkspacePath_ok_iff {nfc : String → String} {target : String} :
    normalizeWorkspacePath nfc path = .ok target ↔ Legal path ∧ target = nfc path := by
  constructor
  · intro h
    refine ⟨?_, normalizeWorkspacePath_ok h⟩
    rw [normalizeWorkspacePath] at h
    split_ifs at h with _ hnul hbackslash _ hsegments
    intro s hs
    refine ⟨?_, ?_, ?_⟩
    · intro hmem
      exact hnul ((mem_iff_mem_segments (by decide)).mpr ⟨s, hs, hmem⟩)
    · intro hmem
      exact hbackslash ((mem_iff_mem_segments (by decide)).mpr ⟨s, hs, hmem⟩)
    · apply Bool.eq_false_iff.mpr
      intro hillegal
      exact hsegments (List.any_eq_true.mpr ⟨s, hs, hillegal⟩)
  · rintro ⟨hlegal, rfl⟩
    have hnul : '\x00' ∉ path.toList := by
      intro hmem
      obtain ⟨s, hs, hmem⟩ := (mem_iff_mem_segments (by decide)).mp hmem
      exact (hlegal s hs).1 hmem
    have hbackslash : '\\' ∉ path.toList := by
      intro hmem
      obtain ⟨s, hs, hmem⟩ := (mem_iff_mem_segments (by decide)).mp hmem
      exact (hlegal s hs).2.1 hmem
    have hsegments : (segments path).any illegalSegment = false := by
      apply List.any_eq_false.mpr
      intro s hs
      rw [(hlegal s hs).2.2]
      exact Bool.false_ne_true
    rw [normalizeWorkspacePath, if_neg hlegal.ne_empty, if_neg hnul, if_neg hbackslash, if_neg hlegal.relative, hsegments]
    rfl

end Legality

section Normalizing

/-- What Unicode says of NFC, as far as paths need it: twice is once, a slash takes part in no composition, and what a path is
refused for neither comes from others nor becomes others. -/
structure NormalForm (nfc : String → String) : Prop where
  idem : ∀ s, nfc (nfc s) = nfc s
  slash : ∀ a b, nfc (a ++ "/" ++ b) = nfc a ++ "/" ++ nfc b
  kept : ∀ c ∈ ['\x00', '/', '\\'], ∀ s, c ∈ (nfc s).toList ↔ c ∈ s.toList
  whole : ∀ t ∈ ["", ".", ".."], ∀ s, nfc s = t ↔ s = t

variable {nfc : String → String}

def ofSegment (nfc : String → String) (s : List Char) : List Char := (nfc (String.ofList s)).toList

theorem NormalForm.nfc_joined (h : NormalForm nfc) {parts : List (List Char)} (hne : parts ≠ []) :
    nfc (joined parts) = joined (parts.map (ofSegment nfc)) := by
  induction parts with
  | nil => exact absurd rfl hne
  | cons s rest ih =>
    cases rest with
    | nil =>
      simp only [joined, List.map_singleton, List.intercalate_singleton, ofSegment, String.ofList_toList]
    | cons t rest =>
      have hcut : joined (s :: t :: rest) = String.ofList s ++ "/" ++ joined (t :: rest) := by
        apply String.toList_injective
        simp [joined, List.intercalate_cons_cons]
      have hcut' : joined ((s :: t :: rest).map (ofSegment nfc)) =
          nfc (String.ofList s) ++ "/" ++ joined ((t :: rest).map (ofSegment nfc)) := by
        apply String.toList_injective
        simp [joined, List.intercalate_cons_cons, ofSegment]
      rw [hcut, h.slash, ih (by simp), hcut']

theorem NormalForm.ofSegment_kept (h : NormalForm nfc) {c : Char} (hc : c ∈ ['\x00', '/', '\\']) (s : List Char) :
    c ∈ ofSegment nfc s ↔ c ∈ s := by
  rw [ofSegment, h.kept c hc, String.toList_ofList]

theorem NormalForm.segments_nfc (h : NormalForm nfc) (path : String) :
    segments (nfc path) = (segments path).map (ofSegment nfc) := by
  conv_lhs => rw [← joined_segments path, h.nfc_joined (segments_ne_nil path)]
  apply segments_joined
  · simpa using segments_ne_nil path
  · intro _ hs
    obtain ⟨_, ht, rfl⟩ := List.mem_map.mp hs
    rw [h.ofSegment_kept (by simp)]
    exact slash_not_mem ht

theorem NormalForm.illegal_ofSegment (h : NormalForm nfc) (s : List Char) :
    illegalSegment (ofSegment nfc s) = illegalSegment s := by
  have hwhole : ∀ t ∈ ["", ".", ".."], ofSegment nfc s = t.toList ↔ s = t.toList := by
    intro t ht
    rw [ofSegment, String.toList_inj, h.whole t ht]
    constructor
    · rintro rfl
      exact String.toList_ofList.symm
    · rintro rfl
      exact String.ofList_toList
  have hempty : ofSegment nfc s = [] ↔ s = [] := hwhole "" (by simp)
  have hdot : ofSegment nfc s = ['.'] ↔ s = ['.'] := hwhole "." (by simp)
  have hdots : ofSegment nfc s = ['.', '.'] ↔ s = ['.', '.'] := hwhole ".." (by simp)
  simp only [illegalSegment, hempty, hdot, hdots]

theorem NormalForm.legal (h : NormalForm nfc) (hlegal : Legal path) : Legal (nfc path) := by
  intro _ hs
  rw [h.segments_nfc] at hs
  obtain ⟨t, ht, rfl⟩ := List.mem_map.mp hs
  obtain ⟨_, _, _⟩ := hlegal t ht
  refine ⟨?_, ?_, ?_⟩
  · rwa [h.ofSegment_kept (by simp)]
  · rwa [h.ofSegment_kept (by simp)]
  · rwa [h.illegal_ofSegment]

theorem normalForm_id : NormalForm id where
  idem _ := rfl
  slash _ _ := rfl
  kept _ _ _ := Iff.rfl
  whole _ _ _ := Iff.rfl

def Settled (nfc : String → String) (path : String) : Prop := normalizeWorkspacePath nfc path = .ok path

theorem settled_iff : Settled nfc path ↔ Legal path ∧ nfc path = path := by
  rw [Settled, normalizeWorkspacePath_ok_iff, eq_comm]

theorem NormalForm.settled (h : NormalForm nfc) {target : String} (hpath : normalizeWorkspacePath nfc path = .ok target) :
    Settled nfc target := by
  obtain ⟨hlegal, rfl⟩ := normalizeWorkspacePath_ok_iff.mp hpath
  exact settled_iff.mpr ⟨h.legal hlegal, h.idem path⟩

end Normalizing

section Ancestors
variable {nfc : String → String} {path a : String}

/-- The directories a path lies in, as the loop of `project_write` names them. -/
def ancestors (path : String) : List String :=
  (Paths.ancestorsFrom '/' [] (segments path).dropLast).map String.ofList

theorem Legal.parts (h : Legal path) : ∀ part ∈ (segments path).dropLast, part ≠ [] :=
  fun part hpart => (h part (List.mem_of_mem_dropLast hpart)).ne_nil

theorem Legal.nodup_ancestors (h : Legal path) : (ancestors path).Nodup :=
  (Paths.nodup_ancestorsFrom h.parts).map fun _ _ h => String.ofList_injective h

theorem Legal.mem_ancestors (h : Legal path) (ha : a ∈ ancestors path) :
    ∃ front back, front ≠ [] ∧ back ≠ [] ∧ segments path = front ++ back ∧ a = joined front ∧ segments a = front := by
  obtain ⟨_, hcs, rfl⟩ := List.mem_map.mp ha
  obtain ⟨front, back, hne, hparts, rfl⟩ := Paths.mem_ancestorsFrom_nil h.parts hcs
  have hsplit : segments path = front ++ (back ++ [(segments path).getLast (segments_ne_nil path)]) := by
    rw [← List.append_assoc, ← hparts, List.dropLast_append_getLast]
  refine ⟨front, _, hne, by simp, hsplit, rfl, segments_joined hne ?_⟩
  intro s hs
  have hmem : s ∈ segments path := by
    rw [hsplit]
    exact List.mem_append_left _ hs
  exact slash_not_mem hmem

theorem Legal.ancestor (h : Legal path) (ha : a ∈ ancestors path) : Legal a := by
  obtain ⟨_, _, _, _, hsplit, _, hsegments⟩ := h.mem_ancestors ha
  intro _ hs
  rw [hsegments] at hs
  apply h
  rw [hsplit]
  exact List.mem_append_left _ hs

theorem Legal.not_mem_ancestors (h : Legal path) : path ∉ ancestors path := by
  intro hmem
  obtain ⟨_, _, _, hback, hsplit, _, hsegments⟩ := h.mem_ancestors hmem
  rw [hsegments] at hsplit
  exact hback (List.append_right_eq_self.mp hsplit.symm)

theorem NormalForm.settled_ancestor (h : NormalForm nfc) (hpath : Settled nfc path) (ha : a ∈ ancestors path) :
    Settled nfc a := by
  obtain ⟨hlegal, hnfc⟩ := settled_iff.mp hpath
  obtain ⟨front, _, hne, _, hsplit, rfl, _⟩ := hlegal.mem_ancestors ha
  have hfixed : (segments path).map (ofSegment nfc) = segments path := by
    rw [← h.segments_nfc, hnfc]
  rw [hsplit, List.map_append] at hfixed
  have hfront : front.map (ofSegment nfc) = front := (List.append_inj hfixed (List.length_map _)).1
  refine settled_iff.mpr ⟨hlegal.ancestor ha, ?_⟩
  rw [h.nfc_joined hne, hfront]

end Ancestors

section Building
variable {nfc : String → String} {entries seen : List WorkspaceEntry} {m : WorkspaceManifest}

/-- The loop of `build_manifest` goes through when every path is legal and no two become the same. -/
theorem normalizeEntries_returns (hlegal : ∀ e ∈ entries, Legal e.path)
    (hdistinct : entries.Pairwise fun a b => nfc a.path ≠ nfc b.path)
    (hseen : ∀ s ∈ seen, ∀ e ∈ entries, s.path ≠ nfc e.path) :
    normalizeEntries nfc seen entries = .ok (seen ++ entries.map fun e => e.normalized (nfc e.path)) := by
  induction entries generalizing seen with
  | nil => rw [normalizeEntries, List.map_nil, List.append_nil]
  | cons entry rest ih =>
    obtain ⟨hhead, hrest⟩ := List.pairwise_cons.mp hdistinct
    have hpath : normalizeWorkspacePath nfc entry.path = .ok (nfc entry.path) :=
      normalizeWorkspacePath_ok_iff.mpr ⟨hlegal entry List.mem_cons_self, rfl⟩
    have hnew : (seen.any fun e => e.path = nfc entry.path) = false := by
      apply List.any_eq_false.mpr
      intro s hs
      rw [decide_eq_true_eq]
      exact hseen s hs entry List.mem_cons_self
    rw [normalizeEntries, hpath]
    change (if (seen.any fun e => e.path = nfc entry.path) = true then _ else _) = _
    rw [hnew, if_neg Bool.false_ne_true, ih (fun e he => hlegal e (List.mem_cons_of_mem _ he)) hrest, List.map_cons,
      List.append_assoc, List.singleton_append]
    intro s hs e he
    rcases List.mem_append.mp hs with hs | hs
    · exact hseen s hs e (List.mem_cons_of_mem _ he)
    · rw [List.mem_singleton.mp hs]
      exact hhead e he

/-- `build_manifest` returns for legal paths that stay apart, and only for these. -/
theorem buildManifest_returns_iff (schemaVersion : Int) : (∃ m, buildManifest nfc entries schemaVersion = .ok m) ↔
    (∀ e ∈ entries, Legal e.path) ∧ entries.Pairwise fun a b => nfc a.path ≠ nfc b.path := by
  constructor
  · rintro ⟨_, hm⟩
    obtain ⟨_, hdistinct, hpaths⟩ := buildManifest_ok hm
    exact ⟨fun e he => (normalizeWorkspacePath_ok_iff.mp (hpaths e he)).1, hdistinct⟩
  · rintro ⟨hlegal, hdistinct⟩
    have hreturned : normalizeEntries nfc [] entries = .ok ([] ++ entries.map fun e => e.normalized (nfc e.path)) :=
      normalizeEntries_returns hlegal hdistinct fun s hs => absurd hs List.not_mem_nil
    unfold buildManifest
    split
    · exact ⟨_, rfl⟩
    · rename_i refusal hrefused
      rw [hrefused] at hreturned
      cases hreturned

/-- A manifest that `build_manifest` made, of whatever entries. -/
def Built (nfc : String → String) (m : WorkspaceManifest) : Prop := ∃ entries schemaVersion, buildManifest nfc entries schemaVersion = .ok m

theorem Built.settled (hbuilt : Built nfc m) (hnfc : NormalForm nfc) : ∀ e ∈ m.entries, Settled nfc e.path := by
  obtain ⟨_, _, hm⟩ := hbuilt
  obtain ⟨hperm, _, hpaths⟩ := buildManifest_ok hm
  intro _ he
  obtain ⟨source, hsource, rfl⟩ := List.mem_map.mp (hperm.mem_iff.mp he)
  exact hnfc.settled (hpaths source hsource)

end Building

end TinyHermes.SessionWorkspace
