import TinyHermes.Lib.Firsts
import TinyHermes.SessionWorkspace.Manifest

/-! The archive of a sandbox's tree, read once for its manifest and once for the bodies a checkpoint needs. -/
namespace TinyHermes.SessionWorkspace
open Lib

inductive MemberKind where
  | regular | directory | symlink | hardlink | device | fifo | other
  deriving DecidableEq, Repr

/-- `_member_type`. -/
def memberType : MemberKind → String
  | .regular => "file"
  | .directory => "directory"
  | .symlink => "symlink"
  | .hardlink => "hardlink"
  | .device => "device"
  | .fifo => "fifo"
  | .other => "other"

structure ArchiveMember where
  name : String
  kind : MemberKind
  mode : Int
  body : List UInt8

/-- `name.partition("/")[2]`. -/
def afterSlash (name : String) : String := String.ofList (name.toList.dropWhile (· ≠ '/')).tail

/-- `_relative_name`. -/
def relativeName (raw : String) : String := String.ofList ((afterSlash raw).toList.rdropWhile (· = '/'))

def isHexDigest (digest : String) : Bool :=
  digest.length = digestHexLength && digest.toList.all fun c => c ∈ "0123456789abcdef".toList

/-- `sha256(_).hexdigest()`. -/
structure Hasher where
  digest : List UInt8 → String
  hex : ∀ body, isHexDigest (digest body) = true

section Scan
variable (hasher : Hasher)

def ArchiveMember.scanned (path : String) (member : ArchiveMember) : ScanEntry where
  path := path
  entryType := memberType member.kind
  mode := member.mode
  size := if member.kind = .regular then member.body.length else 0
  sha256 := if member.kind = .regular then some (hasher.digest member.body) else none

/-- `scan_tree`. -/
def scanTree (archive : List ArchiveMember) : List ScanEntry :=
  archive.filterMap fun member =>
    if relativeName member.name = "" then none else some (member.scanned hasher (relativeName member.name))

end Scan

section Export

structure ExportedFile where
  path : String
  body : List UInt8

/-- `export_files`. -/
def exportFiles (wanted : List String) (archive : List ArchiveMember) : List ExportedFile :=
  archive.filterMap fun member =>
    if member.kind ≠ .regular ∨ afterSlash member.name ∉ wanted then none
    else some { path := afterSlash member.name, body := member.body }

end Export

section Stage

inductive StageFailure where
  | invalidObjectDigest (start : String)
  | invalidName (refusal : Refusal)
  | keyError (key : String)
  | objectTooLarge (limit : Int)
  | digestMismatch (path : String)
  /-- "the export skipped a needed body" -/
  | skipped
  deriving DecidableEq

/-- `blob_object`, as far as it refuses. -/
def blobObject (digest : String) : Except StageFailure Unit :=
  if isHexDigest digest then .ok () else .error (.invalidObjectDigest (String.ofList (digest.toList.take 16)))

/-- `staging_object` of a body, as far as it refuses. -/
def stagingObject (nfc : String → String) (digest : String) : Except StageFailure Unit :=
  match normalizeWorkspacePath nfc ("blob-" ++ digest) with
  | .ok _ => .ok ()
  | .error refusal => .error (.invalidName refusal)

/-- `base_digests`. -/
def baseDigests (base : Option WorkspaceManifest) : List String :=
  match base with
  | none => []
  | some m => m.entries.filterMap fun entry => entry.sha256.filter (· ≠ "")

def newDigest (base : Option WorkspaceManifest) (entry : WorkspaceEntry) : Option String :=
  entry.sha256.filter fun digest => digest ≠ "" && decide (digest ∉ baseDigests base)

/-- `wanted`: for each digest the base does not have, the first entry with it. -/
def wantedBodies (m : WorkspaceManifest) (base : Option WorkspaceManifest) : List (String × WorkspaceEntry) :=
  firsts (newDigest base) m.entries

/-- `needed`: of these, what the object store does not have; `held` is what `stat` finds. -/
def neededBodies (m : WorkspaceManifest) (base : Option WorkspaceManifest) (held : String → Bool) : List (String × WorkspaceEntry) :=
  (wantedBodies m base).filter fun e => !held e.1

/-- `by_path`. -/
def byPaths (needed : List (String × WorkspaceEntry)) : List (String × String) := needed.map fun e => (e.2.path, e.1)

/-- What the loop of `_stage_bodies` does with one exported file. -/
def stageFile (nfc : String → String) (hasher : Hasher) (needed : List (String × WorkspaceEntry)) (exported : ExportedFile) :
    Except StageFailure (String × List UInt8) :=
  match (byPaths needed).lookup exported.path with
  | none => .error (.keyError exported.path)
  | some digest =>
    match stagingObject nfc digest with
    | .error failure => .error failure
    | .ok _ =>
      match needed.lookup digest with
      | none => .error (.keyError digest)
      | some entry =>
        if entry.size < exported.body.length then .error (.objectTooLarge entry.size)
        else if hasher.digest exported.body ≠ digest then .error (.digestMismatch exported.path)
        else .ok (digest, exported.body)

/-- `_stage_bodies`, with the bodies it puts; `archive` is what the sandbox exports. -/
def stageBodies (nfc : String → String) (hasher : Hasher) (m : WorkspaceManifest) (base : Option WorkspaceManifest)
    (held : String → Bool) (archive : List ArchiveMember) : Except StageFailure (List (String × List UInt8)) := do
  let _ ← (wantedBodies m base).mapM fun e => blobObject e.1
  let needed := neededBodies m base held
  let staged ← (exportFiles ((byPaths needed).map (·.1)) archive).mapM (stageFile nfc hasher needed)
  if (needed.map (·.1)).all (· ∈ staged.map (·.1)) && (staged.map (·.1)).all (· ∈ needed.map (·.1)) then .ok staged
  else .error .skipped

end Stage

section Trees

structure TreeMember where
  path : String
  kind : MemberKind
  mode : Int
  body : List UInt8
  path_ne : path ≠ ""
  path_last : path.toList.getLast? ≠ some '/'

structure DataTree where
  rootMode : Int
  members : List TreeMember

def TreeMember.archived (member : TreeMember) : ArchiveMember where
  name := "data/" ++ member.path
  kind := member.kind
  mode := member.mode
  body := member.body

/-- The daemon's archive of `/workspace/data`. -/
def DataTree.archive (tree : DataTree) : List ArchiveMember :=
  { name := "data", kind := .directory, mode := tree.rootMode, body := [] } :: tree.members.map TreeMember.archived

theorem afterSlash_data (path : String) : afterSlash ("data/" ++ path) = path := by
  rw [afterSlash, String.toList_append]
  have hdrop : ("data/".toList ++ path.toList).dropWhile (· ≠ '/') = '/' :: path.toList := rfl
  rw [hdrop, List.tail_cons, String.ofList_toList]

theorem relativeName_data (member : TreeMember) : relativeName ("data/" ++ member.path) = member.path := by
  have hlast : member.path.toList.rdropWhile (· = '/') = member.path.toList := by
    apply List.rdropWhile_eq_self_iff.mpr
    intro hne hslash
    apply member.path_last
    rw [List.getLast?_eq_some_getLast hne]
    exact congrArg some (of_decide_eq_true hslash)
  rw [relativeName, afterSlash_data, hlast, String.ofList_toList]

theorem scanTree_archive (hasher : Hasher) (tree : DataTree) :
    scanTree hasher tree.archive = tree.members.map fun member => member.archived.scanned hasher member.path := by
  have hroot : relativeName "data" = "" := by decide
  rw [scanTree, DataTree.archive, List.filterMap_cons_none (by simp [hroot]), List.filterMap_map, ← List.filterMap_eq_map]
  apply List.filterMap_congr
  intro member _
  have hname : relativeName member.archived.name = member.path := relativeName_data member
  rw [Function.comp_apply, hname, if_neg member.path_ne]
  rfl

theorem exportFiles_archive (wanted : List String) (tree : DataTree) :
    exportFiles wanted tree.archive =
      (tree.members.filter fun member => member.kind = .regular ∧ member.path ∈ wanted).map fun member =>
        { path := member.path, body := member.body } := by
  rw [exportFiles, DataTree.archive, List.filterMap_cons_none (by simp), List.filterMap_map, ← List.filterMap_eq_map,
    List.filterMap_filter]
  apply List.filterMap_congr
  intro member _
  have hname : afterSlash member.archived.name = member.path := afterSlash_data member.path
  have hkind : member.archived.kind = member.kind := rfl
  rw [Function.comp_apply, hname, hkind]
  by_cases hwanted : member.kind = .regular ∧ member.path ∈ wanted
  · rw [if_neg (by simp [hwanted]), if_pos (by simpa using hwanted)]
    rfl
  · have hskipped : member.kind ≠ .regular ∨ member.path ∉ wanted := by
      rw [← not_and_or]
      exact hwanted
    rw [if_pos hskipped, if_neg (by simpa using hwanted)]

end Trees

section Scanned
variable {nfc : String → String} {hasher : Hasher} {tree : DataTree} {m : WorkspaceManifest}

structure Describes (nfc : String → String) (hasher : Hasher) (member : TreeMember) (entry : WorkspaceEntry) : Prop where
  path : entry.path = nfc member.path
  digest : entry.sha256 = if member.kind = .regular then some (hasher.digest member.body) else none
  size : member.kind = .regular → entry.size = member.body.length

theorem judged_describes {member : TreeMember} {judged : WorkspaceEntry}
    (h : (member.archived.scanned hasher member.path).judged = .ok judged) :
    Describes nfc hasher member (judged.normalized (nfc judged.path)) := by
  obtain ⟨hpath, _, hkinds⟩ := ScanEntry.judged_ok h
  have hname : (member.archived.scanned hasher member.path).path = member.path := rfl
  have htype : (member.archived.scanned hasher member.path).entryType = memberType member.kind := rfl
  have hdigest : (member.archived.scanned hasher member.path).sha256 =
      if member.kind = .regular then some (hasher.digest member.body) else none := rfl
  have hsize : (member.archived.scanned hasher member.path).size =
      if member.kind = .regular then (member.body.length : Int) else 0 := rfl
  rw [htype] at hkinds
  refine ⟨by rw [WorkspaceEntry.normalized, hpath, hname], ?_, ?_⟩
  · obtain ⟨hkind, _, _, hnone⟩ | ⟨hkind, _, _, hsome⟩ := hkinds
    · rw [WorkspaceEntry.normalized, hnone, if_neg]
      rintro hregular
      rw [hregular] at hkind
      exact absurd hkind (by decide)
    · rw [WorkspaceEntry.normalized, hsome, hdigest]
  · intro hregular
    rw [hregular] at hkinds
    obtain ⟨hkind, _⟩ | ⟨_, _, hfile, _⟩ := hkinds
    · exact absurd hkind (by decide)
    · rw [WorkspaceEntry.normalized, hfile, hsize, if_pos hregular]

/-- What the scan made of the tree: an entry for each object and an object for each entry, no two of one path. -/
structure ScannedFrom (nfc : String → String) (hasher : Hasher) (tree : DataTree) (m : WorkspaceManifest) : Prop where
  entry : ∀ member ∈ tree.members, ∃ e ∈ m.entries, Describes nfc hasher member e
  member : ∀ e ∈ m.entries, ∃ member ∈ tree.members, Describes nfc hasher member e
  distinct : tree.members.Pairwise fun a b => nfc a.path ≠ nfc b.path

theorem exists_related {α β : Type} {R : α → β → Prop} {xs : List α} {ys : List β} (h : List.Forall₂ R xs ys) {x : α} (hx : x ∈ xs) :
    ∃ y ∈ ys, R x y := by
  induction h with
  | nil => cases hx
  | cons hxy _ ih =>
    rcases List.mem_cons.mp hx with rfl | hx
    · exact ⟨_, List.mem_cons_self, hxy⟩
    · obtain ⟨y, hy, hr⟩ := ih hx
      exact ⟨y, List.mem_cons_of_mem _ hy, hr⟩

theorem pairwise_related {α β : Type} {R : α → β → Prop} {P : α → α → Prop} {Q : β → β → Prop} {xs : List α} {ys : List β}
    (h : List.Forall₂ R xs ys) (hP : ∀ {a b c d}, R a c → R b d → Q c d → P a b) (hys : ys.Pairwise Q) : xs.Pairwise P := by
  induction h with
  | nil => exact .nil
  | cons hxy hrest ih =>
    obtain ⟨hhead, htail⟩ := List.pairwise_cons.mp hys
    apply List.pairwise_cons.mpr
    refine ⟨?_, ih htail⟩
    intro _ hx
    obtain ⟨y, hy, hr⟩ := exists_related hrest hx
    exact hP hxy hr (hhead y hy)

theorem scannedFrom (h : manifestOfScan nfc (scanTree hasher tree.archive) = .ok m) : ScannedFrom nfc hasher tree m := by
  rw [scanTree_archive] at h
  obtain ⟨judged, hjudged, hperm, hdistinct, _⟩ := manifestOfScan_ok h
  rw [List.forall₂_map_left_iff] at hjudged
  have hdescribes : List.Forall₂ (Describes nfc hasher) tree.members (judged.map fun e => e.normalized (nfc e.path)) := by
    rw [List.forall₂_map_right_iff]
    exact hjudged.imp fun _ _ h => judged_describes h
  refine ⟨?_, ?_, ?_⟩
  · intro _ hmember
    obtain ⟨e, he, hdescribed⟩ := exists_related hdescribes hmember
    exact ⟨e, hperm.mem_iff.mpr he, hdescribed⟩
  · intro e he
    have hflipped : List.Forall₂ (flip (Describes nfc hasher)) (judged.map fun e => e.normalized (nfc e.path)) tree.members :=
      List.Forall₂.flip hdescribes
    exact exists_related hflipped (hperm.mem_iff.mp he)
  · apply pairwise_related hjudged _ hdistinct
    intro _ _ _ _ hac hbd
    rw [(ScanEntry.judged_ok hac).1, (ScanEntry.judged_ok hbd).1]
    exact id

theorem ScannedFrom.same (h : ScannedFrom nfc hasher tree m) {a b : TreeMember} (ha : a ∈ tree.members) (hb : b ∈ tree.members)
    (hpaths : nfc a.path = nfc b.path) : a = b := by
  have hnodup : (tree.members.map fun a => nfc a.path).Nodup := List.pairwise_map.mpr h.distinct
  exact List.inj_on_of_nodup_map hnodup ha hb hpaths

theorem entry_of_path {a b : WorkspaceEntry} (ha : a ∈ m.entries) (hb : b ∈ m.entries) (hpaths : a.path = b.path) : a = b := by
  have hnodup : (m.entries.map (·.path)).Nodup := List.pairwise_map.mpr (m.ordered.imp fun h => h.ne)
  exact List.inj_on_of_nodup_map hnodup ha hb hpaths

end Scanned

variable {digest : String} {entry : WorkspaceEntry}

section Needed
variable {nfc : String → String} {hasher : Hasher} {tree : DataTree} {m : WorkspaceManifest} {base : Option WorkspaceManifest}
  {held : String → Bool}

/-- An entry whose content the Session does not hold yet, and no entry before it has. -/
def NewContent (m : WorkspaceManifest) (base : Option WorkspaceManifest) (held : String → Bool) (digest : String)
    (entry : WorkspaceEntry) : Prop :=
  (∃ before after, m.entries = before ++ entry :: after ∧ entry.sha256 = some digest ∧ ∀ e ∈ before, e.sha256 ≠ some digest) ∧
    digest ∉ baseDigests base ∧ held digest = false

theorem hex_ne_empty (h : isHexDigest digest = true) : digest ≠ "" := by
  rintro rfl
  revert h
  decide

theorem newDigest_some (h : isHexDigest digest = true) :
    newDigest base entry = some digest ↔ entry.sha256 = some digest ∧ digest ∉ baseDigests base := by
  rw [newDigest, Option.filter_eq_some_iff]
  simp [hex_ne_empty h]

theorem mem_neededBodies (hhex : isHexDigest digest = true) :
    (digest, entry) ∈ neededBodies m base held ↔ NewContent m base held digest entry := by
  rw [neededBodies, List.mem_filter, wantedBodies, Firsts.mem_iff, NewContent]
  simp only [newDigest_some hhex, Bool.not_eq_true']
  constructor
  · rintro ⟨⟨before, after, hsplit, ⟨hdigest, hbase⟩, hbefore⟩, hheld⟩
    exact ⟨⟨before, after, hsplit, hdigest, fun e he hsame => hbefore e he ((newDigest_some hhex).mpr ⟨hsame, hbase⟩)⟩, hbase, hheld⟩
  · rintro ⟨⟨before, after, hsplit, hdigest, hbefore⟩, hbase, hheld⟩
    refine ⟨⟨before, after, hsplit, ⟨hdigest, hbase⟩, ?_⟩, hheld⟩
    intro e he hsame
    exact hbefore e he ((newDigest_some hhex).mp hsame).1

theorem neededBodies_nodup : ((neededBodies m base held).map (·.1)).Nodup :=
  (Firsts.keys_nodup m.entries).sublist (List.filter_sublist.map _)

theorem neededBodies_mem (h : (digest, entry) ∈ neededBodies m base held) :
    entry ∈ m.entries ∧ entry.sha256 = some digest := by
  obtain ⟨hentry, hdigest⟩ := Firsts.mem_of (List.mem_filter.mp h).1
  exact ⟨hentry, (Option.filter_eq_some_iff.mp hdigest).1⟩

theorem ScannedFrom.origin (h : ScannedFrom nfc hasher tree m)
    (hentry : entry ∈ m.entries) (hdigest : entry.sha256 = some digest) :
    ∃ member ∈ tree.members, member.kind = .regular ∧ hasher.digest member.body = digest ∧ entry.path = nfc member.path ∧
      entry.size = member.body.length := by
  obtain ⟨member, hmember, hdescribed⟩ := h.member entry hentry
  have hkind := hdescribed.digest
  rw [hdigest] at hkind
  by_cases hregular : member.kind = .regular
  · rw [if_pos hregular] at hkind
    exact ⟨member, hmember, hregular, (Option.some.inj hkind).symm, hdescribed.path, hdescribed.size hregular⟩
  · rw [if_neg hregular] at hkind
    cases hkind

theorem ScannedFrom.hex (h : ScannedFrom nfc hasher tree m)
    (hentry : entry ∈ m.entries) (hdigest : entry.sha256 = some digest) : isHexDigest digest = true := by
  obtain ⟨member, _, _, rfl, _⟩ := h.origin hentry hdigest
  exact hasher.hex member.body

theorem lookup_eq_some_iff {α β : Type} [DecidableEq α] {l : List (α × β)} (h : (l.map (·.1)).Nodup) {k : α} {v : β} :
    l.lookup k = some v ↔ (k, v) ∈ l := by
  induction l with
  | nil => simp
  | cons e rest ih =>
    obtain ⟨k', _⟩ := e
    rw [List.map_cons, List.nodup_cons] at h
    rw [List.lookup_cons, List.mem_cons]
    by_cases hk : k = k'
    · subst hk
      have hnot : (k, v) ∉ rest := fun hin => h.1 (List.mem_map.mpr ⟨_, hin, rfl⟩)
      simp [hnot, eq_comm]
    · have hkeys : (k == k') = false := beq_false_of_ne hk
      rw [hkeys]
      simp [hk, ih h.2]

theorem byPaths_lookup {path : String} :
    (byPaths (neededBodies m base held)).lookup path = some digest ↔
      ∃ entry, (digest, entry) ∈ neededBodies m base held ∧ entry.path = path := by
  have hnodup : ((byPaths (neededBodies m base held)).map (·.1)).Nodup := by
    rw [byPaths, List.map_map]
    apply List.Nodup.map_on
    · rintro ⟨d, _⟩ ha ⟨_, _⟩ hb hpaths
      obtain ⟨hain, had⟩ := neededBodies_mem ha
      obtain ⟨hbin, hbd⟩ := neededBodies_mem hb
      obtain rfl := entry_of_path hain hbin hpaths
      rw [had] at hbd
      rw [Option.some.inj hbd]
    · exact List.Nodup.of_map _ neededBodies_nodup
  rw [lookup_eq_some_iff hnodup, byPaths, List.mem_map]
  constructor
  · rintro ⟨⟨_, entry⟩, hin, hsame⟩
    cases hsame
    exact ⟨entry, hin, rfl⟩
  · rintro ⟨entry, hin, rfl⟩
    exact ⟨(digest, entry), hin, rfl⟩

end Needed

section Staged
variable {nfc : String → String} {hasher : Hasher} {tree : DataTree} {m : WorkspaceManifest} {base : Option WorkspaceManifest}
  {held : String → Bool}

theorem stagingObject_ok (h : isHexDigest digest = true) : stagingObject nfc digest = .ok () := by
  have hname : ∀ c ∈ "blob-".toList, c ≠ '\x00' ∧ c ≠ '\\' ∧ c ≠ '/' := by simp
  have hdigits : ∀ c ∈ "0123456789abcdef".toList, c ≠ '\x00' ∧ c ≠ '\\' ∧ c ≠ '/' := by simp
  have hplain : ∀ c ∈ ("blob-" ++ digest).toList, c ≠ '\x00' ∧ c ≠ '\\' ∧ c ≠ '/' := by
    intro c hc
    rw [String.toList_append] at hc
    rcases List.mem_append.mp hc with hc | hc
    · exact hname c hc
    · rw [isHexDigest, Bool.and_eq_true, List.all_eq_true] at h
      exact hdigits c (of_decide_eq_true (h.2 c hc))
  have hstart : ("blob-" ++ digest).toList = 'b' :: ("lob-".toList ++ digest.toList) := by
    rw [String.toList_append]
    rfl
  have hsegments : segments ("blob-" ++ digest) = [("blob-" ++ digest).toList] := by
    rw [segments, List.splitOn_eq_splitOnP]
    apply List.splitOnP_eq_singleton
    intro c hc
    exact beq_false_of_ne (hplain c hc).2.2
  have hne : "blob-" ++ digest ≠ "" := by
    intro hempty
    rw [hempty] at hstart
    cases hstart
  have hlegal : (segments ("blob-" ++ digest)).any illegalSegment = false := by
    rw [hsegments, hstart]
    rfl
  rw [stagingObject, normalizeWorkspacePath, if_neg hne, if_neg fun hc => (hplain _ hc).1 rfl,
    if_neg fun hc => (hplain _ hc).2.1 rfl, if_neg (by simp [hstart]), if_neg (by simp [hlegal])]

theorem stageFile_ok {exported : ExportedFile} (hhex : isHexDigest digest = true)
    (hneeded : (digest, entry) ∈ neededBodies m base held) (hpath : entry.path = exported.path)
    (hsize : (exported.body.length : Int) ≤ entry.size) (hdigest : hasher.digest exported.body = digest) :
    stageFile nfc hasher (neededBodies m base held) exported = .ok (digest, exported.body) := by
  have hfound := byPaths_lookup.mpr ⟨entry, hneeded, hpath⟩
  have hentry := (lookup_eq_some_iff neededBodies_nodup).mpr hneeded
  rw [stageFile, hfound]
  dsimp only
  rw [stagingObject_ok hhex]
  dsimp only
  rw [hentry]
  dsimp only
  rw [if_neg (Int.not_lt.mpr hsize), if_neg (not_not.mpr hdigest)]

theorem stageFile_inv {exported : ExportedFile} {body : List UInt8}
    (h : stageFile nfc hasher (neededBodies m base held) exported = .ok (digest, body)) :
    (∃ entry, (digest, entry) ∈ neededBodies m base held ∧ entry.path = exported.path) ∧ body = exported.body ∧
      hasher.digest body = digest := by
  rw [stageFile] at h
  cases hfound : (byPaths (neededBodies m base held)).lookup exported.path with
  | none =>
    rw [hfound] at h
    cases h
  | some d =>
    rw [hfound] at h
    dsimp only at h
    cases hstaging : stagingObject nfc d with
    | error =>
      rw [hstaging] at h
      cases h
    | ok =>
      rw [hstaging] at h
      dsimp only at h
      cases hentry : (neededBodies m base held).lookup d with
      | none =>
        rw [hentry] at h
        cases h
      | some =>
        rw [hentry] at h
        dsimp only at h
        split_ifs at h with hsize hdigest
        cases h
        exact ⟨byPaths_lookup.mp hfound, rfl, not_not.mp hdigest⟩

theorem ScannedFrom.stage (h : ScannedFrom nfc hasher tree m) (hidem : ∀ path, nfc (nfc path) = nfc path) {member : TreeMember}
    (hmember : member ∈ tree.members)
    (hneeded : (digest, entry) ∈ neededBodies m base held) (hpath : entry.path = member.path) :
    member.kind = .regular ∧ hasher.digest member.body = digest ∧
      stageFile nfc hasher (neededBodies m base held) { path := member.path, body := member.body } = .ok (digest, member.body) := by
  obtain ⟨hentry, hdigest⟩ := neededBodies_mem hneeded
  obtain ⟨origin, horigin, hregular, hbody, hname, hsize⟩ := h.origin hentry hdigest
  have hsame : member = origin := by
    apply h.same hmember horigin
    rw [← hpath, hname, hidem]
  subst hsame
  refine ⟨hregular, hbody, stageFile_ok (h.hex hentry hdigest) hneeded hpath ?_ hbody⟩
  exact hsize.ge

/-- The files of the tree that a checkpoint's export yields. -/
def exportedMembers (m : WorkspaceManifest) (base : Option WorkspaceManifest) (held : String → Bool) (tree : DataTree) :
    List TreeMember :=
  tree.members.filter fun member => member.kind = .regular ∧ member.path ∈ (byPaths (neededBodies m base held)).map (·.1)

theorem wanted_path {path : String} : path ∈ (byPaths (neededBodies m base held)).map (·.1) ↔
    ∃ digest entry, (digest, entry) ∈ neededBodies m base held ∧ entry.path = path := by
  rw [byPaths, List.map_map, List.mem_map]
  constructor
  · rintro ⟨⟨digest, entry⟩, hin, rfl⟩
    exact ⟨digest, entry, hin, rfl⟩
  · rintro ⟨digest, entry, hin, rfl⟩
    exact ⟨(digest, entry), hin, rfl⟩

theorem ScannedFrom.staged (h : ScannedFrom nfc hasher tree m) (hidem : ∀ path, nfc (nfc path) = nfc path) :
    (exportFiles ((byPaths (neededBodies m base held)).map (·.1)) tree.archive).mapM (stageFile nfc hasher (neededBodies m base held)) =
      .ok ((exportedMembers m base held tree).map fun member => (hasher.digest member.body, member.body)) := by
  apply mapM_of_forall₂
  rw [exportFiles_archive, List.forall₂_map_left_iff, List.forall₂_map_right_iff]
  apply List.forall₂_same.mpr
  intro _ hmember
  obtain ⟨hin, hwanted⟩ := List.mem_filter.mp hmember
  obtain ⟨_, _, hneeded, hpath⟩ := wanted_path.mp (of_decide_eq_true hwanted).2
  obtain ⟨_, hbody, hstaged⟩ := h.stage hidem hin hneeded hpath
  rw [hstaged, hbody]

theorem ScannedFrom.staged_nodup (h : ScannedFrom nfc hasher tree m) (hidem : ∀ path, nfc (nfc path) = nfc path) :
    ((exportedMembers m base held tree).map fun member => hasher.digest member.body).Nodup := by
  apply List.Nodup.map_on
  · intro a ha _ hb hsame
    obtain ⟨hain, hawanted⟩ := List.mem_filter.mp ha
    obtain ⟨hbin, hbwanted⟩ := List.mem_filter.mp hb
    obtain ⟨digest, _, hneeded, hpath⟩ := wanted_path.mp (of_decide_eq_true hawanted).2
    obtain ⟨digest', _, hneeded', hpath'⟩ := wanted_path.mp (of_decide_eq_true hbwanted).2
    obtain ⟨_, hbody, _⟩ := h.stage hidem hain hneeded hpath
    obtain ⟨_, hbody', _⟩ := h.stage hidem hbin hneeded' hpath'
    have hdigests : digest = digest' := by rw [← hbody, ← hbody', hsame]
    subst hdigests
    have hentries := (lookup_eq_some_iff neededBodies_nodup).mpr hneeded
    rw [(lookup_eq_some_iff neededBodies_nodup).mpr hneeded'] at hentries
    cases hentries
    apply h.same hain hbin
    rw [← hpath, ← hpath']
  · apply List.Nodup.filter
    have hpaths : (tree.members.map fun a => nfc a.path).Nodup := List.pairwise_map.mpr h.distinct
    exact List.Nodup.of_map _ hpaths

end Staged

section Result
variable {nfc : String → String} {hasher : Hasher} {tree : DataTree} {m : WorkspaceManifest} {base : Option WorkspaceManifest}
  {held : String → Bool}

/-- One body is staged for each content of the tree that the Session does not hold, and no other. -/
def StagesAll (nfc : String → String) (hasher : Hasher) (tree : DataTree) (m : WorkspaceManifest) (base : Option WorkspaceManifest)
    (held : String → Bool) : Prop :=
  ∃ staged, stageBodies nfc hasher m base held tree.archive = .ok staged ∧ (staged.map (·.1)).Nodup ∧
    (∀ e ∈ staged, hasher.digest e.2 = e.1) ∧
    ∀ digest, digest ∈ staged.map (·.1) ↔
      (∃ member ∈ tree.members, member.kind = .regular ∧ hasher.digest member.body = digest) ∧ digest ∉ baseDigests base ∧
        held digest = false

theorem ScannedFrom.needed (h : ScannedFrom nfc hasher tree m) (digest : String) :
    digest ∈ (neededBodies m base held).map (·.1) ↔
      (∃ member ∈ tree.members, member.kind = .regular ∧ hasher.digest member.body = digest) ∧ digest ∉ baseDigests base ∧
        held digest = false := by
  constructor
  · intro hin
    obtain ⟨⟨_, entry⟩, hneeded, rfl⟩ := List.mem_map.mp hin
    obtain ⟨hentry, hdigest⟩ := neededBodies_mem hneeded
    obtain ⟨member, hmember, hregular, hbody, _⟩ := h.origin hentry hdigest
    obtain ⟨_, hbase, hheld⟩ := (mem_neededBodies (h.hex hentry hdigest)).mp hneeded
    exact ⟨⟨member, hmember, hregular, hbody⟩, hbase, hheld⟩
  · rintro ⟨⟨member, hmember, hregular, rfl⟩, hbase, hheld⟩
    obtain ⟨entry, hentry, hdescribed⟩ := h.entry member hmember
    have hdigest := hdescribed.digest
    rw [if_pos hregular] at hdigest
    have hnew : newDigest base entry = some (hasher.digest member.body) :=
      (newDigest_some (hasher.hex member.body)).mpr ⟨hdigest, hbase⟩
    obtain ⟨_, hfirst⟩ := Firsts.exists_of_key hentry hnew
    have hkept : (!held (hasher.digest member.body)) = true := by rw [hheld]; rfl
    exact List.mem_map.mpr ⟨_, List.mem_filter.mpr ⟨hfirst, hkept⟩, rfl⟩

theorem ScannedFrom.named (h : ScannedFrom nfc hasher tree m) :
    (wantedBodies m base).mapM (fun e => blobObject e.1) = .ok ((wantedBodies m base).map fun _ => ()) := by
  apply mapM_of_forall₂
  rw [List.forall₂_map_right_iff]
  apply List.forall₂_same.mpr
  rintro ⟨_, _⟩ hin
  obtain ⟨hentry, hdigest⟩ := Firsts.mem_of hin
  have hhex := h.hex hentry (Option.filter_eq_some_iff.mp hdigest).1
  rw [blobObject, if_pos hhex]

theorem stageBodies_ok_iff (h : ScannedFrom nfc hasher tree m) {staged : List (String × List UInt8)} :
    stageBodies nfc hasher m base held tree.archive = .ok staged ↔
      (exportFiles ((byPaths (neededBodies m base held)).map (·.1)) tree.archive).mapM (stageFile nfc hasher (neededBodies m base held)) =
        .ok staged ∧ ∀ digest, digest ∈ (neededBodies m base held).map (·.1) ↔ digest ∈ staged.map (·.1) := by
  rw [stageBodies, h.named]
  dsimp only [bind, Except.bind]
  cases hfiles : (exportFiles ((byPaths (neededBodies m base held)).map (·.1)) tree.archive).mapM
      (stageFile nfc hasher (neededBodies m base held)) with
  | error =>
    constructor
    · intro hok
      cases hok
    · rintro ⟨hok, _⟩
      cases hok
  | ok files =>
    dsimp only
    have hsame : (((neededBodies m base held).map (·.1)).all (· ∈ files.map (·.1)) &&
        (files.map (·.1)).all (· ∈ (neededBodies m base held).map (·.1))) = true ↔
          ∀ digest, digest ∈ (neededBodies m base held).map (·.1) ↔ digest ∈ files.map (·.1) := by
      simp only [Bool.and_eq_true, List.all_eq_true, decide_eq_true_eq]
      constructor
      · rintro ⟨hneeded, hstaged⟩ digest
        exact ⟨hneeded digest, hstaged digest⟩
      · intro hboth
        exact ⟨fun digest => (hboth digest).mp, fun digest => (hboth digest).mpr⟩
    by_cases hkeys : ∀ digest, digest ∈ (neededBodies m base held).map (·.1) ↔ digest ∈ files.map (·.1)
    · rw [if_pos (hsame.mpr hkeys)]
      constructor
      · intro hok
        cases hok
        exact ⟨rfl, hkeys⟩
      · rintro ⟨hok, _⟩
        exact hok
    · rw [if_neg fun hall => hkeys (hsame.mp hall)]
      constructor
      · intro hfailed
        cases hfailed
      · rintro ⟨hok, hwrong⟩
        cases hok
        exact absurd hwrong hkeys

theorem ScannedFrom.stagesAll (h : ScannedFrom nfc hasher tree m) (hidem : ∀ path, nfc (nfc path) = nfc path)
    (hspelled : ∀ digest entry, NewContent m base held digest entry → ∃ member ∈ tree.members, member.path = entry.path) :
    StagesAll nfc hasher tree m base held := by
  have hkeys (digest : String) : digest ∈ (neededBodies m base held).map (·.1) ↔
      digest ∈ ((exportedMembers m base held tree).map fun member => (hasher.digest member.body, member.body)).map (·.1) := by
    rw [List.map_map]
    constructor
    · intro hin
      obtain ⟨⟨d, entry⟩, hneeded, rfl⟩ := List.mem_map.mp hin
      obtain ⟨hentry, hdigest⟩ := neededBodies_mem hneeded
      obtain ⟨member, hmember, hpath⟩ := hspelled d entry ((mem_neededBodies (h.hex hentry hdigest)).mp hneeded)
      obtain ⟨hregular, hbody, _⟩ := h.stage hidem hmember hneeded hpath.symm
      refine List.mem_map.mpr ⟨member, List.mem_filter.mpr ⟨hmember, decide_eq_true ⟨hregular, ?_⟩⟩, hbody⟩
      exact wanted_path.mpr ⟨d, entry, hneeded, hpath.symm⟩
    · intro hin
      obtain ⟨member, hmember, rfl⟩ := List.mem_map.mp hin
      obtain ⟨hintree, hwanted⟩ := List.mem_filter.mp hmember
      obtain ⟨digest, _, hneeded, hpath⟩ := wanted_path.mp (of_decide_eq_true hwanted).2
      obtain ⟨_, hbody, _⟩ := h.stage hidem hintree hneeded hpath
      exact List.mem_map.mpr ⟨_, hneeded, hbody.symm⟩
  refine ⟨_, (stageBodies_ok_iff h).mpr ⟨h.staged hidem, hkeys⟩, ?_, ?_, ?_⟩
  · rw [List.map_map]
    exact h.staged_nodup hidem
  · intro _ he
    obtain ⟨_, _, rfl⟩ := List.mem_map.mp he
    rfl
  · intro _
    rw [← hkeys, h.needed]

/-- A checkpoint stages what its Session does not hold just when the first file with each such content is spelled in the
tree as it is in the manifest. -/
theorem staging_iff (hidem : ∀ path, nfc (nfc path) = nfc path)
    (hscan : manifestOfScan nfc (scanTree hasher tree.archive) = .ok m) :
    StagesAll nfc hasher tree m base held ↔
      ∀ digest entry, NewContent m base held digest entry → ∃ member ∈ tree.members, member.path = entry.path := by
  have h := scannedFrom hscan
  constructor
  · rintro ⟨_, hstaged, _⟩ digest entry hnew
    obtain ⟨hall, hkeys⟩ := (stageBodies_ok_iff h).mp hstaged
    obtain ⟨_, _, hsplit, hdigest, _⟩ := hnew.1
    have hentry : entry ∈ m.entries := by
      rw [hsplit]
      exact List.mem_append_right _ List.mem_cons_self
    have hneeded := (mem_neededBodies (h.hex hentry hdigest)).mpr hnew
    obtain ⟨⟨_, _⟩, hin, rfl⟩ := List.mem_map.mp ((hkeys digest).mp (List.mem_map.mpr ⟨_, hneeded, rfl⟩))
    obtain ⟨_, hexported, hfile⟩ := exists_related (List.Forall₂.flip (mapM_ok hall)) hin
    obtain ⟨⟨_, hother, hpath⟩, _, _⟩ := stageFile_inv hfile
    have hentries := (lookup_eq_some_iff neededBodies_nodup).mpr hother
    rw [(lookup_eq_some_iff neededBodies_nodup).mpr hneeded] at hentries
    cases hentries
    rw [exportFiles_archive] at hexported
    obtain ⟨member, hmember, rfl⟩ := List.mem_map.mp hexported
    exact ⟨member, (List.mem_filter.mp hmember).1, hpath.symm⟩
  · exact h.stagesAll hidem

def emptyHasher : Hasher where
  digest := fun _ => "e3b0c44298fc1c149afbf4c8996fb92427ae41e4649b934ca495991b7852b855"
  hex := by
    intro _
    decide +kernel

/-- An `e` with an accent of its own is one letter. -/
def composed (path : String) : String := if path = "e\u0301" then "\u00e9" else path

theorem composed_idem (path : String) : composed (composed path) = composed path := by
  have hletter : composed "\u00e9" = "\u00e9" := by decide
  by_cases hpath : path = "e\u0301"
  · have hcomposed : composed path = "\u00e9" := if_pos hpath
    rw [hcomposed, hletter]
  · have hsame : composed path = path := if_neg hpath
    rw [hsame, hsame]

theorem accent_ne : "e\u0301" ≠ "" := by decide

theorem accent_last : "e\u0301".toList.getLast? ≠ some '/' := by decide

theorem letter_ne : "\u00e9" ≠ "" := by decide

theorem letter_last : "\u00e9".toList.getLast? ≠ some '/' := by decide

def emptyFile (path : String) (path_ne : path ≠ "") (path_last : path.toList.getLast? ≠ some '/') : DataTree where
  rootMode := 493
  members := [{ path, kind := .regular, mode := 420, body := [], path_ne, path_last }]

theorem letter_staged : ∃ m, manifestOfScan composed (scanTree emptyHasher (emptyFile "\u00e9" letter_ne letter_last).archive) = .ok m ∧
    (StagesAll composed emptyHasher (emptyFile "\u00e9" letter_ne letter_last) m none (fun _ => false) ↔
      ∀ digest entry, NewContent m none (fun _ => false) digest entry →
        ∃ member ∈ (emptyFile "\u00e9" letter_ne letter_last).members, member.path = entry.path) :=
  ⟨_, rfl, staging_iff composed_idem rfl⟩

/-- A file name with an accent of its own is scanned, and its body never staged. -/
theorem accent_skipped : ¬ ∀ m, manifestOfScan composed (scanTree emptyHasher (emptyFile "e\u0301" accent_ne accent_last).archive) = .ok m →
    StagesAll composed emptyHasher (emptyFile "e\u0301" accent_ne accent_last) m none fun _ => false := by
  intro h
  have hfails : (match manifestOfScan composed (scanTree emptyHasher (emptyFile "e\u0301" accent_ne accent_last).archive) with
      | .ok m => (stageBodies composed emptyHasher m none (fun _ => false) (emptyFile "e\u0301" accent_ne accent_last).archive).toBool
      | .error _ => true) = false := by decide +kernel
  cases hscan : manifestOfScan composed (scanTree emptyHasher (emptyFile "e\u0301" accent_ne accent_last).archive) with
  | error =>
    rw [hscan] at hfails
    cases hfails
  | ok m =>
    obtain ⟨_, hstaged, _⟩ := h m hscan
    rw [hscan] at hfails
    dsimp only at hfails
    rw [hstaged] at hfails
    cases hfails

end Result

end TinyHermes.SessionWorkspace
