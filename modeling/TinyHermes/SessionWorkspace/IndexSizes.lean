import TinyHermes.SessionWorkspace.CandidateIndex

/-! How many files a checkpoint may have for the collector to read its candidate index. -/
namespace TinyHermes.SessionWorkspace
open Lib JsonText Hex

section ManifestSize
variable {floatText : ℚ → List Char} {nfc : String → String} {m : WorkspaceManifest}

theorem length_entry_le (hbuilt : Built nfc m) {e : WorkspaceEntry} (he : e ∈ m.entries) (hpath : e.path.toList.length ≤ 4)
    (hsize : e.size < 10 ^ 4) : (write floatText e.document).length ≤ 2377 := by
  have hmode : (writeInt e.mode).length ≤ 4 := by
    apply length_writeInt_le _ (by decide)
    · rw [← hbuilt.mode he]
      have := Int.emod_lt_of_pos e.mode (by decide : 0 < keptModes)
      have hkept : keptModes = 512 := rfl
      omega
    · rw [← hbuilt.mode he]
      exact Int.emod_nonneg _ (by decide)
  have hsizeText := length_writeInt_le e.size_nonneg (by decide) hsize
  have hpathText := length_writeString_le e.path
  have hsha256 : (write floatText (.ofText e.sha256)).length ≤ 386 := by
    cases hdigest : e.sha256 with
    | none => 
      rw [Json.ofText, write]
      decide
    | some digest =>
      have hlength : digest.toList.length = 64 := by
        have hdescribed := e.described
        cases hkind : e.entryType with
        | directory =>
          rw [hkind, hdigest] at hdescribed
          cases hdescribed.1
        | file =>
          rw [hkind, hdigest] at hdescribed
          obtain ⟨_, hd, hlength⟩ := hdescribed
          rw [Option.some.inj hd, String.length_toList]
          exact hlength
      have := length_writeString_le digest
      rw [Json.ofText, write]
      omega
  have htype : (writeString e.entryType.value).length ≤ 386 := by
    have hwritten := length_writeString_le e.entryType.value
    have hvalue : e.entryType.value.toList.length ≤ 9 := by
      cases e.entryType <;> decide
    omega
  rw [write_entry, write_object floatText e.saved_keys, List.length_cons, List.length_append]
  have hfields : ∀ part ∈ e.saved.map (fun f => writeField (f.1, write floatText f.2)), part.length ≤ 473 := by
    intro _ hpart
    obtain ⟨_, hf, rfl⟩ := List.mem_map.mp hpart
    simp only [WorkspaceEntry.saved, List.mem_cons, List.not_mem_nil, or_false] at hf
    rcases hf with rfl | rfl | rfl | rfl | rfl
    · exact length_field_le (by simp) (by rw [write]; omega)
    · exact length_field_le (by simp) (by rw [write]; omega)
    · exact length_field_le (by simp) hsha256
    · exact length_field_le (by simp) (by rw [write]; omega)
    · exact length_field_le (by simp) htype
  have hcommas := length_commas_le hfields
  rw [List.length_map] at hcommas
  have hcount : e.saved.length = 5 := rfl
  rw [List.length_singleton]
  omega

theorem length_canonicalBytes_le (hbuilt : Built nfc m) (hcount : m.entries.length ≤ 10 ^ 4)
    (hpaths : ∀ e ∈ m.entries, e.path.toList.length ≤ 4) (hsizes : ∀ e ∈ m.entries, e.size < 10 ^ 4)
    (hversion : m.schemaVersion = manifestSchemaVersion) : (m.canonicalBytes floatText).length ≤ manifestLimitBytes := by
  have hentries : (write floatText (.array (m.entries.map fun e => .object e.saved))).length ≤ 23780002 := by
    have hparts : ∀ part ∈ (m.entries.map fun e => Json.object e.saved).map (write floatText), part.length ≤ 2377 := by
      intro _ hpart
      rw [List.map_map] at hpart
      obtain ⟨e, he, rfl⟩ := List.mem_map.mp hpart
      rw [Function.comp_apply, ← write_entry]
      exact length_entry_le hbuilt he (hpaths e he) (hsizes e he)
    have hcommas := length_commas_le hparts
    rw [List.length_map, List.length_map] at hcommas
    rw [write, writeItems_eq, List.length_cons, List.length_append, List.length_singleton]
    omega
  have htotal : m.totalBytes ≤ 10 ^ 8 := by
    have hsum : (m.entries.map (·.size)).sum ≤ (m.entries.map (·.size)).length • (10 ^ 4 : Int) := by
      apply List.sum_le_card_nsmul
      intro size hsize
      obtain ⟨e, he, rfl⟩ := List.mem_map.mp hsize
      exact (hsizes e he).le
    rw [List.length_map, nsmul_eq_mul] at hsum
    rw [WorkspaceManifest.totalBytes]
    omega
  have hnonneg : 0 ≤ m.totalBytes := by
    apply List.sum_nonneg
    intro _ hsize
    obtain ⟨e, _, rfl⟩ := List.mem_map.mp hsize
    exact e.size_nonneg
  have hnumber : ∀ value : Int, 0 ≤ value → value ≤ 10 ^ 8 → (write floatText (.int value)).length ≤ 9 := by
    intro _ hlow _
    rw [write]
    exact length_writeInt_le hlow (by decide) (by omega)
  have hentriesField := @length_field_le "entries" _ _ (by simp) hentries
  have hcountField := @length_field_le "object_count" _ _ (by simp)
    (hnumber m.objectCount (Int.natCast_nonneg _) (by rw [WorkspaceManifest.objectCount]; omega))
  have hversionField := @length_field_le "schema_version" _ _ (by simp)
    (hnumber m.schemaVersion (by rw [hversion]; decide) (by rw [hversion]; decide))
  have htotalField := @length_field_le "total_bytes" _ _ (by simp) (hnumber m.totalBytes hnonneg htotal)
  have hfields : m.saved.map (fun f => writeField (f.1, write floatText f.2)) ≠ [] := List.cons_ne_nil _ _
  have hcommas := length_commas hfields
  have hencoded := Utf8.length_encode_le (write floatText m.document)
  have hlimit : manifestLimitBytes = 134217728 := rfl
  have htext : (write floatText m.document).length =
      (commas (m.saved.map fun f => writeField (f.1, write floatText f.2))).length + 2 := by
    rw [write_document, write_object floatText m.saved_keys, List.length_cons, List.length_append, List.length_singleton]
  rw [WorkspaceManifest.canonicalBytes]
  generalize commas (m.saved.map fun f => writeField (f.1, write floatText f.2)) = text at hcommas htext
  simp only [WorkspaceManifest.saved, List.map_cons, List.map_nil, List.sum_cons, List.sum_nil] at hcommas
  omega

end ManifestSize

section ManyFiles
variable (hasher : Hasher) (floatText : ℚ → List Char)

theorem numbered_ne (i : Nat) : String.ofList (digits 4 i) ≠ "" := by
  intro h
  have hlength : (digits 4 i).length = 0 := by
    rw [← String.toList_ofList (l := digits 4 i), h]
    rfl
  rw [length_digits] at hlength
  cases hlength

theorem slash_not_digit {width i : Nat} : '/' ∉ digits width i := fun h => absurd (mem_alphabet h) (by decide)

theorem numbered_last (i : Nat) : (String.ofList (digits 4 i)).toList.getLast? ≠ some '/' := by
  intro h
  rw [String.toList_ofList] at h
  exact slash_not_digit (List.mem_of_getLast? h)

def numbered (i : Nat) : TreeMember where
  path := String.ofList (digits 4 i)
  kind := .regular
  mode := 420
  body := List.replicate i 0
  path_ne := numbered_ne i
  path_last := numbered_last i

def manyFiles (n : Nat) : DataTree where
  rootMode := 493
  members := (List.range n).map numbered

theorem numbered_sound (i : Nat) : complaint (String.ofList (digits 4 i)) .file i (some (hasher.digest (List.replicate i 0))) = none := by
  have hhex := hasher.hex (List.replicate i 0)
  rw [isHexDigest, Bool.and_eq_true] at hhex
  exact complaint_eq_none_iff.mpr ⟨Int.natCast_nonneg i, _, rfl, of_decide_eq_true hhex.1⟩

def numberedEntry (i : Nat) : WorkspaceEntry where
  path := String.ofList (digits 4 i)
  entryType := .file
  mode := 420
  size := i
  sha256 := some (hasher.digest (List.replicate i 0))
  sound := numbered_sound hasher i

theorem numbered_judged (i : Nat) :
    ((numbered i).archived.scanned hasher (numbered i).path).judged = .ok (numberedEntry hasher i) := by
  have hsize : ((List.replicate i (0 : UInt8)).length : Int) = i := by rw [List.length_replicate]
  have hmade := (numberedEntry hasher i).make_self
  change WorkspaceEntry.make (String.ofList (digits 4 i)) .file 420 (List.replicate i (0 : UInt8)).length
    (some (hasher.digest (List.replicate i 0))) = _
  rw [hsize]
  exact hmade

theorem legal_numbered (i : Nat) : Legal (String.ofList (digits 4 i)) := by
  have hone : joined [digits 4 i] = String.ofList (digits 4 i) := by
    rw [joined, List.intercalate_singleton]
  have hsegments : segments (String.ofList (digits 4 i)) = [digits 4 i] := by
    rw [← hone]
    apply segments_joined (List.cons_ne_nil _ _)
    intro s hs
    rw [List.mem_singleton.mp hs]
    exact slash_not_digit
  intro _ hs
  rw [hsegments, List.mem_singleton] at hs
  subst hs
  refine ⟨fun h => absurd (mem_alphabet h) (by decide), fun h => absurd (mem_alphabet h) (by decide), ?_⟩
  have hlength := length_digits 4 i
  have hne : ∀ t : List Char, t.length ≠ 4 → digits 4 i ≠ t := by
    rintro _ ht rfl
    exact ht hlength
  simp [illegalSegment, hne]

theorem manyFiles_scanned {n : Nat} (hn : n ≤ 16 ^ 4) : ∃ m,
    manifestOfScan id (scanTree hasher (manyFiles n).archive) = .ok m ∧
      buildManifest id ((List.range n).map (numberedEntry hasher)) manifestSchemaVersion = .ok m := by
  have hjudged : ((manyFiles n).members.map fun member => member.archived.scanned hasher member.path).mapM ScanEntry.judged =
      .ok ((List.range n).map (numberedEntry hasher)) := by
    apply mapM_of_forall₂
    rw [manyFiles, List.map_map, List.forall₂_map_left_iff, List.forall₂_map_right_iff]
    exact List.forall₂_same.mpr fun i _ => numbered_judged hasher i
  have hlegal : ∀ e ∈ (List.range n).map (numberedEntry hasher), Legal e.path := by
    intro _ he
    obtain ⟨i, _, rfl⟩ := List.mem_map.mp he
    exact legal_numbered i
  have hdistinct : ((List.range n).map (numberedEntry hasher)).Pairwise fun a b => id a.path ≠ id b.path := by
    apply List.pairwise_map.mpr
    apply List.nodup_range.imp_of_mem
    intro i j hi hj hne hpaths
    have hdigits : digits 4 i = digits 4 j := String.ofList_injective hpaths
    exact hne (digits_inj ((List.mem_range.mp hi).trans_le hn) ((List.mem_range.mp hj).trans_le hn) hdigits)
  obtain ⟨m, hm⟩ := (buildManifest_returns_iff manifestSchemaVersion).mpr ⟨hlegal, hdistinct⟩
  refine ⟨m, ?_, hm⟩
  rw [manifestOfScan, scanTree_archive, hjudged]
  exact hm

end ManyFiles

section Staged
variable {hasher : Hasher} {tree : DataTree} {m : WorkspaceManifest}

theorem ScannedFrom.stages (h : ScannedFrom id hasher tree m) (base : Option WorkspaceManifest) (held : String → Bool) :
    StagesAll id hasher tree m base held := by
  apply h.stagesAll fun _ => rfl
  rintro _ entry ⟨⟨_, _, hsplit, _⟩, _⟩
  have hentry : entry ∈ m.entries := by
    rw [hsplit]
    exact List.mem_append_right _ List.mem_cons_self
  obtain ⟨member, hmember, hdescribed⟩ := h.member entry hentry
  exact ⟨member, hmember, hdescribed.path.symm⟩

theorem newContents_length_le (archive : List ArchiveMember) (base : Option WorkspaceManifest) (held : String → Bool) :
    (newContents hasher archive base held).length ≤ archive.length := by
  have hdigests := (List.dedup_sublist ((archive.filter fun member => relativeName member.name ≠ "" ∧ member.kind = .regular).map
    fun member => hasher.digest member.body)).length_le
  rw [List.length_map] at hdigests
  exact (List.length_filter_le _ _).trans (hdigests.trans (List.length_filter_le _ _))

end Staged

section Stored
variable {nfc : String → String} {hasher : Hasher} {floatText : ℚ → List Char} {command : WorkspaceCheckpoint} {around : Surroundings}
  {m : WorkspaceManifest}

theorem putOnce_ok {octets : List UInt8} {limit : Nat} (h : octets.length ≤ limit) :
    putOnce hasher octets limit = .ok (hasher.digest octets) := if_neg (Nat.not_lt.mpr h)

theorem checkpoint_stores (hscan : manifestOfScan nfc (scanTree hasher around.archive) = .ok m)
    (hquota : (measure m command.quota).allowed = true) {staged : List (String × List UInt8)}
    (hstaged : stageBodies nfc hasher m none around.held around.archive = .ok staged)
    (hmanifest : (m.canonicalBytes floatText).length ≤ manifestLimitBytes)
    (hindex : 174 * (newContents hasher around.archive none around.held).length + 234 ≤ manifestLimitBytes)
    (hpersisted : around.persisted = true) :
    ∃ stored, checkpoint nfc hasher floatText command none around = .ok (.finalizing stored) := by
  have hmem : ∀ digest, digest ∈ (staged.map (·.1)).dedup ↔ digest ∈ newContents hasher around.archive none around.held := by
    intro digest
    rw [List.mem_dedup, ← stageBodies_keys hstaged, mem_needed hscan]
  have hnew : (newContents hasher around.archive none around.held).Nodup := (List.nodup_dedup _).filter _
  have hlength := @length_stored floatText command around.revisionId _
    (fun digest hdigest => isHexDigest_new ((hmem digest).mp hdigest)) around.uploadId
  rw [((List.perm_ext_iff_of_nodup (List.nodup_dedup _) hnew).mpr hmem).length_eq] at hlength
  rw [checkpoint, scannedManifest, hscan]
  dsimp only [bind, Except.bind]
  rw [hquota, stagedDigests, hstaged, Bool.not_true, if_neg Bool.false_ne_true, Option.any_none, if_neg Bool.false_ne_true]
  dsimp only
  rw [putOnce_ok hmanifest]
  dsimp only
  rw [putOnce_ok (hlength.trans_le hindex), hpersisted]
  exact ⟨_, rfl⟩

end Stored

section Many

def smallCheckpoint : WorkspaceCheckpoint where
  workspaceId := 1
  sessionId := 2
  quota := { maxBytes := 2 * 1024 ^ 3, maxObjects := 100000 }

def filled (n : Nat) : Surroundings where
  uploadId := 3
  revisionId := 4
  archive := (manyFiles n).archive
  held _ := false
  persisted := true

variable (hasher : Hasher) (floatText : ℚ → List Char)

theorem filled_stored {n : Nat} (hn : n ≤ 10 ^ 4) :
    ∃ stored, checkpoint id hasher floatText smallCheckpoint none (filled n) = .ok (.finalizing stored) := by
  obtain ⟨m, hscan, hbuild⟩ := manyFiles_scanned hasher (hn.trans (by decide))
  obtain ⟨_, hcount⟩ := totals_given hbuild
  rw [List.length_map, List.length_range] at hcount
  have hentries : ∀ e ∈ m.entries, e.path.toList.length ≤ 4 ∧ e.size < 10 ^ 4 := by
    intro e he
    obtain ⟨_, hsource, rfl⟩ := List.mem_map.mp ((buildManifest_ok hbuild).1.mem_iff.mp he)
    obtain ⟨i, hi, rfl⟩ := List.mem_map.mp hsource
    constructor
    · rw [WorkspaceEntry.normalized, numberedEntry, id, String.toList_ofList, length_digits]
    · have : i < n := List.mem_range.mp hi
      rw [WorkspaceEntry.normalized, numberedEntry]
      dsimp only
      omega
  have hbytes : m.totalBytes ≤ 10 ^ 8 := by
    have hsum : (m.entries.map (·.size)).sum ≤ (m.entries.map (·.size)).length • (10 ^ 4 : Int) := by
      apply List.sum_le_card_nsmul
      intro _ hsize
      obtain ⟨e, he, rfl⟩ := List.mem_map.mp hsize
      exact (hentries e he).2.le
    rw [List.length_map, nsmul_eq_mul] at hsum
    rw [WorkspaceManifest.totalBytes]
    rw [WorkspaceManifest.objectCount] at hcount
    omega
  obtain ⟨staged, hstaged, _⟩ := (scannedFrom hscan).stages none fun _ => false
  have hquota : (measure m smallCheckpoint.quota).allowed = true := by
    have hmaxBytes : smallCheckpoint.quota.maxBytes = 2147483648 := rfl
    have hmaxObjects : smallCheckpoint.quota.maxObjects = 100000 := rfl
    rw [measure_allowed_iff, hcount, hmaxBytes, hmaxObjects]
    omega
  have hmanifest : (m.canonicalBytes floatText).length ≤ manifestLimitBytes :=
    length_canonicalBytes_le ⟨_, _, hbuild⟩ (hcount.trans_le hn) (fun e he => (hentries e he).1) (fun e he => (hentries e he).2)
      (buildManifest_entries hbuild).1
  have hindex : 174 * (newContents hasher (filled n).archive none (filled n).held).length + 234 ≤ manifestLimitBytes := by
    have hnew := @newContents_length_le hasher (filled n).archive none (filled n).held
    have harchive : (filled n).archive.length = n + 1 := by
      rw [filled, DataTree.archive, manyFiles, List.length_cons, List.length_map, List.length_map, List.length_range]
    have hlimit : manifestLimitBytes = 134217728 := rfl
    omega
  exact @checkpoint_stores id hasher floatText smallCheckpoint (filled n) m hscan hquota staged hstaged hmanifest hindex rfl

theorem filled_contents {n : Nat}
    (hinj : ∀ i < n, ∀ j < n, hasher.digest (List.replicate i 0) = hasher.digest (List.replicate j 0) → i = j) :
    n ≤ (newContents hasher (filled n).archive none (filled n).held).length := by
  have hnodup : ((List.range n).map fun i => hasher.digest (List.replicate i 0)).Nodup := by
    apply List.Nodup.map_on _ List.nodup_range
    intro i hi j hj h
    exact hinj i (List.mem_range.mp hi) j (List.mem_range.mp hj) h
  have hsub : ((List.range n).map fun i => hasher.digest (List.replicate i 0)) ⊆
      newContents hasher (filled n).archive none (filled n).held := by
    intro _ hdigest
    obtain ⟨i, hi, rfl⟩ := List.mem_map.mp hdigest
    refine mem_newContents.mpr ⟨⟨(numbered i).archived, ?_, ⟨?_, rfl⟩, rfl⟩, List.not_mem_nil, rfl⟩
    · exact List.mem_cons_of_mem _ (List.mem_map.mpr ⟨_, List.mem_map.mpr ⟨i, hi, rfl⟩, rfl⟩)
    · have hname : relativeName (numbered i).archived.name = (numbered i).path := relativeName_data (numbered i)
      rw [hname]
      exact (numbered i).path_ne
  have hle := (List.subperm_of_subset hnodup hsub).length_le
  rwa [List.length_map, List.length_range] at hle

theorem filled_refused {n : Nat} (hmany : 6024 < n)
    (hinj : ∀ i < n, ∀ j < n, hasher.digest (List.replicate i 0) = hasher.digest (List.replicate j 0) → i = j)
    {stored : Finalizing} (h : checkpoint id hasher floatText smallCheckpoint none (filled n) = .ok (.finalizing stored))
    (reader : Reader) {chunks : List (List UInt8)} (hchunks : chunks.flatten = stored.octets) :
    readIndex hasher reader stored.upload (some chunks) = .error .tooLarge := by
  have hindex := checkpoint_stored h
  have hread := hindex.read reader hchunks (.inr rfl)
  have hlength := hindex.length
  have hcontents := filled_contents hasher hinj
  have hlimit : indexLimitBytes = 1048576 := rfl
  rwa [if_neg (by omega)] at hread

theorem lengthDigest_hex (body : List UInt8) : isHexDigest (String.ofList (digits 64 body.length)) = true := by
  rw [isHexDigest, Bool.and_eq_true, List.all_eq_true]
  constructor
  · apply decide_eq_true
    rw [← String.length_toList, String.toList_ofList, length_digits]
    rfl
  · intro _ hc
    rw [String.toList_ofList] at hc
    exact decide_eq_true (mem_alphabet hc)

def lengthHasher : Hasher where
  digest body := String.ofList (digits 64 body.length)
  hex := lengthDigest_hex

theorem lengthHasher_inj {n : Nat} (hn : n ≤ 16 ^ 64) :
    ∀ i < n, ∀ j < n, lengthHasher.digest (List.replicate i 0) = lengthHasher.digest (List.replicate j 0) → i = j := by
  intro _ hi _ hj h
  have hdigits := String.ofList_injective h
  rw [List.length_replicate, List.length_replicate] at hdigits
  exact digits_inj (hi.trans_le hn) (hj.trans_le hn) hdigits

end Many

section Result
variable {nfc : String → String} {hasher : Hasher} {floatText : ℚ → List Char} {command : WorkspaceCheckpoint}
  {base : Option WorkspaceManifest} {around : Surroundings} {stored : Finalizing}

/-- The collector reads the index of a checkpoint just when at most 6024 contents of its tree are new to the Session. -/
theorem index_read_iff (h : checkpoint nfc hasher floatText command base around = .ok (.finalizing stored)) (reader : Reader)
    {chunks : List (List UInt8)} (hchunks : chunks.flatten = stored.octets) {recorded : Option String}
    (hrecorded : recorded = none ∨ recorded = stored.upload.candidateIndexSha256) :
    readIndex hasher reader { stored.upload with candidateIndexSha256 := recorded } (some chunks) = .ok (some stored.index) ↔
      (newContents hasher around.archive base around.held).length ≤ 6024 := by
  have hindex := checkpoint_stored h
  have hlength := hindex.length
  have hlimit : indexLimitBytes = 1048576 := rfl
  rw [hindex.read reader hchunks hrecorded]
  by_cases hfits : (newContents hasher around.archive base around.held).length ≤ 6024
  · rw [if_pos (by omega)]
    exact iff_of_true rfl hfits
  · rw [if_neg (by omega)]
    apply iff_of_false _ hfits
    intro hok
    cases hok

theorem one_file_read : ∃ stored, checkpoint id emptyHasher (fun _ => []) smallCheckpoint none (filled 1) = .ok (.finalizing stored) ∧
    readIndex emptyHasher leastReader stored.upload (some [stored.octets]) = .ok (some stored.index) ∧
    readIndex emptyHasher leastReader stored.upload (some [stored.octets.take 8, stored.octets.drop 8]) = .ok (some stored.index) := by
  obtain ⟨stored, hstored⟩ := @filled_stored emptyHasher (fun _ => []) 1 (by decide)
  have hfew : (newContents emptyHasher (filled 1).archive none (filled 1).held).length ≤ 6024 :=
    (newContents_length_le _ _ _).trans (by decide)
  refine ⟨stored, hstored, ?_, ?_⟩
  · exact (index_read_iff hstored leastReader List.flatten_singleton (.inr rfl)).mpr hfew
  · exact (index_read_iff hstored leastReader (by simp) (.inr rfl)).mpr hfew

/-- A tree of 6025 files within the quota has an index that the collector does not read. -/
theorem large_index_refused : ¬ ∀ stored chunks,
    checkpoint id lengthHasher (fun _ => []) smallCheckpoint none (filled 6025) = .ok (.finalizing stored) →
      chunks.flatten = stored.octets → readIndex lengthHasher leastReader stored.upload (some chunks) = .ok (some stored.index) := by
  intro h
  obtain ⟨stored, hstored⟩ := @filled_stored lengthHasher (fun _ => []) 6025 (by decide)
  have hchunks : [stored.octets].flatten = stored.octets := List.flatten_singleton
  have hread := h stored [stored.octets] hstored hchunks
  rw [filled_refused lengthHasher (fun _ => []) (by decide) (lengthHasher_inj (by decide)) hstored leastReader hchunks] at hread
  cases hread

end Result

end TinyHermes.SessionWorkspace
