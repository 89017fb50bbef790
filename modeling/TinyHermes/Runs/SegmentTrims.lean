import TinyHermes.Runs.PlanAccounting

/-! What trimming one segment takes out of it, and no more. -/
namespace TinyHermes.Runs.ContextBudget
variable {est : Estimator} {ceiling : Int}

theorem textsEstimate_append (some others : List String) :
    textsEstimate est (some ++ others) = textsEstimate est some + textsEstimate est others := by
  simp only [textsEstimate, List.map_append, List.sum_append]

theorem textsEstimate_nonneg (texts : List String) : 0 ≤ textsEstimate est texts := by
  induction texts with
  | nil => exact le_rfl
  | cons t texts =>
    have hcons : textsEstimate est (t :: texts) = est.tokens t + textsEstimate est texts := rfl
    omega

theorem segmentEstimate_of_ne {texts : List String} (h : texts ≠ []) :
    segmentEstimate est texts = messageOverhead + textsEstimate est texts := if_neg h

theorem freed_eq_sub_iff {texts left dropped : List String} (hperm : texts.Perm (left ++ dropped)) (hdropped : dropped ≠ []) :
    textsEstimate est dropped = segmentEstimate est texts - segmentEstimate est left ↔ left ≠ [] := by
  have htexts : texts ≠ [] := by
    rintro rfl
    exact hdropped (List.append_eq_nil_iff.mp hperm.nil_eq.symm).2
  have hsum : textsEstimate est texts = textsEstimate est left + textsEstimate est dropped := by
    rw [← textsEstimate_append]
    exact (hperm.map _).sum_eq
  rw [segmentEstimate_of_ne htexts, hsum]
  constructor
  · rintro _ rfl
    have hnone : segmentEstimate est ([] : List String) = 0 := rfl
    have hempty : textsEstimate est ([] : List String) = 0 := rfl
    have hoverhead : messageOverhead = 4 := rfl
    omega
  · intro hleft
    rw [segmentEstimate_of_ne hleft]
    omega

theorem segmentEstimate_take_one {texts : List String} {n : Nat} (hn : n ≠ 0) :
    segmentEstimate est (texts.take 1) ≤ segmentEstimate est (texts.take n) := by
  obtain ⟨n, rfl⟩ := Nat.exists_eq_succ_of_ne_zero hn
  cases texts with
  | nil => exact le_rfl
  | cons t texts =>
    rw [List.take_succ_cons, List.take_succ_cons, List.take_zero, segmentEstimate_of_ne (List.cons_ne_nil _ _),
      segmentEstimate_of_ne (List.cons_ne_nil _ _), ← List.singleton_append (l := texts.take n), textsEstimate_append]
    have hrest := @textsEstimate_nonneg est (texts.take n)
    omega

section Memories

theorem popMemories_spec (memories : List String) : ∃ n ≤ memories.length,
    (popMemories est ceiling memories).1 = memories.reverse.take n ∧
      (memoryEstimate est (memories.reverse.take n) ≤ ceiling ∨ n = 0) ∧
        ∀ m, n < m → m ≤ memories.length → ceiling < memoryEstimate est (memories.reverse.take m) := by
  induction memories with
  | nil => exact ⟨0, le_rfl, rfl, .inr rfl, fun m hm hle => absurd hle (Nat.not_le.mpr hm)⟩
  | cons m earlier ih =>
    have hwhole : (m :: earlier).reverse.take (m :: earlier).length = (m :: earlier).reverse := by
      rw [← List.length_reverse, List.take_length]
    rw [popMemories]
    split_ifs with hover
    · obtain ⟨n, hn, hleft, hfits, hmore⟩ := ih
      have htake : ∀ k ≤ earlier.length, (m :: earlier).reverse.take k = earlier.reverse.take k := by
        intro k hk
        rw [List.reverse_cons, List.take_append_of_le_length (by rwa [List.length_reverse])]
      refine ⟨n, hn.trans (Nat.le_succ _), hleft.trans (htake n hn).symm, htake n hn ▸ hfits, ?_⟩
      intro k hk hle
      rcases Nat.lt_or_eq_of_le hle with hlt | rfl
      · rw [htake k (Nat.le_of_lt_succ hlt)]
        exact hmore k hk (Nat.le_of_lt_succ hlt)
      · rw [hwhole]
        exact hover
    · exact ⟨_, le_rfl, hwhole.symm, .inl (hwhole.symm ▸ Int.not_lt.mp hover), fun k hk hle => absurd hle (by omega)⟩

theorem popMemories_perm (memories : List String) :
    memories.Perm ((popMemories est ceiling memories).1 ++ (popMemories est ceiling memories).2) := by
  induction memories with
  | nil => exact .refl _
  | cons m earlier ih =>
    rw [popMemories]
    split_ifs with hover
    · exact (ih.cons m).trans List.perm_middle.symm
    · rw [List.append_nil]
      exact (List.reverse_perm _).symm

/-- What is left is the longest beginning that the ceiling allows, and what was freed is what the segment shrank by. -/
structure TrimmedMemories (est : Estimator) (ceiling : Int) (kept : List String) (out : List String × Option TrimRecord) :
    Prop where
  beginning : out.1 <+: kept
  fits : memoryEstimate est out.1 ≤ ceiling
  longest : ∀ fitting, fitting <+: kept → memoryEstimate est fitting ≤ ceiling → fitting <+: out.1
  freed : ∀ record ∈ out.2, record.freedEstimate = memoryEstimate est kept - memoryEstimate est out.1

theorem trimMemories_freed {kept : List String} {record : TrimRecord} (hrecord : record ∈ (trimMemories est ceiling kept).2) :
    record.freedEstimate = memoryEstimate est kept - memoryEstimate est (trimMemories est ceiling kept).1 ↔
      (trimMemories est ceiling kept).1 ≠ [] := by
  have hperm := (List.reverse_perm kept).symm.trans (@popMemories_perm est ceiling kept.reverse)
  rw [trimMemories] at hrecord ⊢
  dsimp only at hrecord ⊢
  split_ifs at hrecord with hdropped
  · cases hrecord
  · cases hrecord
    exact freed_eq_sub_iff hperm hdropped

theorem trimmedMemories_iff (kept : List String) :
    TrimmedMemories est ceiling kept (trimMemories est ceiling kept) ↔ memoryEstimate est (kept.take 1) ≤ ceiling := by
  obtain ⟨n, hn, hleft, hfits, hmore⟩ := @popMemories_spec est ceiling kept.reverse
  rw [List.reverse_reverse] at hleft hfits hmore
  rw [List.length_reverse] at hn hmore
  have hout : (trimMemories est ceiling kept).1 = kept.take n := hleft
  constructor
  · intro h
    by_cases hpos : n = 0
    · have hempty : (trimMemories est ceiling kept).1 = [] := by rw [hout, hpos, List.take_zero]
      cases hrecord : (trimMemories est ceiling kept).2 with
      | none =>
        have hfit := h.fits
        rw [hempty] at hfit
        rw [← trimMemories_none hrecord, hempty]
        exact hfit
      | some record => exact absurd hempty ((trimMemories_freed hrecord).mp (h.freed record hrecord))
    · exact (segmentEstimate_take_one hpos).trans (hout ▸ h.fits)
  · intro hone
    have hkept : kept = [] ∨ n ≠ 0 := by
      by_contra hall
      obtain ⟨hne, _⟩ := not_or.mp hall
      exact absurd hone (Int.not_le.mpr (hmore 1 (by omega) (List.length_pos_iff.mpr hne)))
    refine ⟨hout ▸ List.take_prefix _ _, ?_, ?_, ?_⟩
    · rw [hout]
      rcases hkept with rfl | hpos
      · rw [List.take_nil] at hone ⊢
        exact hone
      · exact hfits.resolve_right hpos
    · intro _ hfitting hle
      rw [hout, List.prefix_iff_eq_take.mp hfitting]
      apply List.take_prefix_take_left
      by_contra hlt
      rw [List.prefix_iff_eq_take.mp hfitting] at hle
      exact absurd hle (Int.not_le.mpr (hmore _ (by omega) hfitting.length_le))
    · intro _ hrecord
      rw [trimMemories_freed hrecord, hout]
      intro hempty
      have hnil : kept = [] := hkept.elim id fun hpos => (List.take_eq_nil_iff.mp hempty).resolve_left hpos
      subst hnil
      cases hrecord

end Memories

section Summaries

/-- The summaries with those of the last ones left out, from some place on, that are not loaded. -/
def unhitFrom (n : Nat) (kept : List SkillSummary) : List SkillSummary := kept.take n ++ (kept.drop n).filter (·.loaded)

theorem unhitFrom_concat {n : Nat} {kept : List SkillSummary} (hn : n ≤ kept.length) (s : SkillSummary) (later : List SkillSummary) :
    unhitFrom n (kept ++ [s]) ++ later = unhitFrom n kept ++ if s.loaded then s :: later else later := by
  rw [unhitFrom, unhitFrom, List.take_append_of_le_length hn, List.drop_append_of_le_length hn, List.filter_append]
  cases hloaded : s.loaded
  · simp [hloaded]
  · simp [hloaded]

theorem unhitFrom_length (kept : List SkillSummary) : unhitFrom kept.length kept = kept := by
  rw [unhitFrom, List.take_length, List.drop_length, List.filter_nil, List.append_nil]

theorem dropUnhit_spec (earlier later : List SkillSummary) : ∃ n ≤ earlier.length,
    (dropUnhit est ceiling earlier later).1 = unhitFrom n earlier.reverse ++ later ∧
      (summaryEstimate est (unhitFrom n earlier.reverse ++ later) ≤ ceiling ∨ n = 0) ∧
        ∀ m, n < m → m ≤ earlier.length → ceiling < summaryEstimate est (unhitFrom m earlier.reverse ++ later) := by
  induction earlier generalizing later with
  | nil => exact ⟨0, le_rfl, rfl, .inr rfl, fun m hm hle => absurd hle (Nat.not_le.mpr hm)⟩
  | cons s earlier ih =>
    have hwhole : unhitFrom (s :: earlier).length (s :: earlier).reverse ++ later = earlier.reverse ++ s :: later := by
      rw [← List.length_reverse, unhitFrom_length, List.reverse_cons, List.append_assoc, List.singleton_append]
    by_cases hfits : summaryEstimate est (earlier.reverse ++ s :: later) ≤ ceiling
    · refine ⟨_, le_rfl, ?_, .inl (hwhole.symm ▸ hfits), fun m hm hle => absurd hle (by omega)⟩
      rw [dropUnhit, if_pos hfits, hwhole]
    · obtain ⟨n, hn, hleft, hfit, hmore⟩ := ih (if s.loaded then s :: later else later)
      have hstep : ∀ k ≤ earlier.length, unhitFrom k (s :: earlier).reverse ++ later =
          unhitFrom k earlier.reverse ++ if s.loaded then s :: later else later := by
        intro k hk
        rw [List.reverse_cons, unhitFrom_concat (by rwa [List.length_reverse])]
      refine ⟨n, hn.trans (Nat.le_succ _), ?_, (hstep n hn).symm ▸ hfit, ?_⟩
      · rw [hstep n hn, ← hleft, dropUnhit, if_neg hfits]
        split_ifs with hloaded
        · rfl
        · rfl
      · intro k hk hle
        rcases Nat.lt_or_eq_of_le hle with hlt | rfl
        · rw [hstep k (Nat.le_of_lt_succ hlt)]
          exact hmore k hk (Nat.le_of_lt_succ hlt)
        · rw [hwhole]
          exact Int.not_le.mp hfits

theorem dropUnhit_perm (earlier later : List SkillSummary) :
    (earlier.reverse ++ later).Perm ((dropUnhit est ceiling earlier later).1 ++ (dropUnhit est ceiling earlier later).2) := by
  induction earlier generalizing later with
  | nil => rw [dropUnhit, List.append_nil, List.reverse_nil, List.nil_append]
  | cons s earlier ih =>
    rw [dropUnhit, List.reverse_cons, List.append_assoc, List.singleton_append]
    split_ifs with hfits hloaded
    · rw [List.append_nil]
    · exact ih (s :: later)
    · exact List.perm_middle.trans (((ih later).cons s).trans List.perm_middle.symm)

/-- The loaded ones stay, the last ones that are not go first and only as long as the segment is too large, and what was
freed is what the segment shrank by. -/
structure DroppedSummaries (est : Estimator) (ceiling : Int) (kept : List SkillSummary)
    (out : List SkillSummary × Option TrimRecord) : Prop where
  loaded : out.1.filter (·.loaded) = kept.filter (·.loaded)
  lastFirst : ∃ n ≤ kept.length, out.1 = unhitFrom n kept ∧
    ∀ m, n < m → m ≤ kept.length → ceiling < summaryEstimate est (unhitFrom m kept)
  ends : summaryEstimate est out.1 ≤ ceiling ∨ ∀ s ∈ out.1, s.loaded
  freed : ∀ record ∈ out.2, record.freedEstimate = summaryEstimate est kept - summaryEstimate est out.1

theorem dropUnhitSummaries_freed {kept : List SkillSummary} {record : TrimRecord}
    (hrecord : record ∈ (dropUnhitSummaries est ceiling kept).2) :
    record.freedEstimate = summaryEstimate est kept - summaryEstimate est (dropUnhitSummaries est ceiling kept).1 ↔
      (dropUnhitSummaries est ceiling kept).1 ≠ [] := by
  have hperm := (@dropUnhit_perm est ceiling kept.reverse []).map (·.text)
  rw [List.reverse_reverse, List.append_nil, List.map_append] at hperm
  rw [dropUnhitSummaries] at hrecord ⊢
  dsimp only at hrecord ⊢
  split_ifs at hrecord with hdropped
  · cases hrecord
  · cases hrecord
    exact (freed_eq_sub_iff hperm (List.map_eq_nil_iff.not.mpr hdropped)).trans List.map_eq_nil_iff.not

theorem unhitFrom_loaded (n : Nat) (kept : List SkillSummary) : (unhitFrom n kept).filter (·.loaded) = kept.filter (·.loaded) := by
  rw [unhitFrom, List.filter_append, List.filter_filter]
  simp only [Bool.and_self]
  rw [← List.filter_append, List.take_append_drop]

theorem unhitFrom_unloaded {kept : List SkillSummary} (h : kept.filter (·.loaded) = []) (n : Nat) : unhitFrom n kept = kept.take n := by
  rw [unhitFrom, List.filter_eq_nil_iff.mpr, List.append_nil]
  intro s hs
  exact List.filter_eq_nil_iff.mp h s (List.mem_of_mem_drop hs)

theorem dropUnhitSummaries_eq_nil_iff (kept : List SkillSummary) (hkept : kept ≠ []) :
    (dropUnhitSummaries est ceiling kept).1 = [] ↔
      (∀ s ∈ kept, ¬ s.loaded) ∧ ceiling < summaryEstimate est (kept.take 1) := by
  obtain ⟨n, hn, hleft, hfits, hmore⟩ := @dropUnhit_spec est ceiling kept.reverse []
  simp only [List.reverse_reverse, List.append_nil, List.length_reverse] at hn hleft hfits hmore
  have hout : (dropUnhitSummaries est ceiling kept).1 = unhitFrom n kept := hleft
  rw [hout, ← List.filter_eq_nil_iff]
  constructor
  · intro hempty
    have hnone : kept.filter (·.loaded) = [] := by rw [← unhitFrom_loaded n, hempty, List.filter_nil]
    rw [unhitFrom_unloaded hnone, List.take_eq_nil_iff] at hempty
    have hfirst := hmore 1 (by have := hempty.resolve_right hkept; omega) (List.length_pos_iff.mpr hkept)
    rw [unhitFrom_unloaded hnone] at hfirst
    exact ⟨hnone, hfirst⟩
  · rintro ⟨hnone, hfirst⟩
    rw [unhitFrom_unloaded hnone] at hfits ⊢
    rcases hfits with hfits | rfl
    · by_contra hne
      have hpos : n ≠ 0 := by
        rintro rfl
        exact hne List.take_zero
      have hle := @segmentEstimate_take_one est (kept.map (·.text)) n hpos
      rw [← List.map_take, ← List.map_take] at hle
      exact absurd (hle.trans hfits) (Int.not_le.mpr hfirst)
    · exact List.take_zero

theorem droppedSummaries_iff (kept : List SkillSummary) :
    DroppedSummaries est ceiling kept (dropUnhitSummaries est ceiling kept) ↔
      kept = [] ∨ (∃ s ∈ kept, s.loaded) ∨ summaryEstimate est (kept.take 1) ≤ ceiling := by
  obtain ⟨n, hn, hleft, hfits, hmore⟩ := @dropUnhit_spec est ceiling kept.reverse []
  simp only [List.reverse_reverse, List.append_nil, List.length_reverse] at hn hleft hfits hmore
  have hout : (dropUnhitSummaries est ceiling kept).1 = unhitFrom n kept := hleft
  have hcondition : kept ≠ [] → ((dropUnhitSummaries est ceiling kept).1 ≠ [] ↔
      (∃ s ∈ kept, s.loaded) ∨ summaryEstimate est (kept.take 1) ≤ ceiling) := by
    intro hkept
    rw [ne_eq, dropUnhitSummaries_eq_nil_iff kept hkept, not_and, Int.not_lt]
    constructor
    · intro h
      by_cases hloaded : ∃ s ∈ kept, s.loaded
      · exact .inl hloaded
      · exact .inr (h (by simpa using hloaded))
    · rintro (⟨s, hs, hloaded⟩ | hfirst) hnone
      · exact absurd hloaded (hnone s hs)
      · exact hfirst
  constructor
  · intro h
    by_cases hkept : kept = []
    · exact .inl hkept
    · right
      rw [← hcondition hkept]
      intro hempty
      cases hrecord : (dropUnhitSummaries est ceiling kept).2 with
      | none => exact hkept ((dropUnhitSummaries_none hrecord).symm.trans hempty)
      | some record => exact (dropUnhitSummaries_freed hrecord).mp (h.freed record hrecord) hempty
  · intro h
    refine ⟨hout ▸ unhitFrom_loaded n kept, ⟨n, hn, hout, hmore⟩, ?_, ?_⟩
    · rw [hout]
      rcases hfits with hfits | rfl
      · exact .inl hfits
      · right
        intro _ hs
        rw [unhitFrom, List.take_zero, List.nil_append, List.drop_zero] at hs
        exact (List.mem_filter.mp hs).2
    · intro _ hrecord
      rw [dropUnhitSummaries_freed hrecord]
      rcases h with rfl | h
      · cases hrecord
      · have hkept : kept ≠ [] := by
          rintro rfl
          cases hrecord
        exact (hcondition hkept).mpr h

end Summaries

/-- Each segment is trimmed as little as its ceiling allows and reports what it freed, unless its last text goes too. -/
theorem trimmed_minimally (est : Estimator) (ceiling : Int) :
    (∀ memories, TrimmedMemories est ceiling memories (trimMemories est ceiling memories) ↔
      memoryEstimate est (memories.take 1) ≤ ceiling) ∧
    ∀ summaries, DroppedSummaries est ceiling summaries (dropUnhitSummaries est ceiling summaries) ↔
      summaries = [] ∨ (∃ s ∈ summaries, s.loaded) ∨ summaryEstimate est (summaries.take 1) ≤ ceiling :=
  ⟨trimmedMemories_iff, droppedSummaries_iff⟩

/-- A memory of one token that may cost four: all of the segment's five are freed, and one is reported. -/
theorem lone_memory_freed : ¬ TrimmedMemories ⟨String.length, fun _ => ""⟩ 4 ["m"] (trimMemories ⟨String.length, fun _ => ""⟩ 4 ["m"]) := by
  intro h
  exact absurd (h.freed _ rfl) (by decide)

end TinyHermes.Runs.ContextBudget
