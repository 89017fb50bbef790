import TinyHermes.Lib.Table

/-! What the rows of a table weigh together. -/
namespace TinyHermes.Lib.Table
variable {κ κ' α β : Type} [DecidableEq κ] [DecidableEq κ'] {w w' : κ → α → ℕ} {t : Table κ α} {k : κ} {row : α}

def total (w : κ → α → ℕ) (t : Table κ α) : ℕ := (t.entries.map fun e => w e.1 e.2).sum

omit [DecidableEq κ] in
theorem total_mapRows (w : κ → α → ℕ) (f : κ → α → α) (t : Table κ α) :
    total w (mapRows f t) = total (fun k row => w k (f k row)) t := by
  unfold total mapRows
  rw [List.map_map]
  rfl

theorem total_mono (h : ∀ k row, t.lookup k = some row → w k row ≤ w' k row) : total w t ≤ total w' t := by
  apply List.sum_le_sum
  intro e he
  exact h e.1 e.2 (AList.mem_lookup_iff.mpr he)

theorem total_congr (h : ∀ k row, t.lookup k = some row → w k row = w' k row) : total w t = total w' t :=
  Nat.le_antisymm (total_mono fun k row hrow => (h k row hrow).le) (total_mono fun k row hrow => (h k row hrow).ge)

theorem total_split (w : κ → α → ℕ) (h : t.lookup k = some row) : total w t = w k row + total w (t.erase k) := by
  have hkey : k ∈ t.entries.keys := List.dlookup_isSome.mp (by rw [AList.lookup] at h; simp [h])
  obtain ⟨row', _, _, _, hentries, herase⟩ := List.exists_of_kerase hkey
  have hrow : row' = row := by
    have hmem : ⟨k, row'⟩ ∈ t.entries := by simp [hentries]
    exact Option.some.inj ((AList.mem_lookup_iff.mpr hmem).symm.trans h)
  subst hrow
  change _ = _ + ((t.entries.kerase k).map _).sum
  rw [herase, total, hentries]
  simp only [List.map_append, List.map_cons, List.sum_append, List.sum_cons]
  omega

theorem total_insert (w : κ → α → ℕ) (h : t.lookup k = none) : total w (t.insert k row) = w k row + total w t := by
  rw [total, AList.entries_insert_of_notMem (AList.lookup_eq_none.mp h)]
  rfl

theorem total_modify (w : κ → α → ℕ) (f : α → α) (h : t.lookup k = some row) :
    total w (modify k f t) + w k row = total w t + w k (f row) := by
  have hrest : total (fun k' old => w k' (if k' = k then f old else old)) (t.erase k) = total w (t.erase k) := by
    apply total_congr
    intro _ _ hold
    rw [if_neg (lookup_erase_some hold).1]
  rw [modify, total_mapRows, total_split _ h, total_split w h, hrest, if_pos rfl]
  omega

/-- Where every row of one table that weighs anything is named by a row of another that weighs as much, the first
table weighs no more than the second. -/
theorem total_le_of_named {u : Table κ' β} {v : κ' → β → ℕ} (name : κ' → β → κ)
    (h : ∀ k row, t.lookup k = some row → w k row ≠ 0 → ∃ j r, u.lookup j = some r ∧ name j r = k ∧ w k row ≤ v j r) :
    total w t ≤ total v u := by
  induction t using AList.insertRec generalizing u with
  | H0 => exact Nat.zero_le _
  | IH k row t hfresh ih =>
    have hnone : t.lookup k = none := AList.lookup_eq_none.mpr hfresh
    have hother : ∀ k' row', t.lookup k' = some row' → k' ≠ k ∧ (t.insert k row).lookup k' = some row' := by
      intro k' row' hrow'
      have hne : k' ≠ k := by
        rintro rfl
        rw [hnone] at hrow'
        cases hrow'
      exact ⟨hne, by rw [AList.lookup_insert_ne hne, hrow']⟩
    rw [total_insert w hnone]
    by_cases hzero : w k row = 0
    · rw [hzero, Nat.zero_add]
      exact ih fun k' row' hrow' => h k' row' (hother k' row' hrow').2
    · obtain ⟨j, _, hr, hname, hle⟩ := h k row (AList.lookup_insert t) hzero
      rw [total_split v hr]
      apply Nat.add_le_add hle
      apply ih
      intro k' row' hrow' hweigh
      obtain ⟨hne, hrow'⟩ := hother k' row' hrow'
      obtain ⟨j', r', hr', hname', hle'⟩ := h k' row' hrow' hweigh
      have hj : j' ≠ j := by
        rintro rfl
        rw [hr] at hr'
        cases hr'
        exact hne (hname'.symm.trans hname)
      exact ⟨j', r', by rw [AList.lookup_erase_ne hj, hr'], hname', hle'⟩

end TinyHermes.Lib.Table
