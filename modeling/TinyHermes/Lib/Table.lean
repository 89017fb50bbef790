import Mathlib

/-! Tables keyed by id, on Mathlib's association lists, with the two bulk writes SQL has. -/
namespace TinyHermes.Lib
variable {κ α : Type} [DecidableEq κ]

abbrev Table (κ α : Type) := AList (fun _ : κ => α)

namespace Table

/-- `UPDATE … SET …`, the new row computed from the key and the old row. -/
def mapRows (f : κ → α → α) (t : Table κ α) : Table κ α where
  entries := t.entries.map fun e => ⟨e.1, f e.1 e.2⟩
  nodupKeys := by
    have h := t.nodupKeys
    rwa [List.NodupKeys, List.keys, List.map_map]

/-- `UPDATE … SET … WHERE id = k`; nothing happens when there is no such row. -/
def modify (k : κ) (f : α → α) (t : Table κ α) : Table κ α :=
  mapRows (fun k' row => if k' = k then f row else row) t

/-- The rows a query returns, in no particular order. -/
def select (p : κ → α → Bool) (t : Table κ α) : List (κ × α) :=
  (t.entries.filter fun e => p e.1 e.2).map fun e => (e.1, e.2)

def count (p : κ → α → Bool) (t : Table κ α) : Nat := (select p t).length

theorem lookup_insert_ite (k k' : κ) (v : α) (t : Table κ α) :
    (t.insert k v).lookup k' = if k' = k then some v else t.lookup k' := by
  split
  · next h => rw [h, AList.lookup_insert]
  · next h => rw [AList.lookup_insert_ne h]

@[simp] theorem lookup_mapRows (f : κ → α → α) (t : Table κ α) (k : κ) :
    (mapRows f t).lookup k = (t.lookup k).map (f k) :=
  List.dlookup_map₂ k

theorem lookup_modify (k k' : κ) (f : α → α) (t : Table κ α) :
    (modify k f t).lookup k' = if k' = k then (t.lookup k').map f else t.lookup k' := by
  rw [modify, lookup_mapRows]
  by_cases h : k' = k
  · simp [h]
  · simp [h]

@[simp] theorem lookup_modify_self (k : κ) (f : α → α) (t : Table κ α) :
    (modify k f t).lookup k = (t.lookup k).map f := by
  simp [lookup_modify]

theorem lookup_modify_of_ne {k k' : κ} (h : k' ≠ k) (f : α → α) (t : Table κ α) :
    (modify k f t).lookup k' = t.lookup k' := by
  simp [lookup_modify, h]

/-- A row after `modify`: the one that was changed, or another one as it was. -/
theorem lookup_modify_cases {k k' : κ} {f : α → α} {t : Table κ α} {old row : α} (h : t.lookup k = some old)
    (h' : (modify k f t).lookup k' = some row) : (k' = k ∧ row = f old) ∨ (k' ≠ k ∧ t.lookup k' = some row) := by
  by_cases hk : k' = k
  · subst hk
    rw [lookup_modify_self, h] at h'
    exact .inl ⟨rfl, (Option.some.inj h').symm⟩
  · rw [lookup_modify_of_ne hk] at h'
    exact .inr ⟨hk, h'⟩

theorem lookup_erase_some {k k' : κ} {t : Table κ α} {row : α} (h : (t.erase k).lookup k' = some row) :
    k' ≠ k ∧ t.lookup k' = some row := by
  by_cases hk : k' = k
  · subst hk
    rw [AList.lookup_erase] at h
    cases h
  · rw [AList.lookup_erase_ne hk] at h
    exact ⟨hk, h⟩

theorem mem_select {p : κ → α → Bool} {t : Table κ α} {k : κ} {row : α} :
    (k, row) ∈ select p t ↔ t.lookup k = some row ∧ p k row = true := by
  rw [← Option.mem_def, AList.mem_lookup_iff]
  simp only [select, List.mem_map, List.mem_filter, Prod.mk.injEq]
  constructor
  · rintro ⟨⟨_, _⟩, ⟨hm, hp⟩, rfl, rfl⟩
    exact ⟨hm, hp⟩
  · rintro ⟨hm, hp⟩
    exact ⟨⟨k, row⟩, ⟨hm, hp⟩, rfl, rfl⟩

omit [DecidableEq κ] in
theorem nodup_select (p : κ → α → Bool) (t : Table κ α) : ((select p t).map (·.1)).Nodup := by
  have hkeys : (select p t).map (·.1) = (t.entries.filter fun e => p e.1 e.2).map Sigma.fst := by
    rw [select, List.map_map]
    rfl
  rw [hkeys]
  exact List.NodupKeys.sublist List.filter_sublist t.nodupKeys

/-- A count grows by the keys in `extra` at most when every other row that counts now counted before. -/
theorem count_le {p q : κ → α → Bool} {t t' : Table κ α} (extra : List κ)
    (h : ∀ k row', t'.lookup k = some row' → p k row' = true → k ∈ extra ∨ ∃ row, t.lookup k = some row ∧ q k row = true) :
    count p t' ≤ extra.length + count q t := by
  have hsub : (select p t').map (·.1) ⊆ extra ++ (select q t).map (·.1) := by
    intro k hk
    obtain ⟨⟨k, row'⟩, hrow', rfl⟩ := List.mem_map.mp hk
    obtain ⟨hlookup, hp⟩ := mem_select.mp hrow'
    rcases h k row' hlookup hp with hextra | ⟨row, hrow, hq⟩
    · exact List.mem_append_left _ hextra
    · exact List.mem_append_right _ (List.mem_map.mpr ⟨(k, row), mem_select.mpr ⟨hrow, hq⟩, rfl⟩)
  have hlength := (List.subperm_of_subset (nodup_select p t') hsub).length_le
  simpa [count] using hlength

theorem count_congr {p q : κ → α → Bool} {t t' : Table κ α}
    (h : ∀ k, (∃ row, t'.lookup k = some row ∧ p k row = true) ↔ ∃ row, t.lookup k = some row ∧ q k row = true) :
    count p t' = count q t := by
  apply Nat.le_antisymm
  · have hle : count p t' ≤ ([] : List κ).length + count q t :=
      count_le [] fun k row hrow hp => .inr ((h k).mp ⟨row, hrow, hp⟩)
    rwa [List.length_nil, Nat.zero_add] at hle
  · have hle : count q t ≤ ([] : List κ).length + count p t' :=
      count_le [] fun k row hrow hq => .inr ((h k).mpr ⟨row, hrow, hq⟩)
    rwa [List.length_nil, Nat.zero_add] at hle

omit [DecidableEq κ] in
theorem countP_select (p q : κ → α → Bool) (t : Table κ α) :
    (select p t).countP (fun found => q found.1 found.2) = count (fun k row => p k row && q k row) t := by
  rw [select, List.countP_map, count, select, List.length_map, List.countP_filter, List.countP_eq_length_filter]
  congr 1
  apply List.filter_congr
  intro _ _
  exact Bool.and_comm _ _

theorem count_key (k : κ) (p : α → Bool) (t : Table κ α) :
    count (fun k' row => decide (k' = k) && p row) t = if (t.lookup k).any p then 1 else 0 := by
  obtain ⟨entries, hnodup⟩ := t
  simp only [count, select, List.length_map]
  change (List.filter _ entries).length = if (entries.dlookup k).any p then 1 else 0
  induction entries with
  | nil => rfl
  | cons e rest ih =>
    obtain ⟨k', row⟩ := e
    obtain ⟨hnot, hrest⟩ := List.nodupKeys_cons.mp hnodup
    have ih := ih hrest
    by_cases hk : k' = k
    · subst hk
      have hnone : rest.dlookup k' = none := List.dlookup_eq_none.mpr hnot
      rw [hnone] at ih
      rw [List.filter_cons, List.dlookup_cons_eq]
      cases hp : p row with
      | false => simpa [hp] using ih
      | true => simpa [hp] using ih
    · rw [List.filter_cons, List.dlookup_cons_ne _ _ (Ne.symm hk)]
      simpa [hk] using ih

section Exclusive
variable {β : Type} {has : α → β → Prop} {t : Table κ α} {k : κ} {row : α}

/-- No two rows have anything in common. -/
def Exclusive (has : α → β → Prop) (t : Table κ α) : Prop :=
  ∀ k k' row row' x, t.lookup k = some row → t.lookup k' = some row' → has row x → has row' x → k = k'

theorem Exclusive.modify {f : α → α} (h : Exclusive has t) (hk : t.lookup k = some row)
    (hnew : ∀ x, has (f row) x → has row x ∨ ∀ k' row', k' ≠ k → t.lookup k' = some row' → ¬ has row' x) :
    Exclusive has (t.modify k f) := by
  intro i j b c x hb hc hxb hxc
  rcases lookup_modify_cases hk hb with ⟨hi, rfl⟩ | ⟨hi, hb⟩
  · rcases lookup_modify_cases hk hc with ⟨hj, rfl⟩ | ⟨hj, hc⟩
    · rw [hi, hj]
    · rcases hnew x hxb with hold | hfree
      · rw [hi]
        exact h k j _ _ x hk hc hold hxc
      · exact absurd hxc (hfree j c hj hc)
  · rcases lookup_modify_cases hk hc with ⟨hj, rfl⟩ | ⟨_, hc⟩
    · rcases hnew x hxc with hold | hfree
      · rw [hj]
        exact h i k _ _ x hb hk hxb hold
      · exact absurd hxb (hfree i b hi hb)
    · exact h i j b c x hb hc hxb hxc

theorem Exclusive.erase (h : Exclusive has t) : Exclusive has (t.erase k) :=
  fun i j b c x hb hc => h i j b c x (lookup_erase_some hb).2 (lookup_erase_some hc).2

theorem Exclusive.insert (h : Exclusive has t) (hnone : ∀ x, ¬ has row x) : Exclusive has (t.insert k row) := by
  have hother : ∀ {j b x}, (t.insert k row).lookup j = some b → has b x → t.lookup j = some b := by
    intro j b x hb hx
    rw [lookup_insert_ite] at hb
    split_ifs at hb with hj
    · cases hb
      exact absurd hx (hnone x)
    · exact hb
  exact fun i j b c x hb hc hxb hxc => h i j b c x (hother hb hxb) (hother hc hxc) hxb hxc

end Exclusive

end Table
end TinyHermes.Lib
