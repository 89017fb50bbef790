import Mathlib

/-! Texts cut at a separator, such as paths: their segments, and the texts above them. -/
namespace TinyHermes.Lib.Paths
variable {α : Type} {sep : α}

/-- What is above `parts`, from the outermost on; `above` is what has been joined so far. -/
def ancestorsFrom (sep : α) (above : List α) : List (List α) → List (List α)
  | [] => []
  | part :: rest =>
    let next := if above = [] then part else above ++ sep :: part
    next :: ancestorsFrom sep next rest

section Segments
variable [DecidableEq α]

theorem sep_not_mem_splitOn {cs s : List α} (h : s ∈ cs.splitOn sep) : sep ∉ s := by
  induction cs generalizing s with
  | nil =>
    rw [List.splitOn_nil, List.mem_singleton] at h
    subst h
    exact List.not_mem_nil
  | cons c cs ih =>
    rw [List.splitOn_cons_eq_if_modifyHead] at h
    split_ifs at h with hc
    · rcases List.mem_cons.mp h with rfl | h
      · exact List.not_mem_nil
      · exact ih h
    · cases hsplit : cs.splitOn sep with
      | nil => exact absurd hsplit (List.splitOn_ne_nil sep cs)
      | cons =>
        rw [hsplit, List.modifyHead_cons] at h
        rcases List.mem_cons.mp h with rfl | h
        · intro hmem
          rcases List.mem_cons.mp hmem with rfl | hmem
          · exact hc (beq_self_eq_true _)
          · exact ih (by rw [hsplit]; exact List.mem_cons_self) hmem
        · exact ih (by rw [hsplit]; exact List.mem_cons_of_mem _ h)

theorem mem_iff_mem_splitOn {cs : List α} {c : α} (hc : c ≠ sep) : c ∈ cs ↔ ∃ s ∈ cs.splitOn sep, c ∈ s := by
  induction cs with
  | nil => simp
  | cons d cs ih =>
    rw [List.splitOn_cons_eq_if_modifyHead, List.mem_cons, ih]
    split_ifs with hd
    · have hne : c ≠ d := by
        rintro rfl
        exact hc (eq_of_beq hd)
      simp [hne]
    · cases hsplit : cs.splitOn sep with
      | nil => exact absurd hsplit (List.splitOn_ne_nil sep cs)
      | cons =>
        rw [List.modifyHead_cons]
        simp only [List.mem_cons, exists_eq_or_imp]
        tauto

end Segments

theorem intercalate_append {front back : List (List α)} (hfront : front ≠ []) (hback : back ≠ []) :
    [sep].intercalate (front ++ back) = [sep].intercalate front ++ sep :: [sep].intercalate back := by
  induction front with
  | nil => exact absurd rfl hfront
  | cons s front ih =>
    cases front with
    | nil =>
      rw [List.singleton_append, List.intercalate_cons_of_ne_nil hback, List.intercalate_singleton, List.append_assoc,
        List.singleton_append]
    | cons =>
      rw [List.cons_append, List.intercalate_cons_of_ne_nil (by simp), ih (by simp), List.intercalate_cons_cons]
      simp only [List.append_assoc]

theorem length_lt_of_mem_ancestorsFrom {above a : List α} {parts : List (List α)} (hparts : ∀ part ∈ parts, part ≠ [])
    (h : a ∈ ancestorsFrom sep above parts) : above.length < a.length := by
  induction parts generalizing above with
  | nil => cases h
  | cons part rest ih =>
    have hpart : 0 < part.length := List.length_pos_iff.mpr (hparts part List.mem_cons_self)
    have hnext : above.length < (if above = [] then part else above ++ sep :: part).length := by
      split_ifs with habove
      · rw [habove]
        exact hpart
      · simp
    rcases List.mem_cons.mp h with rfl | h
    · exact hnext
    · exact hnext.trans (ih (fun part hpart => hparts part (List.mem_cons_of_mem _ hpart)) h)

theorem nodup_ancestorsFrom {above : List α} {parts : List (List α)} (hparts : ∀ part ∈ parts, part ≠ []) :
    (ancestorsFrom sep above parts).Nodup := by
  induction parts generalizing above with
  | nil => exact List.nodup_nil
  | cons part rest ih =>
    have hrest : ∀ part ∈ rest, part ≠ [] := fun part hpart => hparts part (List.mem_cons_of_mem _ hpart)
    apply List.nodup_cons.mpr
    refine ⟨?_, ih hrest⟩
    intro hmem
    exact lt_irrefl _ (length_lt_of_mem_ancestorsFrom hrest hmem)

theorem mem_ancestorsFrom {above a : List α} {done parts : List (List α)} (habove : above ≠ []) (hdone : done ≠ [])
    (hjoined : [sep].intercalate done = above) (h : a ∈ ancestorsFrom sep above parts) :
    ∃ front back, parts = front ++ back ∧ a = [sep].intercalate (done ++ front) := by
  induction parts generalizing above done with
  | nil => cases h
  | cons part rest ih =>
    have hnext : [sep].intercalate (done ++ [part]) = above ++ sep :: part := by
      rw [intercalate_append hdone (by simp), hjoined, List.intercalate_singleton]
    rw [ancestorsFrom, if_neg habove] at h
    rcases List.mem_cons.mp h with rfl | h
    · exact ⟨[part], rest, rfl, hnext.symm⟩
    · obtain ⟨front, back, rfl, rfl⟩ := ih (by simp) (by simp) hnext h
      exact ⟨part :: front, back, rfl, by rw [List.append_assoc, List.singleton_append]⟩

/-- `ancestor` of a loop that starts with nothing. -/
theorem mem_ancestorsFrom_nil {a : List α} {parts : List (List α)} (hparts : ∀ part ∈ parts, part ≠ [])
    (h : a ∈ ancestorsFrom sep [] parts) : ∃ front back, front ≠ [] ∧ parts = front ++ back ∧ a = [sep].intercalate front := by
  cases parts with
  | nil => cases h
  | cons part rest =>
    rw [ancestorsFrom, if_pos rfl] at h
    rcases List.mem_cons.mp h with rfl | h
    · exact ⟨[a], rest, by simp, rfl, List.intercalate_singleton.symm⟩
    · obtain ⟨front, back, rfl, rfl⟩ :=
        mem_ancestorsFrom (hparts part List.mem_cons_self) (by simp) List.intercalate_singleton h
      exact ⟨part :: front, back, by simp, rfl, rfl⟩

end TinyHermes.Lib.Paths
