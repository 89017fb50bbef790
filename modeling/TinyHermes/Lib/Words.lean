import TinyHermes.Lib.Text

/-! The words of a text: where `str.split` cuts it, and that blanks and line breaks between texts cut nothing else. -/
namespace TinyHermes.Lib.Text

/-- `text.split()`. -/
def words (text : List Char) : List (List Char) := (text.splitOnP isSpace).filter fun word => !word.isEmpty

@[simp] theorem words_nil : words [] = [] := rfl

theorem words_append_space (before after : List Char) {c : Char} (hc : isSpace c) :
    words (before ++ c :: after) = words before ++ words after := by
  rw [words, List.splitOnP_append_cons before after hc, List.filter_append]
  rfl

theorem words_cons_space (text : List Char) {c : Char} (hc : isSpace c) : words (c :: text) = words text :=
  words_append_space [] text hc

theorem words_snoc_space (text : List Char) {c : Char} (hc : isSpace c) : words (text ++ [c]) = words text := by
  rw [words_append_space text [] hc, words_nil, List.append_nil]

theorem words_dropWhile (text : List Char) : words (text.dropWhile isSpace) = words text := by
  induction text with
  | nil => rfl
  | cons c text ih =>
    by_cases hc : isSpace c
    · rw [List.dropWhile_cons_of_pos hc, ih, words_cons_space text hc]
    · rw [List.dropWhile_cons_of_neg hc]

theorem words_rdropWhile (text : List Char) : words (text.reverse.dropWhile isSpace).reverse = words text := by
  induction text using List.reverseRecOn with
  | nil => rfl
  | append_singleton text c ih =>
    rw [List.reverse_append]
    by_cases hc : isSpace c
    · rw [List.reverse_singleton, List.singleton_append, List.dropWhile_cons_of_pos hc, ih, words_snoc_space text hc]
    · rw [List.reverse_singleton, List.singleton_append, List.dropWhile_cons_of_neg hc, List.reverse_cons,
        List.reverse_reverse]

theorem words_stripChars (text : List Char) : words (stripChars text) = words text := by
  rw [stripChars, words_rdropWhile, words_dropWhile]

theorem words_self {word : List Char} (hne : word ≠ []) (h : ∀ c ∈ word, isSpace c = false) : words word = [word] := by
  rw [words, List.splitOnP_eq_singleton h, List.filter_cons_of_pos (by simpa using hne), List.filter_nil]

theorem words_blanks_append {blanks : List Char} (h : ∀ c ∈ blanks, isSpace c) (text : List Char) :
    words (blanks ++ text) = words text := by
  rw [← words_dropWhile, List.dropWhile_append_of_pos h, words_dropWhile]

theorem words_cases (text : List Char) : (words text = [] ∧ ∀ c ∈ text, isSpace c) ∨
    ∃ blanks word after, text = blanks ++ (word ++ after) ∧ (∀ c ∈ blanks, isSpace c) ∧ word ≠ [] ∧
      (∀ c ∈ word, isSpace c = false) ∧ (∀ c ∈ after.head?, isSpace c) ∧ words text = word :: words after := by
  have hblanks : ∀ c ∈ text.takeWhile isSpace, isSpace c := fun c hc => List.mem_takeWhile_imp hc
  have htext := List.takeWhile_append_dropWhile (p := isSpace) (l := text)
  have hhead := List.head?_dropWhile_not isSpace text
  rw [← words_dropWhile]
  generalize text.takeWhile isSpace = blanks at hblanks htext
  generalize text.dropWhile isSpace = body at hhead htext
  subst htext
  cases body with
  | nil => exact .inl ⟨rfl, by simpa using hblanks⟩
  | cons c body =>
    have hword : ∀ d ∈ (c :: body).takeWhile fun d => !isSpace d, isSpace d = false := by
      intro d hd
      simpa using List.mem_takeWhile_imp hd
    have hafter := List.head?_dropWhile_not (fun d => !isSpace d) (c :: body)
    have hne : (c :: body).takeWhile (fun d => !isSpace d) ≠ [] := by
      rw [List.takeWhile_cons_of_pos (by simpa using hhead)]
      exact List.cons_ne_nil _ _
    have hbody := List.takeWhile_append_dropWhile (p := fun d => !isSpace d) (l := c :: body)
    generalize (c :: body).takeWhile (fun d => !isSpace d) = word at hword hne hbody
    generalize (c :: body).dropWhile (fun d => !isSpace d) = after at hafter hbody
    rw [← hbody]
    refine .inr ⟨blanks, word, after, rfl, hblanks, hne, hword, ?_, ?_⟩
    · intro d hd
      rw [Option.mem_def.mp hd] at hafter
      simpa using hafter
    · cases after with
      | nil => rw [List.append_nil, words_self hne hword, words_nil]
      | cons d after =>
        have hd : isSpace d := by simpa using hafter
        rw [words_append_space word after hd, words_self hne hword, words_cons_space after hd, List.singleton_append]

theorem stripChars_of_blanks {before middle after : List Char} (hbefore : ∀ c ∈ before, isSpace c) (hafter : ∀ c ∈ after, isSpace c)
    (hhead : ∀ c ∈ middle.head?, isSpace c = false) (hlast : ∀ c ∈ middle.getLast?, isSpace c = false) :
    stripChars (before ++ (middle ++ after)) = middle := by
  have hkept : ∀ {cs : List Char}, cs ≠ [] → (∀ c ∈ cs.head?, isSpace c = false) → cs.dropWhile isSpace = cs := by
    intro _ hne hcs
    obtain ⟨c, _, rfl⟩ := List.exists_cons_of_ne_nil hne
    exact List.dropWhile_cons_of_neg (by simpa using hcs c rfl)
  rw [stripChars, List.dropWhile_append_of_pos hbefore]
  cases middle with
  | nil =>
    rw [List.nil_append, List.dropWhile_eq_nil_iff.mpr hafter]
    rfl
  | cons c middle =>
    have hwhole : ∀ d ∈ ((c :: middle) ++ after).head?, isSpace d = false := hhead
    rw [hkept (by simp) hwhole, List.reverse_append, List.dropWhile_append_of_pos (by simpa using hafter),
      hkept (by simp) (by rwa [List.head?_reverse]), List.reverse_reverse]

/-- What `words` cuts a text into. -/
def IsWord (word : List Char) : Prop := word ≠ [] ∧ ∀ c ∈ word, isSpace c = false

theorem IsWord.head {word : List Char} (h : IsWord word) (rest : List Char) : ∀ c ∈ (word ++ rest).head?, isSpace c = false := by
  obtain ⟨_, _, rfl⟩ := List.exists_cons_of_ne_nil h.1
  rintro _ ⟨rfl⟩
  exact h.2 _ List.mem_cons_self

theorem IsWord.last {word : List Char} (h : IsWord word) (before : List Char) :
    ∀ c ∈ (before ++ word).getLast?, isSpace c = false := by
  intro c hc
  rw [List.getLast?_append_of_ne_nil _ h.1] at hc
  exact h.2 c (List.mem_of_getLast? hc)

theorem words_eq_one_iff {text word : List Char} : words text = [word] ↔ IsWord word ∧ stripChars text = word := by
  constructor
  · intro h
    rcases words_cases text with ⟨hnone, _⟩ | ⟨_, first, after, rfl, hblanks, hne, hword, _, hwords⟩
    · cases hnone.symm.trans h
    · obtain ⟨rfl, hafter⟩ := List.cons.inj (hwords.symm.trans h)
      rcases words_cases after with ⟨_, hafter⟩ | ⟨_, _, _, _, _, _, _, _, hmore⟩
      · have hfirst : IsWord first := ⟨hne, hword⟩
        refine ⟨hfirst, stripChars_of_blanks hblanks hafter ?_ (hfirst.last [])⟩
        simpa using hfirst.head []
      · cases hmore.symm.trans hafter
  · rintro ⟨hword, hstrip⟩
    rw [← words_stripChars, hstrip, words_self hword.1 hword.2]

theorem words_eq_two_iff {text first second : List Char} : words text = [first, second] ↔ IsWord first ∧ IsWord second ∧
    ∃ blanks, blanks ≠ [] ∧ (∀ c ∈ blanks, isSpace c) ∧ stripChars text = first ++ (blanks ++ second) := by
  constructor
  · intro h
    rcases words_cases text with ⟨hnone, _⟩ | ⟨_, word, after, rfl, hbefore, hne, hword, hhead, hwords⟩
    · cases hnone.symm.trans h
    · obtain ⟨rfl, hafter⟩ := List.cons.inj (hwords.symm.trans h)
      rcases words_cases after with ⟨hnone, _⟩ | ⟨blanks, other, rest, rfl, hblanks, hne', hother, _, hwords'⟩
      · cases hnone.symm.trans hafter
      · obtain ⟨rfl, hrest⟩ := List.cons.inj (hwords'.symm.trans hafter)
        rcases words_cases rest with ⟨_, hrest⟩ | ⟨_, _, _, _, _, _, _, _, hmore⟩
        · have hfirst : IsWord word := ⟨hne, hword⟩
          have hsecond : IsWord other := ⟨hne', hother⟩
          refine ⟨hfirst, hsecond, blanks, ?_, hblanks, ?_⟩
          · rintro rfl
            obtain ⟨c, _, rfl⟩ := List.exists_cons_of_ne_nil hne'
            exact absurd (hhead c rfl) (by simp [hother c])
          · have hjoin : word ++ (blanks ++ (other ++ rest)) = (word ++ (blanks ++ other)) ++ rest := by simp
            rw [hjoin]
            refine stripChars_of_blanks hbefore hrest (hfirst.head _) ?_
            rw [← List.append_assoc]
            exact hsecond.last _
        · cases hmore.symm.trans hrest
  · rintro ⟨hfirst, hsecond, blanks, hne, hblanks, hstrip⟩
    obtain ⟨c, _, rfl⟩ := List.exists_cons_of_ne_nil hne
    rw [← words_stripChars, hstrip, List.cons_append, words_append_space _ _ (hblanks c List.mem_cons_self),
      words_blanks_append (fun d hd => hblanks d (List.mem_cons_of_mem _ hd)), words_self hfirst.1 hfirst.2,
      words_self hsecond.1 hsecond.2, List.singleton_append]

/-- `separator.join(texts)`, with a separator of blanks, has the words of the texts one after another. -/
theorem words_intercalate {separator : List Char} (hne : separator ≠ []) (hblank : ∀ c ∈ separator, isSpace c)
    (texts : List (List Char)) : words (separator.intercalate texts) = texts.flatMap words := by
  have hsep (before after : List Char) : words (before ++ separator ++ after) = words before ++ words after := by
    obtain ⟨c, rest, rfl⟩ := List.exists_cons_of_ne_nil hne
    rw [List.append_assoc, List.cons_append, words_append_space _ _ (hblank c (List.mem_cons_self ..))]
    congr 1
    have hrest : ∀ c ∈ rest, isSpace c := fun c hc => hblank c (List.mem_cons_of_mem _ hc)
    clear hblank hne
    induction rest with
    | nil => rfl
    | cons c rest ih =>
      rw [List.cons_append, words_cons_space _ (hrest c (List.mem_cons_self ..))]
      exact ih fun c hc => hrest c (List.mem_cons_of_mem _ hc)
  induction texts with
  | nil => rfl
  | cons first rest ih =>
    cases rest with
    | nil => simp
    | cons =>
      rw [List.intercalate_cons_cons, hsep, ih]
      exact List.flatMap_cons.symm

end TinyHermes.Lib.Text
