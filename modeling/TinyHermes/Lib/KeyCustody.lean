import TinyHermes.Lib.Execution

/-! Keys that are handed out once: when a message is lost and its loss is reported, its key waits for an exact repeat of the
message, and only for that. -/
namespace TinyHermes.Lib.KeyCustody
variable {ρ κ φ : Type}

/-- How a message names its key and its content; a message may have neither. -/
structure Naming (ρ κ φ : Type) where
  key : ρ → Option κ
  content : ρ → Option φ

structure State (ρ κ φ : Type) where
  /-- the message that is out, while nobody knows whether it arrived -/
  flying : Option ρ
  /-- the contents whose repeat gets an old key, with that key -/
  waiting : List (φ × κ)
  /-- every key ever drawn -/
  drawn : List κ

inductive Event (ρ : Type) where
  | quiet
  | sent (message : ρ)
  | told (message : ρ)

variable (N : Naming ρ κ φ)

/-- What waits once the loss of `message` was reported. -/
def pending (message : ρ) : List (φ × κ) :=
  match N.content message, N.key message with
  | some content, some key => [(content, key)]
  | _, _ => []

inductive Step : State ρ κ φ → Event ρ → State ρ κ φ → Prop where
  | quiet {st st' : State ρ κ φ} (hwaiting : st'.waiting = st.waiting)
      (hflying : st'.flying = st.flying ∨ st'.flying = none) (hdrawn : st.drawn ⊆ st'.drawn) : Step st .quiet st'
  | told {st st' : State ρ κ φ} {a : ρ} (hflying : st.flying = some a) (hnone : st'.flying = none)
      (hwaiting : st'.waiting = st.waiting ++ pending N a) (hdrawn : st.drawn ⊆ st'.drawn) : Step st (.told a) st'
  | plain {st st' : State ρ κ φ} {a : ρ} (hkey : N.key a = none) (hcontent : N.content a = none)
      (hflying : st'.flying = some a) (hwaiting : st'.waiting = st.waiting) (hdrawn : st.drawn ⊆ st'.drawn) :
      Step st (.sent a) st'
  | again {st st' : State ρ κ φ} {a : ρ} {l r : List (φ × κ)} {c : φ} {k : κ} (hkey : N.key a = some k)
      (hcontent : N.content a = some c) (hold : st.waiting = l ++ (c, k) :: r) (hfirst : ∀ e ∈ l, e.1 ≠ c)
      (hflying : st'.flying = some a) (hwaiting : st'.waiting = l ++ r) (hdrawn : st.drawn ⊆ st'.drawn) :
      Step st (.sent a) st'
  | anew {st st' : State ρ κ φ} {a : ρ} {c : φ} {k : κ} (hkey : N.key a = some k) (hcontent : N.content a = some c)
      (hnot : ∀ e ∈ st.waiting, e.1 ≠ c) (hfresh : k ∉ st.drawn) (hflying : st'.flying = some a)
      (hwaiting : st'.waiting = st.waiting) (hdrawn : st.drawn ⊆ st'.drawn) (hnow : k ∈ st'.drawn) : Step st (.sent a) st'

/-- Any two messages under one key are the same content, and the loss of the earlier one was reported
between them. -/
def Paired (es : List (Event ρ)) : Prop :=
  ∀ l₁ a l₂ b l₃ k, es = l₁ ++ .sent a :: (l₂ ++ .sent b :: l₃) → N.key a = some k → N.key b = some k →
    N.content a = N.content b ∧ .told a ∈ l₂

/-- `a` was sent, and no message under its key after it. -/
def LastSent (es : List (Event ρ)) (a : ρ) (since : List (Event ρ)) : Prop :=
  ∃ l₁, es = l₁ ++ .sent a :: since ∧ ∀ b k, .sent b ∈ since → N.key a = some k → N.key b ≠ some k

/-- What a history leaves behind. -/
structure Sound (es : List (Event ρ)) (st : State ρ κ φ) : Prop where
  paired : Paired N es
  waits : ∀ e ∈ st.waiting, ∃ a since, LastSent N es a since ∧ N.key a = some e.2 ∧ N.content a = some e.1 ∧
    .told a ∈ since
  flies : ∀ a, st.flying = some a → ∃ since, LastSent N es a since
  drawn : ∀ a k, .sent a ∈ es → N.key a = some k → k ∈ st.drawn
  keys : (st.waiting.map (·.2)).Nodup
  key_flying : ∀ a k, st.flying = some a → N.key a = some k → k ∉ st.waiting.map (·.2)
  contents : (st.waiting.map (·.1)).Nodup
  content_flying : ∀ a k c, st.flying = some a → N.key a = some k → N.content a = some c →
    c ∉ st.waiting.map (·.1)

section Lists
variable {α : Type}

theorem snoc_cut {es l₁ l₂ l₃ : List α} {e x y : α} (h : es ++ [e] = l₁ ++ x :: (l₂ ++ y :: l₃)) :
    (y = e ∧ es = l₁ ++ x :: l₂) ∨ ∃ l, es = l₁ ++ x :: (l₂ ++ y :: l) := by
  rcases List.eq_nil_or_concat l₃ with rfl | ⟨l, z, rfl⟩
  · left
    have h' : es ++ [e] = (l₁ ++ x :: l₂) ++ [y] := by simpa using h
    obtain ⟨hes, he⟩ := List.append_inj' h' rfl
    exact ⟨(List.cons.inj he).1.symm, hes⟩
  · right
    have h' : es ++ [e] = (l₁ ++ x :: (l₂ ++ y :: l)) ++ [z] := by simpa using h
    exact ⟨l, (List.append_inj' h' rfl).1⟩

end Lists

variable {N}
variable {es : List (Event ρ)} {st st' : State ρ κ φ} {e : Event ρ}

theorem LastSent.snoc {a : ρ} {since : List (Event ρ)} (h : LastSent N es a since)
    (he : ∀ b k, e = .sent b → N.key a = some k → N.key b ≠ some k) : LastSent N (es ++ [e]) a (since ++ [e]) := by
  obtain ⟨l₁, rfl, hlast⟩ := h
  refine ⟨l₁, by simp, fun b k hb hk => ?_⟩
  rcases List.mem_append.mp hb with hb | hb
  · exact hlast b k hb hk
  · exact he b k (List.mem_singleton.mp hb).symm hk

theorem LastSent.now (es : List (Event ρ)) (a : ρ) : LastSent N (es ++ [.sent a]) a [] :=
  ⟨es, rfl, fun _ _ hb => (nomatch hb)⟩

theorem Paired.snoc (h : Paired N es)
    (he : ∀ b k l₁ a l₂, e = .sent b → N.key b = some k → es = l₁ ++ .sent a :: l₂ → N.key a = some k →
      N.content a = N.content b ∧ .told a ∈ l₂) : Paired N (es ++ [e]) := by
  intro l₁ a l₂ b _ k heq ha hb
  rcases snoc_cut heq with ⟨hlast, hes⟩ | ⟨l, hes⟩
  · exact he b k l₁ a l₂ hlast.symm hb hes ha
  · exact h l₁ a l₂ b l k hes ha hb

/-- A key that waits was last used by a message whose loss was reported; so were all before it. -/
theorem Sound.repeats (h : Sound N es st) {c : φ} {k : κ} (hwaits : (c, k) ∈ st.waiting) {l₁ l₂ : List (Event ρ)} {a : ρ}
    (hes : es = l₁ ++ .sent a :: l₂) (ha : N.key a = some k) : N.content a = some c ∧ .told a ∈ l₂ := by
  obtain ⟨b, since, ⟨_, hm, hlast⟩, hb, hc, htold⟩ := h.waits _ hwaits
  rw [hm] at hes
  rcases List.append_eq_append_iff.mp hes with ⟨x, hl, hr⟩ | ⟨x, hl, hr⟩
  · cases x with
    | nil =>
      obtain ⟨rfl, rfl⟩ : b = a ∧ since = l₂ := by simpa using hr
      exact ⟨hc, htold⟩
    | cons =>
      obtain ⟨_, hsince⟩ := List.cons.inj (by simpa using hr)
      have hin : Event.sent a ∈ since := by simp [hsince]
      exact absurd ha (hlast a k hin hb)
  · cases x with
    | nil =>
      obtain ⟨rfl, rfl⟩ : b = a ∧ since = l₂ := by simpa using hr.symm
      exact ⟨hc, htold⟩
    | cons y x =>
      obtain ⟨rfl, hl₂⟩ := List.cons.inj (by simpa using hr)
      have hcut : es = l₁ ++ .sent a :: (x ++ .sent b :: since) := by
        rw [hm, hl]
        simp
      obtain ⟨hcontent, hmem⟩ := h.paired l₁ a x b since k hcut ha hb
      refine ⟨hcontent.trans hc, ?_⟩
      rw [hl₂]
      exact List.mem_append_left _ hmem

theorem mem_pending {a : ρ} {e : φ × κ} : e ∈ pending N a ↔ N.content a = some e.1 ∧ N.key a = some e.2 := by
  unfold pending
  cases hc : N.content a with
  | none => simp
  | some =>
    cases hk : N.key a with
    | none => simp
    | some =>
      simp only [List.mem_singleton, Option.some.injEq]
      constructor
      · rintro rfl
        exact ⟨rfl, rfl⟩
      · rintro ⟨rfl, rfl⟩
        rfl

private theorem nodup_pending {β : Type} {f : φ × κ → β} {waiting : List (φ × κ)} {a : ρ} (h : (waiting.map f).Nodup)
    (hnew : ∀ e ∈ pending N a, f e ∉ waiting.map f) : ((waiting ++ pending N a).map f).Nodup := by
  rw [List.map_append]
  refine List.nodup_append.mpr ⟨h, ?_, ?_⟩
  · unfold pending
    split
    · exact List.nodup_singleton _
    · exact List.nodup_nil
  · rintro _ hx _ hy rfl
    obtain ⟨e, he, rfl⟩ := List.mem_map.mp hy
    exact hnew e he hx

/-- A step that sends nothing leaves what was last sent what it was. -/
private theorem LastSent.unsent {a : ρ} {since : List (Event ρ)} (h : LastSent N es a since) (he : ∀ b, e ≠ .sent b) :
    LastSent N (es ++ [e]) a (since ++ [e]) :=
  h.snoc fun b _ hb => absurd hb (he b)

private theorem Paired.unsent (h : Paired N es) (he : ∀ b, e ≠ .sent b) : Paired N (es ++ [e]) :=
  h.snoc fun b _ _ _ _ hb => absurd hb (he b)

private theorem drawn_snoc (hs : Sound N es st) (hdrawn : st.drawn ⊆ st'.drawn)
    (he : ∀ a k, e = .sent a → N.key a = some k → k ∈ st'.drawn) (a : ρ) (k : κ) (ha : .sent a ∈ es ++ [e])
    (hk : N.key a = some k) : k ∈ st'.drawn := by
  rcases List.mem_append.mp ha with ha | ha
  · exact hdrawn (hs.drawn a k ha hk)
  · exact he a k (List.mem_singleton.mp ha).symm hk

theorem Sound.quiet (hs : Sound N es st) (hwaiting : st'.waiting = st.waiting)
    (hflying : st'.flying = st.flying ∨ st'.flying = none) (hdrawn : st.drawn ⊆ st'.drawn) :
    Sound N (es ++ [.quiet]) st' := by
  have hunsent : ∀ b : ρ, Event.quiet ≠ .sent b := fun b => by simp
  have hback : ∀ a, st'.flying = some a → st.flying = some a := by
    intro a ha
    rcases hflying with h | h
    · rw [← h]
      exact ha
    · rw [h] at ha
      cases ha
  refine ⟨hs.paired.unsent hunsent, fun x hx => ?_, fun a ha => ?_, ?_, ?_, fun a k ha => ?_, ?_, fun a k c ha => ?_⟩
  · rw [hwaiting] at hx
    obtain ⟨a, since, hlast, hk, hc, htold⟩ := hs.waits x hx
    exact ⟨a, _, hlast.unsent hunsent, hk, hc, List.mem_append_left _ htold⟩
  · obtain ⟨_, hlast⟩ := hs.flies a (hback a ha)
    exact ⟨_, hlast.unsent hunsent⟩
  · exact drawn_snoc hs hdrawn fun a k ha => absurd ha (hunsent a)
  · rw [hwaiting]
    exact hs.keys
  · rw [hwaiting]
    exact hs.key_flying a k (hback a ha)
  · rw [hwaiting]
    exact hs.contents
  · rw [hwaiting]
    exact hs.content_flying a k c (hback a ha)

theorem Sound.told {a : ρ} (hs : Sound N es st) (hflying : st.flying = some a) (hnone : st'.flying = none)
    (hwaiting : st'.waiting = st.waiting ++ pending N a) (hdrawn : st.drawn ⊆ st'.drawn) :
    Sound N (es ++ [.told a]) st' := by
  have hunsent : ∀ b : ρ, Event.told a ≠ .sent b := fun b => by simp
  have hnot : ∀ {b : ρ}, ¬ st'.flying = some b := fun {b} hb => by
    rw [hnone] at hb
    cases hb
  refine ⟨hs.paired.unsent hunsent, fun x hx => ?_, fun b hb => (hnot hb).elim, ?_, ?_, fun b k hb => (hnot hb).elim, ?_,
    fun b k c hb => (hnot hb).elim⟩
  · rw [hwaiting] at hx
    rcases List.mem_append.mp hx with hx | hx
    · obtain ⟨b, since, hlast, hk, hc, htold⟩ := hs.waits x hx
      exact ⟨b, _, hlast.unsent hunsent, hk, hc, List.mem_append_left _ htold⟩
    · obtain ⟨hc, hk⟩ := mem_pending.mp hx
      obtain ⟨_, hlast⟩ := hs.flies a hflying
      exact ⟨a, _, hlast.unsent hunsent, hk, hc, List.mem_append_right _ (List.mem_singleton_self _)⟩
  · exact drawn_snoc hs hdrawn fun b k hb => absurd hb (hunsent b)
  · rw [hwaiting]
    refine nodup_pending hs.keys fun x hx => ?_
    exact hs.key_flying a x.2 hflying (mem_pending.mp hx).2
  · rw [hwaiting]
    refine nodup_pending hs.contents fun x hx => ?_
    exact hs.content_flying a x.2 x.1 hflying (mem_pending.mp hx).2 (mem_pending.mp hx).1

theorem Sound.plain {a : ρ} (hs : Sound N es st) (hkey : N.key a = none) (hflying : st'.flying = some a)
    (hwaiting : st'.waiting = st.waiting) (hdrawn : st.drawn ⊆ st'.drawn) : Sound N (es ++ [.sent a]) st' := by
  have hnokey : ∀ {b : ρ} {k : κ}, Event.sent a = .sent b → ¬ N.key b = some k := by
    intro b k hb hk
    obtain rfl := Event.sent.inj hb
    rw [hkey] at hk
    cases hk
  have hself : ∀ {b : ρ} {k : κ}, st'.flying = some b → ¬ N.key b = some k := by
    intro b k hb
    cases hflying.symm.trans hb
    exact hnokey rfl
  refine ⟨hs.paired.snoc fun b k _ _ _ hb hk => (hnokey hb hk).elim, fun x hx => ?_, fun b hb => ?_, ?_, ?_,
    fun b k hb hk => (hself hb hk).elim, ?_, fun b k c hb hk => (hself hb hk).elim⟩
  · rw [hwaiting] at hx
    obtain ⟨b, _, hlast, hk, hc, htold⟩ := hs.waits x hx
    exact ⟨b, _, hlast.snoc fun _ _ hb _ => hnokey hb, hk, hc, List.mem_append_left _ htold⟩
  · cases hflying.symm.trans hb
    exact ⟨[], .now es a⟩
  · exact drawn_snoc hs hdrawn fun b k hb hk => (hnokey hb hk).elim
  · rw [hwaiting]
    exact hs.keys
  · rw [hwaiting]
    exact hs.contents

theorem Sound.again {a : ρ} {l r : List (φ × κ)} {c : φ} {k : κ} (hs : Sound N es st) (hkey : N.key a = some k)
    (hcontent : N.content a = some c) (hold : st.waiting = l ++ (c, k) :: r) (hflying : st'.flying = some a)
    (hwaiting : st'.waiting = l ++ r) (hdrawn : st.drawn ⊆ st'.drawn) : Sound N (es ++ [.sent a]) st' := by
  have hin : (c, k) ∈ st.waiting := by simp [hold]
  have hkeys : k ∉ (l ++ r).map (·.2) ∧ ((l ++ r).map (·.2)).Nodup := by
    have h := hs.keys
    rw [hold, List.map_append, List.map_cons, List.nodup_middle, List.nodup_cons, ← List.map_append] at h
    exact h
  have hcontents : c ∉ (l ++ r).map (·.1) ∧ ((l ++ r).map (·.1)).Nodup := by
    have h := hs.contents
    rw [hold, List.map_append, List.map_cons, List.nodup_middle, List.nodup_cons, ← List.map_append] at h
    exact h
  refine ⟨hs.paired.snoc fun b k' l₁ a' l₂ hb hk hes ha' => ?_, fun x hx => ?_, fun b hb => ?_, ?_, ?_,
    fun b k' hb hk => ?_, ?_, fun b k' c' hb _ hc => ?_⟩
  · obtain rfl := Event.sent.inj hb
    cases hkey.symm.trans hk
    obtain ⟨hc', htold⟩ := hs.repeats hin hes ha'
    exact ⟨hc'.trans hcontent.symm, htold⟩
  · rw [hwaiting] at hx
    have hx' : x ∈ st.waiting := by
      rw [hold]
      rcases List.mem_append.mp hx with hx | hx
      · exact List.mem_append_left _ hx
      · exact List.mem_append_right _ (List.mem_cons_of_mem _ hx)
    obtain ⟨b, since, hlast, hk, hc, htold⟩ := hs.waits x hx'
    refine ⟨b, _, hlast.snoc fun b' k' hb' hk' hc' => ?_, hk, hc, List.mem_append_left _ htold⟩
    -- the key that was taken is nobody else's
    obtain rfl := Event.sent.inj hb'
    cases hkey.symm.trans hc'
    obtain hkx := Option.some.inj (hk'.symm.trans hk)
    exact hkeys.1 (List.mem_map.mpr ⟨x, hx, hkx.symm⟩)
  · cases hflying.symm.trans hb
    exact ⟨[], .now es a⟩
  · refine drawn_snoc hs hdrawn fun b k' hb hk => ?_
    obtain rfl := Event.sent.inj hb
    cases hkey.symm.trans hk
    obtain ⟨b, _, ⟨_, hes, _⟩, hk', _⟩ := hs.waits _ hin
    exact hdrawn (hs.drawn b k (by rw [hes]; simp) hk')
  · rw [hwaiting]
    exact hkeys.2
  · cases hflying.symm.trans hb
    cases hkey.symm.trans hk
    rw [hwaiting]
    exact hkeys.1
  · rw [hwaiting]
    exact hcontents.2
  · cases hflying.symm.trans hb
    cases hcontent.symm.trans hc
    rw [hwaiting]
    exact hcontents.1

theorem Sound.anew {a : ρ} {c : φ} {k : κ} (hs : Sound N es st) (hkey : N.key a = some k) (hcontent : N.content a = some c)
    (hnot : ∀ e ∈ st.waiting, e.1 ≠ c) (hfresh : k ∉ st.drawn) (hflying : st'.flying = some a)
    (hwaiting : st'.waiting = st.waiting) (hdrawn : st.drawn ⊆ st'.drawn) (hnow : k ∈ st'.drawn) :
    Sound N (es ++ [.sent a]) st' := by
  -- a fresh key was in nobody's hands before
  have hunused : ∀ {b : ρ}, .sent b ∈ es → ¬ N.key b = some k := fun hb hk => hfresh (hs.drawn _ k hb hk)
  have hkeys : k ∉ st.waiting.map (·.2) := by
    intro hk
    obtain ⟨x, hx, rfl⟩ := List.mem_map.mp hk
    obtain ⟨b, since, ⟨l₁, hes, _⟩, hkb, _⟩ := hs.waits x hx
    exact hunused (by rw [hes]; simp) hkb
  refine ⟨hs.paired.snoc fun b k' l₁ a' l₂ hb hk hes ha' => ?_, fun x hx => ?_, fun b hb => ?_, ?_, ?_,
    fun b k' hb hk => ?_, ?_, fun b k' c' hb _ hc => ?_⟩
  · obtain rfl := Event.sent.inj hb
    cases hkey.symm.trans hk
    exact absurd ha' (hunused (by rw [hes]; simp))
  · rw [hwaiting] at hx
    obtain ⟨b, _, hlast, hk, hc, htold⟩ := hs.waits x hx
    refine ⟨b, _, hlast.snoc fun b' k' hb' hk' hc' => ?_, hk, hc, List.mem_append_left _ htold⟩
    obtain rfl := Event.sent.inj hb'
    cases hkey.symm.trans hc'
    obtain hkx := Option.some.inj (hk'.symm.trans hk)
    exact hkeys (List.mem_map.mpr ⟨x, hx, hkx.symm⟩)
  · cases hflying.symm.trans hb
    exact ⟨[], .now es a⟩
  · refine drawn_snoc hs hdrawn fun b k' hb hk => ?_
    obtain rfl := Event.sent.inj hb
    cases hkey.symm.trans hk
    exact hnow
  · rw [hwaiting]
    exact hs.keys
  · cases hflying.symm.trans hb
    cases hkey.symm.trans hk
    rw [hwaiting]
    exact hkeys
  · rw [hwaiting]
    exact hs.contents
  · cases hflying.symm.trans hb
    cases hcontent.symm.trans hc
    rw [hwaiting]
    intro hc'
    obtain ⟨x, hx, hxc⟩ := List.mem_map.mp hc'
    exact hnot x hx hxc

theorem Sound.step (hs : Sound N es st) (h : Step N st e st') : Sound N (es ++ [e]) st' := by
  cases h with
  | quiet hwaiting hflying hdrawn => exact hs.quiet hwaiting hflying hdrawn
  | told hflying hnone hwaiting hdrawn => exact hs.told hflying hnone hwaiting hdrawn
  | plain hkey _ hflying hwaiting hdrawn => exact hs.plain hkey hflying hwaiting hdrawn
  | again hkey hcontent hold _ hflying hwaiting hdrawn => exact hs.again hkey hcontent hold hflying hwaiting hdrawn
  | anew hkey hcontent hnot hfresh hflying hwaiting hdrawn hnow =>
    exact hs.anew hkey hcontent hnot hfresh hflying hwaiting hdrawn hnow

abbrev Runs (N : Naming ρ κ φ) (start : State ρ κ φ) (log : List (Commit (State ρ κ φ) (Event ρ) Unit))
    (st : State ρ κ φ) : Prop :=
  Execution (fun s e _ s' => Step N s e s') start log st

theorem Sound.empty {start : State ρ κ φ} (hflying : start.flying = none) (hwaiting : start.waiting = []) :
    Sound N [] start where
  paired l₁ a l₂ b l₃ k h := by simp at h
  waits x hx := by simp [hwaiting] at hx
  flies a ha := by simp [hflying] at ha
  drawn a k ha := (nomatch ha)
  keys := by simp [hwaiting]
  key_flying a k ha := by simp [hflying] at ha
  contents := by simp [hwaiting]
  content_flying a k c ha := by simp [hflying] at ha

theorem Runs.sound {start : State ρ κ φ} {log : List (Commit (State ρ κ φ) (Event ρ) Unit)} (h : Runs N start log st)
    (hflying : start.flying = none) (hwaiting : start.waiting = []) : Sound N (log.map (·.input)) st := by
  induction h with
  | nil => exact .empty hflying hwaiting
  | snoc _ hstep ih =>
    rw [List.map_append]
    exact ih.step hstep

/-- A key keeps waiting until its content is sent again. -/
theorem Runs.keeps_waiting {start : State ρ κ φ} {log : List (Commit (State ρ κ φ) (Event ρ) Unit)} {c : φ} {k : κ}
    (h : Runs N start log st) (hwaits : (c, k) ∈ start.waiting)
    (hnot : ∀ b, .sent b ∈ log.map (·.input) → N.content b ≠ some c) : (c, k) ∈ st.waiting := by
  induction h with
  | nil => exact hwaits
  | @snoc log s s' i u _ hstep ih =>
    rw [List.map_append] at hnot
    have hin := ih fun b hb => hnot b (List.mem_append_left _ hb)
    have hlast : ∀ b, i = .sent b → N.content b ≠ some c := fun b hb =>
      hnot b (List.mem_append_right _ (by simp [hb]))
    cases hstep with
    | quiet hwaiting => rwa [hwaiting]
    | told _ _ hwaiting =>
      rw [hwaiting]
      exact List.mem_append_left _ hin
    | plain _ _ _ hwaiting => rwa [hwaiting]
    | again hkey hcontent hold _ _ hwaiting =>
      rw [hwaiting]
      rw [hold] at hin
      rcases List.mem_append.mp hin with hin | hin
      · exact List.mem_append_left _ hin
      · rcases List.mem_cons.mp hin with heq | hin
        · cases heq
          exact absurd hcontent (hlast _ rfl)
        · exact List.mem_append_right _ hin
    | anew _ _ _ _ _ hwaiting => rwa [hwaiting]

theorem Step.takes {a : ρ} {c : φ} {k : κ} (h : Step N st (.sent a) st') (hcontents : (st.waiting.map (·.1)).Nodup)
    (hwaits : (c, k) ∈ st.waiting) (hcontent : N.content a = some c) : N.key a = some k := by
  cases h with
  | plain _ hnone =>
    rw [hnone] at hcontent
    cases hcontent
  | @again _ _ l r c' k' hkey hc hold hfirst =>
    cases hcontent.symm.trans hc
    have hin : (c, k') ∈ st.waiting := by
      rw [hold]
      simp
    have heq := List.inj_on_of_nodup_map hcontents hwaits hin rfl
    rw [hkey, (Prod.mk.inj heq).2]
  | anew _ hc hnot =>
    cases hcontent.symm.trans hc
    exact absurd rfl (hnot _ hwaits)

end TinyHermes.Lib.KeyCustody
