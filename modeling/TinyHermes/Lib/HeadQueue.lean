import Mathlib

/-! Lanes served one item at a time: every lane names a head, everybody else in the lane is blocked
by it, and only a head that leaves hands the lane on. -/
namespace TinyHermes.Lib.HeadQueue
variable {κ ι : Type}

structure Item (κ ι : Type) where
  lane : κ
  seq : Nat
  live : Bool
  blocker : Option ι

structure Lane (ι : Type) where
  head : Option ι
  next : Nat

structure Board (κ ι : Type) where
  lane : κ → Option (Lane ι)
  item : ι → Option (Item κ ι)

/-- `i` is the item `it` of lane `k` and has not left. -/
def Board.Live (b : Board κ ι) (k : κ) (i : ι) (it : Item κ ι) : Prop :=
  b.item i = some it ∧ it.lane = k ∧ it.live = true

/-- `h` is the first of the live items of lane `k` that satisfy `p`. -/
def Board.First (b : Board κ ι) (k : κ) (p : ι → Prop) (h : ι) : Prop :=
  p h ∧ ∃ it, b.Live k h it ∧ ∀ j jt, p j → b.Live k j jt → it.seq ≤ jt.seq

/-- One lane in order: its head is the first live item and is blocked by nobody, and every other
live item is blocked by the head. -/
structure LaneOrdered (b : Board κ ι) (k : κ) (head : Option ι) : Prop where
  empty : head = none → ∀ i it, ¬ b.Live k i it
  first : ∀ h, head = some h → b.First k (fun _ => True) h
  free : ∀ h it, head = some h → b.Live k h it → it.blocker = none
  behind : ∀ h i it, head = some h → b.Live k i it → i ≠ h → it.blocker = some h

/-- What a board keeps to: sequence numbers are unique in a lane and below the next one, every lane is in order, and nobody who
left is blocked. -/
structure WellOrdered (b : Board κ ι) : Prop where
  laned : ∀ i it, b.item i = some it → ∃ l, b.lane it.lane = some l ∧ it.seq < l.next
  seq_inj : ∀ i j it jt, b.item i = some it → b.item j = some jt → it.lane = jt.lane → it.seq = jt.seq → i = j
  ordered : ∀ k l, b.lane k = some l → LaneOrdered b k l.head
  dead : ∀ i it, b.item i = some it → it.live = false → it.blocker = none

structure Opened (b b' : Board κ ι) (k : κ) : Prop where
  unused : b.lane k = none
  lane_self : b'.lane k = some { head := none, next := 1 }
  lane_other : ∀ k', k' ≠ k → b'.lane k' = b.lane k'
  item_same : ∀ j, b'.item j = b.item j

/-- Put a new item at the end of a lane: it takes the next number, is blocked by the head it finds
and becomes the head when it finds none. -/
structure Enqueued (b b' : Board κ ι) (k : κ) (i : ι) (l : Lane ι) : Prop where
  unused : b.item i = none
  lane_before : b.lane k = some l
  lane_self : b'.lane k = some { head := l.head.or (some i), next := l.next + 1 }
  lane_other : ∀ k', k' ≠ k → b'.lane k' = b.lane k'
  item_self : b'.item i = some { lane := k, seq := l.next, live := true, blocker := l.head }
  item_other : ∀ j, j ≠ i → b'.item j = b.item j

/-- Retire an item that was not the head of its lane. -/
structure Stepped (b b' : Board κ ι) (i : ι) (it : Item κ ι) (l : Lane ι) : Prop where
  item_before : b.item i = some it
  lane_before : b.lane it.lane = some l
  not_head : l.head ≠ some i
  lane_same : ∀ k, b'.lane k = b.lane k
  item_self : b'.item i = some { it with live := false, blocker := none }
  item_other : ∀ j, j ≠ i → b'.item j = b.item j

/-- What becomes of another item when the head `i` of lane `k` leaves to `succ`. -/
def repointed [DecidableEq κ] [DecidableEq ι] (k : κ) (i : ι) (succ : Option ι) (j : ι) (jt : Item κ ι) : Item κ ι :=
  if succ = some j then { jt with blocker := none }
  else if jt.lane = k ∧ jt.blocker = some i then { jt with blocker := succ }
  else jt

/-- Retire the head of a lane and hand the lane to the first live item behind it, if there is one. -/
structure Passed [DecidableEq κ] [DecidableEq ι] (b b' : Board κ ι) (i : ι) (it : Item κ ι) (l : Lane ι)
    (succ : Option ι) : Prop where
  item_before : b.item i = some it
  lane_before : b.lane it.lane = some l
  is_head : l.head = some i
  succ_some : ∀ h, succ = some h → b.First it.lane (· ≠ i) h
  succ_none : succ = none → ∀ j jt, j ≠ i → ¬ b.Live it.lane j jt
  lane_self : b'.lane it.lane = some { l with head := succ }
  lane_other : ∀ k, k ≠ it.lane → b'.lane k = b.lane k
  item_self : b'.item i = some { it with live := false, blocker := none }
  item_other : ∀ j, j ≠ i → b'.item j = (b.item j).map (repointed it.lane i succ j)

variable {b b' : Board κ ι} {k : κ}

theorem LaneOrdered.congr {head : Option ι} (h : LaneOrdered b k head)
    (hlive : ∀ i it, b'.Live k i it ↔ b.Live k i it) : LaneOrdered b' k head where
  empty hn i it hi := h.empty hn i it ((hlive i it).mp hi)
  first x hx := by
    obtain ⟨_, it, hit, hmin⟩ := h.first x hx
    exact ⟨trivial, it, (hlive x it).mpr hit, fun j jt hj hl => hmin j jt hj ((hlive j jt).mp hl)⟩
  free x it hx hi := h.free x it hx ((hlive x it).mp hi)
  behind x i it hx hi := h.behind x i it hx ((hlive i it).mp hi)

theorem WellOrdered.unique_first (W : WellOrdered b) {p : ι → Prop} {i j : ι}
    (hi : b.First k p i) (hj : b.First k p j) : i = j := by
  obtain ⟨hpi, it, hli, hmini⟩ := hi
  obtain ⟨hpj, jt, hlj, hminj⟩ := hj
  refine W.seq_inj i j it jt hli.1 hlj.1 (hli.2.1.trans hlj.2.1.symm) ?_
  exact le_antisymm (hmini j jt hpj hlj) (hminj i it hpi hli)

theorem Opened.wellOrdered (h : Opened b b' k) (W : WellOrdered b) : WellOrdered b' := by
  have hitem : b'.item = b.item := funext h.item_same
  have hlive : ∀ k' i it, b'.Live k' i it ↔ b.Live k' i it := by simp [Board.Live, hitem]
  have hused : ∀ i it, b.item i = some it → it.lane ≠ k := by
    intro i it hi hk
    obtain ⟨l, hl, _⟩ := W.laned i it hi
    rw [hk, h.unused] at hl
    cases hl
  refine ⟨?_, ?_, ?_, ?_⟩
  · intro i it hi
    rw [hitem] at hi
    rw [h.lane_other _ (hused i it hi)]
    exact W.laned i it hi
  · simpa only [hitem] using W.seq_inj
  · intro k' l hl
    by_cases hk : k' = k
    · subst hk
      cases h.lane_self.symm.trans hl
      have hnone : ∀ i it, ¬ b'.Live k' i it := fun i it hi =>
        hused i it ((hlive k' i it).mp hi).1 hi.2.1
      exact ⟨fun _ => hnone, by simp, by simp, by simp⟩
    · rw [h.lane_other k' hk] at hl
      exact (W.ordered k' l hl).congr (hlive k')
  · simpa only [hitem] using W.dead

theorem Enqueued.wellOrdered {i : ι} {l : Lane ι} (h : Enqueued b b' k i l) (W : WellOrdered b) :
    WellOrdered b' := by
  have hold : ∀ j jt, b.item j = some jt → j ≠ i := by
    rintro j jt hj rfl
    rw [h.unused] at hj
    cases hj
  -- an item of the new board is the new one or an old one
  have hcases : ∀ j jt, b'.item j = some jt →
      (j = i ∧ jt = { lane := k, seq := l.next, live := true, blocker := l.head }) ∨ (j ≠ i ∧ b.item j = some jt) := by
    intro j jt hj
    by_cases hji : j = i
    · subst hji
      exact .inl ⟨rfl, (Option.some.inj (h.item_self.symm.trans hj)).symm⟩
    · exact .inr ⟨hji, by rw [← h.item_other j hji]; exact hj⟩
  have hbelow : ∀ j jt, b.item j = some jt → jt.lane = k → jt.seq < l.next := by
    intro j jt hj hk
    obtain ⟨l', hl', hs⟩ := W.laned j jt hj
    rw [hk, h.lane_before] at hl'
    cases hl'
    exact hs
  refine ⟨?_, ?_, ?_, ?_⟩
  · intro j jt hj
    rcases hcases j jt hj with ⟨_, rfl⟩ | ⟨_, hb⟩
    · exact ⟨_, h.lane_self, Nat.lt_succ_self _⟩
    · by_cases hk : jt.lane = k
      · exact ⟨_, hk ▸ h.lane_self, (hbelow j jt hb hk).trans (Nat.lt_succ_self _)⟩
      · rw [h.lane_other _ hk]
        exact W.laned j jt hb
  · intro j j' jt jt' hj hj' hlane hseq
    rcases hcases j jt hj with ⟨rfl, rfl⟩ | ⟨hne, hb⟩ <;> rcases hcases j' jt' hj' with ⟨rfl, rfl⟩ | ⟨_, hb'⟩
    · rfl
    · exact absurd hseq (hbelow j' jt' hb' hlane.symm).ne'
    · exact absurd hseq (hbelow j jt hb hlane).ne
    · exact W.seq_inj j j' jt jt' hb hb' hlane hseq
  · intro k' l' hl'
    by_cases hk : k' = k
    · subst hk
      cases h.lane_self.symm.trans hl'
      have L := W.ordered k' l h.lane_before
      have hself : b'.Live k' i { lane := k', seq := l.next, live := true, blocker := l.head } :=
        ⟨h.item_self, rfl, rfl⟩
      have hkeep : ∀ {j jt}, b.Live k' j jt → b'.Live k' j jt := fun hj =>
        ⟨by rw [h.item_other _ (hold _ _ hj.1)]; exact hj.1, hj.2⟩
      cases hhead : l.head with
      | none =>
        have honly : ∀ j jt, b'.Live k' j jt → j = i ∧ jt.blocker = none ∧ l.next ≤ jt.seq := by
          intro j jt hj
          rcases hcases j jt hj.1 with ⟨rfl, rfl⟩ | ⟨_, hb⟩
          · exact ⟨rfl, hhead, le_rfl⟩
          · exact absurd ⟨hb, hj.2⟩ (L.empty hhead j jt)
        refine ⟨by simp, ?_, ?_, ?_⟩
        · intro x hx
          simp only [Option.none_or, Option.some.injEq] at hx
          subst hx
          exact ⟨trivial, _, hself, fun j jt _ hj => (honly j jt hj).2.2⟩
        · intro x it _ hx
          exact (honly x it hx).2.1
        · intro x j jt hx hj hne
          simp only [Option.none_or, Option.some.injEq] at hx
          exact absurd ((honly j jt hj).1.trans hx) hne
      | some x =>
        simp only [Option.some_or]
        obtain ⟨_, xt, hxt, hmin⟩ := L.first x hhead
        refine ⟨by simp, ?_, ?_, ?_⟩
        · rintro y hy
          cases hy
          refine ⟨trivial, xt, hkeep hxt, fun j jt _ hj => ?_⟩
          rcases hcases j jt hj.1 with ⟨_, rfl⟩ | ⟨_, hb⟩
          · exact (hbelow x xt hxt.1 hxt.2.1).le
          · exact hmin j jt trivial ⟨hb, hj.2⟩
        · rintro y yt hy hyt
          cases hy
          rcases hcases x yt hyt.1 with ⟨hxi, _⟩ | ⟨_, hb⟩
          · exact absurd hxi (hold x xt hxt.1)
          · exact L.free x yt hhead ⟨hb, hyt.2⟩
        · rintro _ j jt hy hj hne
          cases hy
          rcases hcases j jt hj.1 with ⟨_, rfl⟩ | ⟨_, hb⟩
          · exact hhead
          · exact L.behind x j jt hhead ⟨hb, hj.2⟩ hne
    · rw [h.lane_other k' hk] at hl'
      refine (W.ordered k' l' hl').congr fun j jt => ?_
      constructor
      · intro hj
        rcases hcases j jt hj.1 with ⟨_, rfl⟩ | ⟨_, hb⟩
        · exact absurd hj.2.1.symm hk
        · exact ⟨hb, hj.2⟩
      · intro hj
        exact ⟨by rw [h.item_other j (hold j jt hj.1)]; exact hj.1, hj.2⟩
  · intro j jt hj hdead
    rcases hcases j jt hj with ⟨_, rfl⟩ | ⟨_, hb⟩
    · cases hdead
    · exact W.dead j jt hb hdead

private theorem live_ne_retired {i j : ι} {it jt : Item κ ι} (hself : b'.item i = some { it with live := false, blocker := none })
    (hj : b'.Live k j jt) : j ≠ i := by
  rintro rfl
  rw [Board.Live, hself] at hj
  obtain ⟨hj, _, hlive⟩ := hj
  rw [← Option.some.inj hj] at hlive
  cases hlive

theorem Stepped.wellOrdered {i : ι} {it : Item κ ι} {l : Lane ι} (h : Stepped b b' i it l) (W : WellOrdered b) :
    WellOrdered b' := by
  have hcases : ∀ j jt, b'.item j = some jt →
      (j = i ∧ jt = { it with live := false, blocker := none }) ∨ (j ≠ i ∧ b.item j = some jt) := by
    intro j jt hj
    by_cases hji : j = i
    · subst hji
      exact .inl ⟨rfl, (Option.some.inj (h.item_self.symm.trans hj)).symm⟩
    · exact .inr ⟨hji, by rw [← h.item_other j hji]; exact hj⟩
  -- every item keeps its lane and its number
  have hback : ∀ j jt, b'.item j = some jt → ∃ ot, b.item j = some ot ∧ ot.lane = jt.lane ∧ ot.seq = jt.seq := by
    intro j jt hj
    rcases hcases j jt hj with ⟨rfl, rfl⟩ | ⟨_, hb⟩
    · exact ⟨it, h.item_before, rfl, rfl⟩
    · exact ⟨jt, hb, rfl, rfl⟩
  have hlive : ∀ k j jt, b'.Live k j jt ↔ b.Live k j jt ∧ j ≠ i := by
    intro k j jt
    constructor
    · intro hj
      have hji := live_ne_retired h.item_self hj
      exact ⟨⟨by rw [← h.item_other j hji]; exact hj.1, hj.2⟩, hji⟩
    · rintro ⟨hj, hji⟩
      exact ⟨by rw [h.item_other j hji]; exact hj.1, hj.2⟩
  refine ⟨?_, ?_, ?_, ?_⟩
  · intro j jt hj
    obtain ⟨ot, hot, hl, hs⟩ := hback j jt hj
    rw [h.lane_same, ← hl, ← hs]
    exact W.laned j ot hot
  · intro j j' jt jt' hj hj' hlane hseq
    obtain ⟨ot, hot, hl, hs⟩ := hback j jt hj
    obtain ⟨ot', hot', hl', hs'⟩ := hback j' jt' hj'
    exact W.seq_inj j j' ot ot' hot hot' (by rw [hl, hl', hlane]) (by rw [hs, hs', hseq])
  · intro k l' hl'
    rw [h.lane_same] at hl'
    have L := W.ordered k l' hl'
    -- the head of a lane is never the item that leaves
    have hhead : ∀ x, l'.head = some x → x ≠ i := by
      rintro x hx rfl
      obtain ⟨_, xt, hxt, _⟩ := L.first x hx
      cases h.item_before.symm.trans hxt.1
      cases h.lane_before.symm.trans (hxt.2.1 ▸ hl')
      exact h.not_head hx
    refine ⟨?_, ?_, ?_, ?_⟩
    · intro hn j jt hj
      exact L.empty hn j jt ((hlive k j jt).mp hj).1
    · intro x hx
      obtain ⟨_, xt, hxt, hmin⟩ := L.first x hx
      exact ⟨trivial, xt, (hlive k x xt).mpr ⟨hxt, hhead x hx⟩,
        fun j jt _ hj => hmin j jt trivial ((hlive k j jt).mp hj).1⟩
    · intro x xt hx hxt
      exact L.free x xt hx ((hlive k x xt).mp hxt).1
    · intro x j jt hx hj hne
      exact L.behind x j jt hx ((hlive k j jt).mp hj).1 hne
  · intro j jt hj hdead
    rcases hcases j jt hj with ⟨rfl, rfl⟩ | ⟨_, hb⟩
    · rfl
    · exact W.dead j jt hb hdead

section Passed
variable [DecidableEq κ] [DecidableEq ι]

private theorem repointed_same (k : κ) (i : ι) (succ : Option ι) (j : ι) (jt : Item κ ι) :
    (repointed k i succ j jt).lane = jt.lane ∧ (repointed k i succ j jt).seq = jt.seq ∧
      (repointed k i succ j jt).live = jt.live := by
  unfold repointed
  split
  · exact ⟨rfl, rfl, rfl⟩
  · split <;> exact ⟨rfl, rfl, rfl⟩

theorem Passed.wellOrdered {i : ι} {it : Item κ ι} {l : Lane ι} {succ : Option ι} (h : Passed b b' i it l succ)
    (W : WellOrdered b) : WellOrdered b' := by
  have hcases : ∀ j jt, b'.item j = some jt →
      (j = i ∧ jt = { it with live := false, blocker := none }) ∨
        (j ≠ i ∧ ∃ ot, b.item j = some ot ∧ jt = repointed it.lane i succ j ot) := by
    intro j jt hj
    by_cases hji : j = i
    · subst hji
      exact .inl ⟨rfl, (Option.some.inj (h.item_self.symm.trans hj)).symm⟩
    · rw [h.item_other j hji, Option.map_eq_some_iff] at hj
      obtain ⟨ot, hot, rfl⟩ := hj
      exact .inr ⟨hji, ot, hot, rfl⟩
  have hback : ∀ j jt, b'.item j = some jt → ∃ ot, b.item j = some ot ∧ ot.lane = jt.lane ∧ ot.seq = jt.seq := by
    intro j jt hj
    rcases hcases j jt hj with ⟨rfl, rfl⟩ | ⟨_, ot, hot, rfl⟩
    · exact ⟨it, h.item_before, rfl, rfl⟩
    · obtain ⟨hl, hs, _⟩ := repointed_same it.lane i succ j ot
      exact ⟨ot, hot, hl.symm, hs.symm⟩
  have hlive : ∀ k j jt, b'.Live k j jt → j ≠ i ∧ ∃ ot, b.Live k j ot ∧ jt = repointed it.lane i succ j ot := by
    intro k j jt hj
    have hji := live_ne_retired h.item_self hj
    obtain ⟨h1, _⟩ | ⟨_, ot, hot, rfl⟩ := hcases j jt hj.1
    · exact absurd h1 hji
    · obtain ⟨hl, _, hlv⟩ := repointed_same it.lane i succ j ot
      exact ⟨hji, ot, ⟨hot, hl.symm.trans hj.2.1, hlv.symm.trans hj.2.2⟩, rfl⟩
  have hlive' : ∀ k j ot, b.Live k j ot → j ≠ i → b'.Live k j (repointed it.lane i succ j ot) := by
    intro k j ot hj hji
    obtain ⟨hl, _, hlv⟩ := repointed_same it.lane i succ j ot
    exact ⟨by rw [h.item_other j hji, hj.1]; rfl, hl.trans hj.2.1, hlv.trans hj.2.2⟩
  have L := W.ordered it.lane l h.lane_before
  refine ⟨?_, ?_, ?_, ?_⟩
  · intro j jt hj
    obtain ⟨ot, hot, hl, hs⟩ := hback j jt hj
    obtain ⟨l', hl', hlt⟩ := W.laned j ot hot
    rw [← hl, ← hs]
    by_cases hk : ot.lane = it.lane
    · rw [hk, h.lane_before] at hl'
      cases hl'
      exact ⟨{ l with head := succ }, hk ▸ h.lane_self, hlt⟩
    · exact ⟨l', by rw [h.lane_other _ hk]; exact hl', hlt⟩
  · intro j j' jt jt' hj hj' hlane hseq
    obtain ⟨ot, hot, hl, hs⟩ := hback j jt hj
    obtain ⟨ot', hot', hl', hs'⟩ := hback j' jt' hj'
    exact W.seq_inj j j' ot ot' hot hot' (by rw [hl, hl', hlane]) (by rw [hs, hs', hseq])
  · intro k l' hl'
    by_cases hk : k = it.lane
    · subst hk
      cases h.lane_self.symm.trans hl'
      refine ⟨?_, ?_, ?_, ?_⟩
      · intro hn j jt hj
        obtain ⟨hji, ot, hot, _⟩ := hlive it.lane j jt hj
        exact h.succ_none hn j ot hji hot
      · intro x hx
        obtain ⟨hxi, xt, hxt, hmin⟩ := h.succ_some x hx
        refine ⟨trivial, _, hlive' it.lane x xt hxt hxi, fun j jt _ hj => ?_⟩
        obtain ⟨hji, ot, hot, rfl⟩ := hlive it.lane j jt hj
        rw [(repointed_same it.lane i succ x xt).2.1, (repointed_same it.lane i succ j ot).2.1]
        exact hmin j ot hji hot
      · intro x xt hx hxt
        obtain ⟨_, ot, _, rfl⟩ := hlive it.lane x xt hxt
        rw [repointed, if_pos hx]
      · intro _ j jt hx hj hne
        obtain ⟨hji, ot, hot, rfl⟩ := hlive it.lane j jt hj
        have hnot : succ ≠ some j := fun hs => hne (Option.some.inj (hs.symm.trans hx))
        rw [repointed, if_neg hnot, if_pos ⟨hot.2.1, L.behind i j ot h.is_head hot hji⟩]
        exact hx
    · have hk' := h.lane_other k hk
      rw [hk'] at hl'
      -- an item of another lane is neither the successor nor blocked by the head that left
      have hother : ∀ j ot, b.Live k j ot → j ≠ i ∧ repointed it.lane i succ j ot = ot := by
        intro j ot hj
        have hji : j ≠ i := by
          rintro rfl
          rw [Board.Live, h.item_before] at hj
          cases hj.1
          exact hk hj.2.1.symm
        have hsucc : succ ≠ some j := by
          intro hs
          obtain ⟨_, xt, hxt, _⟩ := h.succ_some j hs
          cases hj.1.symm.trans hxt.1
          exact hk (hj.2.1.symm.trans hxt.2.1)
        refine ⟨hji, ?_⟩
        rw [repointed, if_neg hsucc, if_neg fun hc => hk (hj.2.1.symm.trans hc.1)]
      refine (W.ordered k l' hl').congr fun j jt => ?_
      constructor
      · intro hj
        obtain ⟨_, ot, hot, rfl⟩ := hlive k j jt hj
        rw [(hother j ot hot).2]
        exact hot
      · intro hj
        obtain ⟨hji, heq⟩ := hother j jt hj
        have := hlive' k j jt hj hji
        rwa [heq] at this
  · intro j jt hj hdead
    rcases hcases j jt hj with ⟨rfl, rfl⟩ | ⟨_, ot, hot, rfl⟩
    · rfl
    · have hot_dead : ot.live = false := (repointed_same it.lane i succ j ot).2.2.symm.trans hdead
      have hfree := W.dead j ot hot hot_dead
      have hsucc : succ ≠ some j := by
        intro hs
        obtain ⟨_, _, hxt, _⟩ := h.succ_some j hs
        cases hot.symm.trans hxt.1
        rw [hxt.2.2] at hot_dead
        cases hot_dead
      rw [repointed, if_neg hsucc, if_neg fun hc => by rw [hfree] at hc; cases hc.2]
      exact hfree

end Passed
end TinyHermes.Lib.HeadQueue
