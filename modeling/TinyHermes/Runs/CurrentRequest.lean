import TinyHermes.Runs.PlanShape

/-! The current request goes out as it was written, once, in every plan that fits. -/
namespace TinyHermes.Runs.ContextBudget
variable {est : Estimator} {i : PlanInput}

def CanonicalMessage.asWritten (m : CanonicalMessage) : Option CanonicalMessage := if m.role = .user then some m else none

/-- The same messages, those of a user's role as they were and the others in their shape. -/
structure Kept (originals sent : List CanonicalMessage) : Prop where
  shape : sent.map (·.shape) = originals.map (·.shape)
  asWritten : sent.map (·.asWritten) = originals.map (·.asWritten)

theorem Kept.refl (messages : List CanonicalMessage) : Kept messages messages := ⟨rfl, rfl⟩

theorem Kept.trans {originals between sent : List CanonicalMessage} (h : Kept originals between) (h' : Kept between sent) :
    Kept originals sent :=
  ⟨h'.shape.trans h.shape, h'.asWritten.trans h.asWritten⟩

theorem Kept.drop {originals sent : List CanonicalMessage} (h : Kept originals sent) (n : Nat) :
    Kept (originals.drop n) (sent.drop n) where
  shape := by rw [List.map_drop, List.map_drop, h.shape]
  asWritten := by rw [List.map_drop, List.map_drop, h.asWritten]

theorem asWritten_of_ne {m : CanonicalMessage} (h : m.role ≠ .user) : m.asWritten = none := if_neg h

theorem rewriteBlocks_asWritten {f : Block → Option Replacement} {m : CanonicalMessage} (h : m.role ≠ .user) :
    (rewriteBlocks f m).asWritten = m.asWritten := by
  rw [asWritten_of_ne h]
  exact asWritten_of_ne h

section Passes

theorem capMessage_asWritten (t : Trimming) (m : CanonicalMessage) : (capMessage t m).asWritten = m.asWritten := by
  rw [capMessage]
  split_ifs with hrole
  · rfl
  · have hne : m.role ≠ .user := by
      rw [not_not.mp hrole]
      decide
    rw [asWritten_of_ne hne]
    exact asWritten_of_ne hne

theorem cleanPass_asWritten {role : Role} (hrole : role ≠ .user) (f : Block → Option Replacement) (stop : Nat)
    (messages : List CanonicalMessage) :
    (cleanPass role f stop messages).map (·.asWritten) = messages.map (·.asWritten) := by
  have hone : ∀ m : CanonicalMessage, (if m.role = role then rewriteBlocks f m else m).asWritten = m.asWritten := by
    intro m
    split_ifs with hsame
    · exact rewriteBlocks_asWritten (hsame ▸ hrole)
    · rfl
  have htaken : ((messages.take stop).map fun m => if m.role = role then rewriteBlocks f m else m).map (·.asWritten) =
      (messages.take stop).map (·.asWritten) := by
    rw [List.map_map]
    exact List.map_congr_left fun m _ => hone m
  rw [cleanPass, List.map_append, htaken, ← List.map_append, List.take_append_drop]

theorem clean_kept (t : Trimming) (stop : Nat) (messages : List CanonicalMessage) : Kept messages (clean est t stop messages).1 := by
  refine ⟨clean_shape t stop messages, ?_⟩
  have hassistant : Role.assistant ≠ .user := by decide
  have htool : Role.tool ≠ .user := by decide
  rw [clean, cleanPass_asWritten hassistant, cleanPass_asWritten htool, cleanPass_asWritten htool]

theorem rescuePass_asWritten (t : Trimming) (exemptPass : Bool) (spent allowance : Int) (messages : List CanonicalMessage)
    (tally : Tally) :
    (rescuePass est t exemptPass spent allowance messages tally).1.map (·.asWritten) = messages.map (·.asWritten) := by
  induction messages generalizing tally with
  | nil => rfl
  | cons m rest ih =>
    rw [rescuePass]
    split_ifs with hfits hrole
    · rfl
    · rw [List.map_cons, List.map_cons, ih]
    · have hne : m.role ≠ .user := by
        rw [not_not.mp hrole]
        decide
      rw [List.map_cons, List.map_cons, ih, rewriteBlocks_asWritten hne]

theorem rescuePass_kept (t : Trimming) (exemptPass : Bool) (spent allowance : Int) (messages : List CanonicalMessage) (tally : Tally) :
    Kept messages (rescuePass est t exemptPass spent allowance messages tally).1 :=
  ⟨rescuePass_shape t exemptPass spent allowance messages tally, rescuePass_asWritten t exemptPass spent allowance messages tally⟩

theorem rescue_kept {t : Trimming} {front messages rescued : List CanonicalMessage} {spent allowance left : Int} {record : TrimRecord}
    (hfront : ∀ m ∈ front, m.role ≠ .tool) (h : rescue est t (front ++ messages) spent allowance = some (rescued, left, record)) :
    ∃ sent, rescued = front ++ sent ∧ Kept messages sent := by
  rw [rescue] at h
  dsimp only at h
  split_ifs at h
  rw [rescuePass_append t false spent allowance hfront] at h
  rw [rescuePass_append t true spent allowance hfront] at h
  cases h
  exact ⟨_, rfl, (rescuePass_kept t false spent allowance messages {}).trans (rescuePass_kept t true spent allowance _ _)⟩

end Passes

namespace PlanInput

/-- The history from its `k`-th message on, behind what may stand before it, nothing of a user's changed. -/
def SentFrom (i : PlanInput) (k : Nat) (messages : List CanonicalMessage) : Prop :=
  ∃ front sent, messages = front ++ sent ∧ i.Opens k front ∧ Kept ((i.history.drop k).map (·.message)) sent

theorem post_kept : Kept ((i.history.drop i.start).map (·.message)) i.post := by
  rw [post, cappedHistory, ← List.map_drop]
  constructor
  · rw [List.map_map, List.map_map]
    exact List.map_congr_left fun item _ => capMessage_shape i.trimming item.message
  · rw [List.map_map, List.map_map]
    exact List.map_congr_left fun item _ => capMessage_asWritten i.trimming item.message

theorem cleanPost_kept : Kept i.post (i.cleanPost est) := by
  rw [cleanPost, cleaned]
  dsimp only
  split_ifs
  · exact clean_kept i.trimming (i.tailStart est) i.post
  · exact .refl _

theorem uncompacted_sent : i.SentFrom i.start (i.uncompacted est) :=
  ⟨_, _, rfl, opening_opens, post_kept.trans cleanPost_kept⟩

theorem compactView_sent (withHints : Bool) : i.SentFrom (i.start + i.tailStart est) (i.compactView est withHints) := by
  refine ⟨_, _, rfl, head_opens _ _ compacted_le, ?_⟩
  have hkept := (post_kept.trans (@cleanPost_kept est i)).drop (i.tailStart est)
  rw [← List.map_drop, List.drop_drop] at hkept
  exact hkept

theorem SentFrom.rescued {k : Nat} {t : Trimming} {view rescued : List CanonicalMessage} {spent allowance left : Int}
    {record : TrimRecord} (hview : i.SentFrom k view) (h : rescue est t view spent allowance = some (rescued, left, record)) :
    i.SentFrom k rescued := by
  obtain ⟨front, _, rfl, hopens, hkept⟩ := hview
  obtain ⟨sent, rfl, hsent⟩ := rescue_kept hopens.role h
  exact ⟨front, sent, rfl, hopens, hkept.trans hsent⟩

theorem compaction_sent : ∃ k ≤ i.history.length, i.SentFrom k (i.compaction est).view := by
  obtain ⟨hview, _⟩ | ⟨_, hview, _⟩ := @compaction_cases est i
  · rw [hview]
    exact ⟨i.start, start_le, uncompacted_sent⟩
  · rw [hview]
    exact ⟨i.start + i.tailStart est, compacted_le, compactView_sent _⟩

theorem Sends.sent {p : ContextPlan} (h : i.Sends est p) : ∃ k ≤ i.history.length, i.SentFrom k p.messages := by
  cases h with
  | untouched hmessages =>
    rw [hmessages]
    exact ⟨i.start, start_le, _, _, rfl, opening_opens, post_kept⟩
  | cleaned hmessages =>
    rw [hmessages]
    exact ⟨i.start, start_le, uncompacted_sent⟩
  | settled hsettles =>
    obtain ⟨k, hk, hsent⟩ := @compaction_sent est i
    cases hsettles with
    | asItIs hview =>
      rw [hview]
      exact ⟨k, hk, hsent⟩
    | rescued record hrescue => exact ⟨k, hk, hsent.rescued hrescue⟩
    | rescuedUncompacted record hrescue => exact ⟨i.start, start_le, uncompacted_sent.rescued hrescue⟩

def ComesFrom (i : PlanInput) : Option Nat → CanonicalMessage → Prop
  | none, m => IsSummary m
  | some place, m => ∃ item, i.history[place]? = some item ∧ m.shape = item.message.shape ∧
      (item.message.role = .user → m = item.message)

/-- The places a plan may send from: the end of the history, after at most a summary and one message from before. -/
def Layout (i : PlanInput) (request : Nat) (places : List (Option Nat)) : Prop :=
  ∃ k ≤ i.history.length, ∃ front, places = front ++ (List.range' k (i.history.length - k)).map some ∧
    (front = [] ∨ front = [none] ∨ front = [none, some request] ∧ request < k)

theorem request_eq {place : Nat} {item : StoredMessage} (hplace : i.history[place]? = some item) (huser : item.message.role = .user)
    (hlast : ∀ later item', place < later → i.history[later]? = some item' → item'.message.role ≠ .user) :
    i.request = some (place, item.message) := by
  have hmem : (item, place) ∈ i.history.zipIdx := List.mem_zipIdx_iff_getElem?.mpr hplace
  cases hfound : i.history.zipIdx.reverse.find? fun e => e.1.message.role = .user with
  | none =>
    have hnone := List.find?_eq_none.mp hfound (item, place) (List.mem_reverse.mpr hmem)
    exact absurd (decide_eq_true huser) hnone
  | some e =>
    obtain ⟨hrole, newer, older, hsplit, hnewer⟩ := List.find?_eq_some_iff_append.mp hfound
    have hzip : i.history.zipIdx = older.reverse ++ e :: newer.reverse := by
      rw [← List.reverse_reverse i.history.zipIdx, hsplit]
      simp
    have hat : ∀ (place : Nat) (item : StoredMessage), i.history[place]? = some item → (older.reverse ++ e :: newer.reverse)[place]? = some (item, place) := by
      intro place item h
      rw [← hzip, List.getElem?_zipIdx, h]
      simp
    have hfirst : (older.reverse ++ e :: newer.reverse)[older.length]? = some e := by simp
    have hindex : i.history[older.length]? = some e.1 ∧ e.2 = older.length := by
      rw [← hzip, List.getElem?_zipIdx] at hfirst
      obtain ⟨_, hitem', rfl⟩ := Option.map_eq_some_iff.mp hfirst
      exact ⟨hitem', Nat.zero_add _⟩
    have hle : older.length ≤ place := by
      by_contra hlt
      exact hlast older.length e.1 (not_le.mp hlt) hindex.1 (of_decide_eq_true hrole)
    rcases hle.lt_or_eq with hlt | heq
    · have hmore := hat place item hplace
      have hlength : older.reverse.length ≤ place := by
        rw [List.length_reverse]
        exact hlt.le
      rw [List.getElem?_append_right hlength, List.length_reverse] at hmore
      obtain ⟨n, hn⟩ : ∃ n, place - older.length = n + 1 := ⟨place - older.length - 1, by omega⟩
      rw [hn, List.getElem?_cons_succ] at hmore
      have hin := List.mem_reverse.mp (List.mem_of_getElem? hmore)
      have hfalse := hnewer _ hin
      rw [decide_eq_true huser] at hfalse
      cases hfalse
    · have hsame := hat place item hplace
      rw [← heq, hfirst] at hsame
      rw [request, hfound, Option.some.inj hsame]
      rw [← heq]
      rfl

/-- The messages of the history from the `k`-th on come from there. -/
theorem kept_comesFrom {k : Nat} {sent : List CanonicalMessage} (h : Kept ((i.history.drop k).map (·.message)) sent) :
    List.Forall₂ i.ComesFrom ((List.range' k (i.history.length - k)).map some) sent := by
  have hlength : sent.length = i.history.length - k := by
    have heq := congrArg List.length h.shape
    rw [List.length_map, List.length_map, List.length_map, List.length_drop] at heq
    exact heq
  rw [List.forall₂_iff_get]
  refine ⟨?_, ?_⟩
  · rw [List.length_map, List.length_range', hlength]
  · intro j _ hj'
    have hk : k + j < i.history.length := by omega
    have hitem : (i.history.drop k)[j]? = some i.history[k + j] := by
      rw [List.getElem?_drop, List.getElem?_eq_getElem hk]
    have hsent : sent[j]? = some sent[j] := List.getElem?_eq_getElem hj'
    have hshape := congrArg (·[j]?) h.shape
    have hwritten := congrArg (·[j]?) h.asWritten
    simp only [List.getElem?_map, hitem, hsent, Option.map_some, Option.some.injEq] at hshape hwritten
    rw [List.get_eq_getElem, List.getElem_map, List.getElem_range', Nat.one_mul]
    refine ⟨i.history[k + j], List.getElem?_eq_getElem hk, hshape, ?_⟩
    intro huser
    rw [CanonicalMessage.asWritten, CanonicalMessage.asWritten, if_pos huser] at hwritten
    split_ifs at hwritten
    exact Option.some.inj hwritten

/-- What stands before the messages from the `k`-th on: a summary at most, and the request where it is older. -/
theorem Opens.comesFrom {k : Nat} {front : List CanonicalMessage} {r : Placed} (h : i.Opens k front) (hr : i.request = some r)
    {item : StoredMessage} (hplace : i.history[r.1]? = some item) (hitem : item.message = r.2) :
    ∃ places, List.Forall₂ i.ComesFrom places front ∧
      (places.count (some r.1) = 0 ∧ k ≤ r.1 ∧ (places = [] ∨ places = [none]) ∨ places = [none, some r.1] ∧ r.1 < k) := by
  cases h with
  | nothing hk =>
    subst hk
    exact ⟨[], .nil, .inl ⟨rfl, Nat.zero_le _, .inl rfl⟩⟩
  | summary m hm hlater =>
    exact ⟨[none], .cons hm .nil, .inl ⟨rfl, hlater r hr, .inr rfl⟩⟩
  | summaryAndRequest m hm r' hr' hbefore =>
    rw [hr] at hr'
    cases hr'
    have hcomes : i.ComesFrom (some r.1) r.2 := ⟨item, hplace, by rw [hitem], fun _ => hitem.symm⟩
    exact ⟨[none, some r.1], .cons hm (.cons hcomes .nil), .inr ⟨rfl, hbefore⟩⟩

end PlanInput

theorem count_range' {k n place : Nat} : ((List.range' k n).map some).count (some place) = if k ≤ place ∧ place < k + n then 1 else 0 := by
  rw [List.count_map_of_injective _ _ (Option.some_injective _)]
  have hnodup : (List.range' k n).Nodup := List.nodup_range'
  by_cases h : k ≤ place ∧ place < k + n
  · rw [if_pos h]
    exact List.count_eq_one_of_mem hnodup (List.mem_range'_1.mpr h)
  · rw [if_neg h]
    apply List.count_eq_zero_of_not_mem
    rw [List.mem_range'_1]
    exact h

/-- A plan that fits sends the current request as it was written, and once. -/
theorem request_survives (est : Estimator) (i : PlanInput) {place : Nat} {item : StoredMessage} (hplace : i.history[place]? = some item)
    (huser : item.message.role = .user)
    (hlast : ∀ later item', place < later → i.history[later]? = some item' → item'.message.role ≠ .user)
    (hfits : (planContext est i).fits = true) :
    ∃ places, i.Layout place places ∧ List.Forall₂ i.ComesFrom places (planContext est i).messages ∧
      places.count (some place) = 1 ∧
      ∀ position : Nat, places[position]? = some (some place) → (planContext est i).messages[position]? = some item.message := by
  have hrequest := PlanInput.request_eq hplace huser hlast
  obtain ⟨k, hk, _, sent, hmessages, hopens, hkept⟩ := (planContext_sends hfits).sent
  obtain ⟨places, hfront, hplaces⟩ := hopens.comesFrom hrequest hplace rfl
  have hrest := PlanInput.kept_comesFrom hkept
  have hall : List.Forall₂ i.ComesFrom (places ++ (List.range' k (i.history.length - k)).map some) (planContext est i).messages := by
    rw [hmessages]
    exact List.rel_append hfront hrest
  have hlt : place < i.history.length := (List.getElem?_eq_some_iff.mp hplace).1
  refine ⟨places ++ (List.range' k (i.history.length - k)).map some, ⟨k, hk, places, rfl, ?_⟩, hall, ?_, ?_⟩
  · rcases hplaces with ⟨_, _, hnone | hsummary⟩ | ⟨heq, hbefore⟩
    · exact .inl hnone
    · exact .inr (.inl hsummary)
    · exact .inr (.inr ⟨heq, hbefore⟩)
  · rw [List.count_append, count_range']
    rcases hplaces with ⟨hnone, hlater, _⟩ | ⟨rfl, _⟩
    · have hin : k ≤ place ∧ place < k + (i.history.length - k) := ⟨hlater, by omega⟩
      rw [hnone, if_pos hin]
    · have hout : ¬ (k ≤ place ∧ place < k + (i.history.length - k)) := by omega
      rw [if_neg hout]
      simp
  · intro position hposition
    obtain ⟨m, hm, hcomes⟩ : ∃ m, (planContext est i).messages[position]? = some m ∧ i.ComesFrom (some place) m := by
      obtain ⟨hlength, hget⟩ := List.forall₂_iff_get.mp hall
      obtain ⟨hposition', heq⟩ := List.getElem?_eq_some_iff.mp hposition
      have hin := hlength ▸ hposition'
      refine ⟨_, List.getElem?_eq_getElem hin, ?_⟩
      have hpair := hget position hposition' hin
      rw [List.get_eq_getElem, heq] at hpair
      exact hpair
    obtain ⟨_, hitem', _, hsame⟩ := hcomes
    rw [hplace] at hitem'
    cases hitem'
    rw [hm, hsame huser]

theorem longTalk_request : ∃ places, longTalk.Layout 2 places ∧
    List.Forall₂ longTalk.ComesFrom places (planContext oneLong longTalk).messages ∧ places.count (some 2) = 1 ∧
    ∀ position : Nat, places[position]? = some (some 2) →
      (planContext oneLong longTalk).messages[position]? = some (spoken .user "what now") := by
  refine @request_survives oneLong longTalk 2 ⟨2, 3, spoken .user "what now"⟩ rfl rfl ?_ (by decide +kernel)
  intro later _ hlater hitem'
  have hnone : longTalk.history[later]? = none := List.getElem?_eq_none hlater
  rw [hnone] at hitem'
  cases hitem'

end TinyHermes.Runs.ContextBudget
