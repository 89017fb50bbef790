import TinyHermes.Runs.PlanShape

/-! What the rescue of a view leaves of each of its messages, by where it stops. -/
namespace TinyHermes.Runs.ContextBudget
variable {est : Estimator} {t : Trimming} {spent allowance : Int} {exemptPass : Bool}

def rescueTally (est : Estimator) (t : Trimming) (exemptPass : Bool) (m : CanonicalMessage) (tally : Tally) : Tally :=
  if m.role = .tool then tallyBlocks (rescueBlock est t exemptPass) m tally else tally

/-- The pass gets past these messages: the round is too big in front of each of them, and after them. -/
def getsPast (est : Estimator) (t : Trimming) (exemptPass : Bool) (spent allowance : Int) : List CanonicalMessage → Tally → Bool
  | [], tally => allowance < spent - tally.freed
  | m :: rest, tally =>
    decide (allowance < spent - tally.freed) && getsPast est t exemptPass spent allowance rest (rescueTally est t exemptPass m tally)

theorem rescuePass_at (messages : List CanonicalMessage) (tally : Tally) (j : Nat) :
    (rescuePass est t exemptPass spent allowance messages tally).1[j]? = messages[j]?.map fun m =>
      if getsPast est t exemptPass spent allowance (messages.take j) tally = true ∧ m.role = .tool then
        rewriteBlocks (rescueBlock est t exemptPass) m
      else m := by
  induction messages generalizing tally j with
  | nil => rfl
  | cons m rest ih =>
    rw [rescuePass]
    by_cases hfits : spent - tally.freed ≤ allowance
    · have hstops : getsPast est t exemptPass spent allowance ((m :: rest).take j) tally = false := by
        cases j with
        | zero => exact decide_eq_false (Int.not_lt.mpr hfits)
        | succ => rw [List.take_succ_cons, getsPast, decide_eq_false (Int.not_lt.mpr hfits), Bool.false_and]
      rw [if_pos hfits, hstops]
      simp
    · have hover : decide (allowance < spent - tally.freed) = true := decide_eq_true (Int.not_le.mp hfits)
      rw [if_neg hfits]
      by_cases hrole : m.role = .tool
      · rw [if_neg (not_not.mpr hrole)]
        cases j with
        | zero => simp [getsPast, hover, hrole]
        | succ j =>
          rw [List.take_succ_cons, getsPast, hover, Bool.true_and, rescueTally, if_pos hrole]
          exact ih _ j
      · rw [if_pos hrole]
        cases j with
        | zero => simp [hrole]
        | succ j =>
          rw [List.take_succ_cons, getsPast, hover, Bool.true_and, rescueTally, if_neg hrole]
          exact ih _ j

def stubbed (t : Trimming) (result : ToolResultBlock) : ToolResultBlock :=
  let shorter := stub 0 (t.fullLengths result.callId) result
  if shorter.output.length < result.output.length then shorter else result

def Block.mapResult (f : ToolResultBlock → ToolResultBlock) : Block → Block
  | .toolResult result => .toolResult (f result)
  | b => b

/-- The rescue gets to the `j`-th message of the view in its pass over the exempt results, or over the others. -/
def rescueReaches (est : Estimator) (t : Trimming) (spent allowance : Int) (view : List CanonicalMessage) (j : Nat)
    (exempt : Bool) : Bool :=
  let first := rescuePass est t false spent allowance view {}
  if exempt then getsPast est t true spent allowance (first.1.take j) first.2
  else getsPast est t false spent allowance (view.take j) {}

/-- What the rescue leaves of a result in the `j`-th message of the view. -/
def rescueLeaves (est : Estimator) (t : Trimming) (spent allowance : Int) (view : List CanonicalMessage) (j : Nat)
    (result : ToolResultBlock) : ToolResultBlock :=
  if rescueReaches est t spent allowance view j (t.exempt result.callId) then stubbed t result else result

theorem rewritten_result (exemptPass : Bool) (result : ToolResultBlock) :
    ((rescueBlock est t exemptPass (.toolResult result)).map (·.block)).getD (.toolResult result) =
      .toolResult (if t.exempt result.callId = exemptPass then stubbed t result else result) := by
  rw [rescueBlock]
  by_cases hkind : t.exempt result.callId = exemptPass
  · rw [if_pos hkind, if_pos hkind, replaceResult, stubbed]
    split_ifs <;> rfl
  · rw [if_neg hkind, if_neg hkind]
    rfl

theorem rewriteBlocks_rescue (exemptPass : Bool) (m : CanonicalMessage) :
    rewriteBlocks (rescueBlock est t exemptPass) m =
      m.mapBlocks (Block.mapResult fun result => if t.exempt result.callId = exemptPass then stubbed t result else result) := by
  apply mapBlocks_congr
  intro b _
  cases b with
  | toolResult result => exact rewritten_result exemptPass result
  | text | reasoning | image | file | toolCall => rfl

theorem stubbed_callId (result : ToolResultBlock) : (stubbed t result).callId = result.callId := by
  rw [stubbed]
  split_ifs <;> rfl

theorem mapBlocks_mapBlocks (f g : Block → Block) (m : CanonicalMessage) : (m.mapBlocks f).mapBlocks g = m.mapBlocks (g ∘ f) := by
  rw [CanonicalMessage.mapBlocks, CanonicalMessage.mapBlocks, CanonicalMessage.mk.injEq]
  exact ⟨rfl, List.map_map, rfl⟩

theorem mapBlocks_self {f : Block → Block} (h : ∀ b, f b = b) (m : CanonicalMessage) : m.mapBlocks f = m := by
  have hf : f = id := funext h
  rw [hf, CanonicalMessage.mapBlocks, CanonicalMessage.mk.injEq]
  exact ⟨rfl, List.map_id m.blocks, rfl⟩

theorem both_passes (exempted others : Bool) (m : CanonicalMessage) :
    (if exempted = true ∧ m.role = .tool then
        rewriteBlocks (rescueBlock est t true)
          (if others = true ∧ m.role = .tool then rewriteBlocks (rescueBlock est t false) m else m)
      else if others = true ∧ m.role = .tool then rewriteBlocks (rescueBlock est t false) m else m) =
      if m.role = .tool then
        m.mapBlocks (Block.mapResult fun result => if (if t.exempt result.callId then exempted else others) then stubbed t result else result)
      else m := by
  by_cases hrole : m.role = .tool
  · rw [if_pos hrole]
    cases exempted <;> cases others <;>
      simp only [hrole, and_true, if_true, if_false, Bool.false_eq_true, rewriteBlocks_rescue, mapBlocks_mapBlocks]
    · symm
      apply mapBlocks_self
      intro b
      cases b with
      | toolResult => simp [Block.mapResult]
      | text | reasoning | image | file | toolCall => rfl
    all_goals
      apply mapBlocks_congr
      intro b _
      cases b with
      | toolResult result => cases hkind : t.exempt result.callId <;> simp [Block.mapResult, hkind, stubbed_callId]
      | text | reasoning | image | file | toolCall => rfl
  · simp [hrole]

theorem rescue_at {view out : List CanonicalMessage} {left : Int} {record : TrimRecord}
    (h : rescue est t view spent allowance = some (out, left, record)) (j : Nat) :
    out[j]? = view[j]?.map fun m =>
      if m.role = .tool then m.mapBlocks (Block.mapResult (rescueLeaves est t spent allowance view j)) else m := by
  rw [rescue] at h
  dsimp only at h
  split_ifs at h
  cases h
  rw [rescuePass_at, rescuePass_at, Option.map_map]
  congr 1
  funext m
  have hrole : (if getsPast est t false spent allowance (view.take j) {} = true ∧ m.role = .tool then
      rewriteBlocks (rescueBlock est t false) m else m).role = m.role := by split_ifs <;> rfl
  rw [Function.comp_apply, hrole, both_passes]
  rfl

theorem rescue_length {view out : List CanonicalMessage} {left : Int} {record : TrimRecord}
    (h : rescue est t view spent allowance = some (out, left, record)) : out.length = view.length := by
  have hview : rescue est t ([] ++ view) spent allowance = some (out, left, record) := h
  obtain ⟨_, hout, hshape⟩ := rescue_view (fun _ hm => absurd hm List.not_mem_nil) hview
  rw [List.nil_append] at hout
  subst hout
  simpa using congrArg List.length hshape

end TinyHermes.Runs.ContextBudget
