import TinyHermes.Agents.Specs
import TinyHermes.Egress.ForwardedHead
import TinyHermes.Outbound.EffectiveScope

/-! What a specification is read back as from the document that it is normalized to. -/
namespace TinyHermes.Agents.Specs
open Lib Lib.Codec Lib.Records
open Outbound (Reading ScopeEntry parseEntry)
open SessionWorkspace (NormalForm normalizeWorkspacePath)

section Reading
variable {α : Type}

theorem valueAt_optional {c : Codec α} {h : ∀ a, isNull (c.write a) = false} (a : Option α) :
    valueAt (optional c h) (some none) (if isNull ((optional c h).write a) then none else some ((optional c h).write a)) = some a := by
  cases a with
  | none => rfl
  | some a =>
    have hvalue : isNull ((optional c h).write (some a)) = false := h a
    rw [hvalue, if_neg Bool.false_ne_true]
    exact (optional c h).read_write (some a)

theorem valueAt_list {c : Codec α} (as : List α) :
    valueAt (list c) (some []) (if !((list c).write as).truthy then none else some ((list c).write as)) = some as := by
  cases as with
  | nil => rfl
  | cons a rest => exact (list c).read_write (a :: rest)

def conventional (s : AgentSpec) : AgentSpec := { s with sandbox := s.sandbox.filter (·.memoryMb.isSome) }

section Nested

theorem read_budget (b : ContextBudget) : contextBudget.readObject (.object (popped budgetRules (contextBudget.write b))) = some b := by
  have hthreshold : (contextBudget.write b).lookup "compaction_threshold" = some (optionalNumber.write b.compactionThreshold) := rfl
  have hcap : (contextBudget.write b).lookup "compaction_trigger_cap_tokens" = some (optionalNat.write b.compactionTriggerCapTokens) := rfl
  refine contextBudget.read_popped (by decide) ⟨⟨?_, ?_⟩, ?_⟩
  · exact (contextBudget.fits_write b).1.1
  · exact (congrArg _ (filter_ruled hthreshold rfl)).trans (valueAt_optional b.compactionThreshold)
  · exact (congrArg _ (filter_ruled hcap rfl)).trans (valueAt_optional b.compactionTriggerCapTokens)

theorem read_endpoint (e : EndpointModelPolicy) : endpoint.readObject (.object (popped policyRules (endpoint.write e))) = some e := by
  have hsummary : (endpoint.write e).lookup "summary_endpoint_id" = some (optionalUuid.write e.summaryEndpointId) := rfl
  have hfallbacks : (endpoint.write e).lookup "fallback_endpoint_ids" = some ((list uuid).write e.fallbackEndpointIds) := rfl
  have hwritten := endpoint.fits_write e
  refine endpoint.read_popped (by decide) ⟨⟨⟨⟨⟨?_, ?_⟩, ?_⟩, ?_⟩, ?_⟩, ?_⟩
  · exact hwritten.1.1.1.1.1
  · exact hwritten.1.1.1.1.2
  · exact hwritten.1.1.1.2
  · exact hwritten.1.1.2
  · exact (congrArg _ (filter_ruled hsummary rfl)).trans (valueAt_optional e.summaryEndpointId)
  · exact (congrArg _ (filter_ruled hfallbacks rfl)).trans (valueAt_list e.fallbackEndpointIds)

theorem read_policy (m : ModelPolicy) : modelPolicy.read (poppedWithin policyRules (modelPolicy.write m)) = some m := by
  cases m with
  | deterministic scenario => exact modelPolicy.read_write (.deterministic scenario)
  | endpoint policy =>
    have hprovider : providerOf (.object (popped policyRules (endpoint.write policy))) = some "openai_compatible" := rfl
    have hwritten : poppedWithin policyRules (modelPolicy.write (.endpoint policy)) = .object (popped policyRules (endpoint.write policy)) := rfl
    rw [hwritten, modelPolicy]
    dsimp only
    rw [hprovider, if_neg (by decide), if_pos rfl, read_endpoint, Option.map_some]

def left (key : String) (found : Option Json) : Option Json :=
  ((found.filter fun v => !(specRules.lookup key).any (· v)).map fun v =>
    if key = "context_budget" then poppedWithin budgetRules v else v).map fun v =>
      if key = "model_policy" then poppedWithin policyRules v else v

theorem left_ruled {key : String} {found : Option Json} {v : Json} {rule : Json → Bool} (hfound : found = some v)
    (hrule : specRules.lookup key = some rule) (hbudget : key ≠ "context_budget" := by decide)
    (hpolicy : key ≠ "model_policy" := by decide) :
    left key found = if rule v then none else some v := by
  rw [left, filter_ruled hfound hrule]
  simp only [if_neg hbudget, if_neg hpolicy, Option.map_id']

theorem valueAt_delivery (d : ChatCompletionsDelivery) :
    valueAt delivery.codec (some {}) (if isDefaultDelivery (delivery.codec.write d) then none else some (delivery.codec.write d)) = some d := by
  obtain ⟨enabled, timeout⟩ := d
  have hdefault : isDefaultDelivery (delivery.codec.write ⟨enabled, timeout⟩) = (!enabled && decide ((timeout : Int) = 60)) := rfl
  rw [hdefault]
  split_ifs with h
  · rw [Bool.and_eq_true, Bool.not_eq_true', decide_eq_true_eq] at h
    obtain ⟨rfl, _⟩ := h
    obtain rfl : timeout = 60 := by omega
    rfl
  · exact delivery.codec.read_write _

theorem valueAt_budget (b : Option ContextBudget) : valueAt (optional contextBudget.codec fun _ => rfl) (some none)
    (left "context_budget" (some ((optional contextBudget.codec fun _ => rfl).write b))) = some b := by
  cases b with
  | none => rfl
  | some b => exact congrArg (Option.map some) (read_budget b)

theorem valueAt_sandbox (b : Option AgentSandbox) : valueAt (optional sandbox.codec fun _ => rfl) (some none)
    (left "sandbox" (some ((optional sandbox.codec fun _ => rfl).write b))) = some (b.filter (·.memoryMb.isSome)) := by
  rcases b with _ | ⟨_ | memory⟩
  · rfl
  · rfl
  · exact (optional sandbox.codec fun _ => rfl).read_write (some ⟨some memory⟩)

theorem lookup_normalized (s : AgentSpec) (key : String) : (normalized s).lookup key = left key ((spec.write s).lookup key) := by
  rw [normalized, lookup_poppedAt, lookup_poppedAt, lookup_popped (spec.write_keys s ▸ by decide), left]

theorem read_normalized (s : AgentSpec) : spec.readObject (.object (normalized s)) = some (conventional s) := by
  have hkeys : ∀ field ∈ normalized s, field.1 ∈ spec.keys := by
    intro _ hfield
    obtain ⟨_, hinner, rfl⟩ := List.mem_map.mp hfield
    obtain ⟨first, hfirst, rfl⟩ := List.mem_map.mp hinner
    exact spec.mem_keys first (List.mem_of_mem_filter hfirst)
  refine spec.readObject_fits hkeys (spec.fits_congr _ (fun key => left key ((spec.write s).lookup key)) _ (fun key _ =>
    (lookup_normalized s key).symm) ?_)
  have hwritten := spec.fits_write s
  refine ⟨⟨⟨⟨⟨?_, ?_⟩, ?_⟩, ?_⟩, ⟨⟨?_, ?_⟩, ?_⟩, ?_⟩, ⟨⟨⟨?_, ?_⟩, ?_⟩, ?_⟩, ⟨⟨?_, ?_⟩, ?_⟩, ?_⟩
  · exact hwritten.1.1.1.1.1
  · exact hwritten.1.1.1.1.2
  · exact read_policy s.modelPolicy
  · exact hwritten.1.1.2
  · exact hwritten.1.2.1.1.1
  · exact (congrArg _ (left_ruled rfl rfl)).trans (valueAt_delivery s.delivery)
  · exact (congrArg _ (left_ruled rfl rfl)).trans (valueAt_optional s.completion)
  · exact valueAt_budget s.contextBudget
  · exact (congrArg _ (left_ruled rfl rfl)).trans (valueAt_list s.skills)
  · exact (congrArg _ (left_ruled rfl rfl)).trans (valueAt_optional s.network)
  · exact (congrArg _ (left_ruled rfl rfl)).trans (valueAt_list s.httpTools)
  · exact (congrArg _ (left_ruled rfl rfl)).trans (valueAt_list s.mcpTools)
  · exact (congrArg _ (left_ruled rfl rfl)).trans (valueAt_optional s.delegation)
  · exact (congrArg _ (left_ruled rfl rfl)).trans (valueAt_optional s.endUserAccess)
  · exact (congrArg _ (left_ruled rfl rfl)).trans (valueAt_optional s.skillReview)
  · exact valueAt_sandbox s.sandbox

end Nested

end Reading

section Documents

theorem normalized_conventional (s : AgentSpec) : normalized (conventional s) = normalized s := by
  obtain ⟨_, _, _, _, _, _, _, _, _, _, _, _, _, _, sandbox⟩ := s
  rcases sandbox with _ | ⟨_ | _⟩
  · rfl
  · rfl
  · rfl

theorem normalized_eq_iff (s t : AgentSpec) : normalized s = normalized t ↔ conventional s = conventional t := by
  constructor
  · intro h
    have hread := read_normalized s
    rw [h, read_normalized] at hread
    exact (Option.some.inj hread).symm
  · intro h
    rw [← normalized_conventional s, h, normalized_conventional]

end Documents

section Checks
variable {p : Reading} {nfc : String → String} {place : String}

theorem requireAll_ok {checks : List (String × Bool)} : requireAll checks = .ok () ↔ ∀ check ∈ checks, check.2 = true := by
  rw [requireAll]
  split
  · rename_i hnone
    exact iff_of_true rfl fun check hcheck => by simpa using List.find?_eq_none.mp hnone check hcheck
  · rename_i check hsome
    refine iff_of_false (fun h => by cases h) fun h => ?_
    have hfails := List.find?_some hsome
    rw [h check (List.mem_of_find?_eq_some hsome)] at hfails
    cases hfails

variable {clean : String → Option String}

theorem collected_from {values seen cleaned : List String} (hseen : seen.Nodup) :
    values.foldlM (collect place clean) seen = .ok cleaned ↔
      ∃ later, cleaned = seen ++ later ∧ List.Forall₂ (fun value cleaned => clean value = some cleaned) values later ∧
        (seen ++ later).Nodup := by
  induction values generalizing seen with
  | nil =>
    constructor
    · intro h
      exact ⟨[], by rw [List.append_nil, Except.ok.inj h], .nil, by rwa [List.append_nil]⟩
    · rintro ⟨later, rfl, hlater, _⟩
      cases hlater
      rw [List.append_nil]
      rfl
  | cons value rest ih =>
    rw [Fallible.foldlM_cons_ok]
    constructor
    · rintro ⟨_, hnext, h⟩
      rw [collect] at hnext
      split at hnext
      · cases hnext
      · rename_i first hfirst
        split_ifs at hnext with hmem
        cases hnext
        have hsnoc : (seen ++ [first]).Nodup := List.nodup_append.mpr ⟨hseen, List.nodup_singleton _, by
          intro _ ha _ hb hab
          exact hmem (List.mem_singleton.mp hb ▸ hab ▸ ha)⟩
        obtain ⟨later, rfl, hlater, hnodup⟩ := (ih hsnoc).mp h
        refine ⟨first :: later, List.append_assoc _ _ _, .cons hfirst hlater, ?_⟩
        rwa [List.append_assoc] at hnodup
    · rintro ⟨later, rfl, hlater, hnodup⟩
      cases hlater with
      | @cons _ first _ later hfirst hlater =>
        have hsplit : seen ++ first :: later = seen ++ [first] ++ later := (List.append_assoc seen [first] later).symm
        rw [hsplit] at hnodup
        have hsnoc := (List.nodup_append.mp hnodup).1
        have hmem : first ∉ seen := fun hmem => (List.nodup_append.mp hsnoc).2.2 first hmem first (List.mem_singleton_self _) rfl
        refine ⟨seen ++ [first], ?_, (ih hsnoc).mpr ⟨later, hsplit, hlater, hnodup⟩⟩
        rw [collect, hfirst]
        exact if_neg hmem

theorem collected_ok {values cleaned : List String} : collected place clean values = .ok cleaned ↔
    List.Forall₂ (fun value cleaned => clean value = some cleaned) values cleaned ∧ cleaned.Nodup := by
  rw [collected, collected_from List.nodup_nil]
  constructor
  · rintro ⟨_, rfl, hlater, hnodup⟩
    exact ⟨hlater, hnodup⟩
  · rintro ⟨hlater, hnodup⟩
    exact ⟨cleaned, rfl, hlater, hnodup⟩

theorem collected_self {values : List String} (hnodup : values.Nodup) :
    collected place clean values = .ok values ↔ ∀ value ∈ values, clean value = some value := by
  rw [collected_ok, and_iff_left hnodup, List.forall₂_same]

theorem all_of_cleaned {P : String → Prop} {values cleaned : List String}
    (h : List.Forall₂ (fun value cleaned => clean value = some cleaned) values cleaned)
    (hclean : ∀ value cleaned, clean value = some cleaned → P cleaned) : ∀ value ∈ cleaned, P value := by
  induction h with
  | nil => exact List.forall_mem_nil _
  | cons hfirst _ ih => exact List.forall_mem_cons.mpr ⟨hclean _ _ hfirst, ih⟩

theorem toOption_eq_some {ε : Type} {x : Except ε String} {value : String} : x.toOption = some value ↔ x = .ok value := by
  cases x <;> simp [Except.toOption]

theorem length_strip_le (value : String) : (Text.strip value).length ≤ value.length := by
  rw [Text.strip, String.length_ofList]
  exact (Outbound.stripChars_sublist value.toList).length_le

theorem stripped_ok {most : Nat} {value kept : String} (h : stripped place most value = .ok kept) : stripped place most kept = .ok kept := by
  rw [stripped] at h
  split_ifs at h with hrefused
  rw [Bool.or_eq_true, not_or, decide_eq_true_eq, Bool.not_eq_true] at hrefused
  obtain rfl := Except.ok.inj h
  have hchars : (Text.strip value).toList = Text.stripChars value.toList := String.toList_ofList
  have hblank : Text.isBlank (Text.strip value) = false := by
    rw [Text.isBlank, hchars, Egress.stripChars_idempotent]
    exact hrefused.2
  have hagain : Text.strip (Text.strip value) = Text.strip value := by
    rw [Text.strip, hchars, Egress.stripChars_idempotent, Text.strip]
  have hlength := length_strip_le value
  rw [stripped, hblank, hagain, decide_eq_false (by omega)]
  rfl

theorem mapM_stripped {most : Nat} {value kept : Option String} (h : value.mapM (stripped place most) = .ok kept) :
    kept.mapM (stripped place most) = .ok kept := by
  cases value with
  | none =>
    cases h
    rfl
  | some =>
    rw [Option.mapM_some] at h
    obtain ⟨_, htext, h⟩ := Fallible.bind_ok.mp h
    cases h
    rw [Option.mapM_some, stripped_ok htext]
    rfl

theorem mapM_isSome {α ε : Type} {check : α → Except ε α} {value kept : Option α} (h : value.mapM check = .ok kept) :
    value.isSome = kept.isSome := by
  cases value with
  | none =>
    cases h
    rfl
  | some =>
    rw [Option.mapM_some] at h
    obtain ⟨_, _, h⟩ := Fallible.bind_ok.mp h
    cases h
    rfl

theorem checkedCompletion_ok (hnfc : NormalForm nfc) {c kept : CompletionCondition} (h : checkedCompletion nfc c = .ok kept) :
    checkedCompletion nfc kept = .ok kept := by
  rw [checkedCompletion] at h
  obtain ⟨artifacts, hartifacts, h⟩ := Fallible.bind_ok.mp h
  obtain ⟨command, hcommand, h⟩ := Fallible.bind_ok.mp h
  obtain ⟨_, hchecks, h⟩ := Fallible.bind_ok.mp h
  cases h
  obtain ⟨hclean, hnodup⟩ := collected_ok.mp hartifacts
  have hsettled : ∀ path ∈ artifacts, (normalizeWorkspacePath nfc path).toOption = some path :=
    all_of_cleaned hclean fun raw path hraw => by
      rw [toOption_eq_some] at hraw ⊢
      exact hnfc.settled hraw
  have hagain : collected "expected_artifacts" (fun path => (normalizeWorkspacePath nfc path).toOption) artifacts = .ok artifacts :=
    (collected_self hnodup).mpr hsettled
  have hmeans : requireAll (completionChecks ⟨artifacts, command, c.constraints, c.stopConditions⟩) = .ok () := by
    rw [requireAll_ok] at hchecks ⊢
    simp only [completionChecks, List.forall_mem_cons] at hchecks ⊢
    refine ⟨hchecks.1, hchecks.2.1, ?_, hchecks.2.2.2⟩
    have hsome := hchecks.2.2.1
    rw [Bool.or_eq_true, Bool.not_eq_true'] at hsome ⊢
    refine hsome.imp (fun hnonempty => ?_) fun hcommanded => ?_
    · rw [List.isEmpty_eq_false_iff, ← List.length_pos_iff] at hnonempty ⊢
      rwa [← hclean.length_eq]
    · exact mapM_isSome hcommand ▸ hcommanded
  rw [checkedCompletion]
  dsimp only
  rw [hagain, mapM_stripped hcommand]
  exact Fallible.bind_ok.mpr ⟨artifacts, rfl, Fallible.bind_ok.mpr ⟨command, rfl, Fallible.bind_ok.mpr ⟨(), hmeans, rfl⟩⟩⟩

def Unbroken (s : AgentSpec) : Prop := ∀ n ∈ s.network, ∀ entry ∈ n.allow, entry.toList.getLast? ≠ some '\n'

/-- What `ip_network` and `str` make of each other: a network's text reads as it, is in lower case without blanks around, and has
a slash before its length. -/
structure NetworkText (p : Reading) : Prop where
  reads : ∀ text n, p.ipNetwork text = some n → p.ipNetwork (p.str n) = some n
  masked : ∀ text n, p.ipNetwork text = some n → '/' ∈ p.str n ∧ (p.str n).head? ≠ some '*'
  stripped : ∀ text n, p.ipNetwork text = some n → Text.stripChars (p.str n) = p.str n
  lowered : ∀ text n, p.ipNetwork text = some n → p.lower (p.str n) = p.str n

theorem cleanEntry_eq_some {value entry : String} :
    cleanEntry p value = some entry ↔ ∃ e, parseEntry p value.toList = .ok e ∧ e.text = entry.toList := by
  rw [cleanEntry]
  cases hparsed : parseEntry p value.toList with
  | error =>
    refine iff_of_false (fun h => by cases h) ?_
    rintro ⟨_, h, _⟩
    cases h
  | ok e =>
    constructor
    · intro h
      cases h
      exact ⟨e, rfl, String.toList_ofList.symm⟩
    · rintro ⟨_, h, htext⟩
      cases h
      exact congrArg some (String.toList_injective (String.toList_ofList.trans htext))

/-- A network is read from a text with a slash, and stored as `str` spells it. -/
theorem parseEntry_network {text : List Char} {e : ScopeEntry} (h : parseEntry p text = .ok e) (hnetwork : e.network.isSome = true) :
    ∃ cleaned n, p.ipNetwork cleaned = some n ∧ e = { text := p.str n, network := some n } := by
  rw [parseEntry] at h
  split at h
  · cases h
  split at h
  · split at h
    · cases h
    next n hn =>
      cases h
      exact ⟨_, n, hn, rfl⟩
  split at h
  · cases h
  split at h
  · cases h
  rw [(Outbound.parseHost_ok h).1] at hnetwork
  cases hnetwork

theorem network_valid (hnetworks : NetworkText p) {text : List Char} {n : Outbound.Network} (h : p.ipNetwork text = some n) :
    parseEntry p (p.str n) = .ok { text := p.str n, network := some n } := by
  obtain ⟨hslash, hstar⟩ := hnetworks.masked text n h
  rw [parseEntry, hnetworks.stripped text n h, hnetworks.lowered text n h, List.isEmpty_eq_false_iff.mpr (List.ne_nil_of_mem hslash),
    bne_iff_ne.mpr hstar, List.contains_iff_mem.mpr hslash, hnetworks.reads text n h]
  rfl

theorem last_of_stripped {text : List Char} (h : Text.stripChars text = text) : text.getLast? ≠ some '\n' := by
  intro hlast
  have hend : text.rdropWhile Text.isSpace = text := by
    rw [← h, Outbound.stripChars_eq, List.rdropWhile_idempotent]
  have hspace := List.rdropWhile_eq_self_iff.mp hend (List.ne_nil_of_mem (List.mem_of_getLast? hlast))
  rw [List.getLast_eq_iff_getLast?_eq_some _ |>.mpr hlast] at hspace
  exact hspace (by decide)

theorem cleanEntry_iff (hnetworks : NetworkText p) {value entry : String} (h : cleanEntry p value = some entry) :
    cleanEntry p entry = some entry ↔ entry.toList.getLast? ≠ some '\n' := by
  obtain ⟨e, hparsed, htext⟩ := cleanEntry_eq_some.mp h
  rw [cleanEntry_eq_some]
  cases hnetwork : e.network with
  | some n =>
    obtain ⟨cleaned, n, hn, rfl⟩ := parseEntry_network hparsed (by rw [hnetwork]; rfl)
    rw [← htext]
    exact iff_of_true ⟨_, network_valid hnetworks hn, rfl⟩ (last_of_stripped (hnetworks.stripped cleaned n hn))
  | none =>
    rw [← htext]
    constructor
    · rintro ⟨again, hagain, hsame⟩
      have hhost : again.network = none := by
        by_contra hsome
        obtain ⟨cleaned, n, hn, rfl⟩ := parseEntry_network hagain (Option.isSome_iff_ne_none.mpr hsome)
        have hslash := (hnetworks.masked cleaned n hn).1
        obtain hother | hhost := Outbound.parseEntry_ok hparsed
        · rw [hnetwork] at hother
          cases hother
        · rw [(show p.str n = e.text from hsame), (Outbound.parseHost_ok hhost).2.1] at hslash
          have hkind := Outbound.parseHost_chars hhost '/' hslash
          simp [Outbound.HostChar, Outbound.isLabelChar] at hkind
      rw [← hsame] at hagain ⊢
      have hvalid : again.Valid p := hagain
      exact last_of_stripped (hvalid.hostText hhost).stripped
    · intro hlast
      exact ⟨e, Outbound.parseEntry_valid hparsed hnetwork hlast, rfl⟩

theorem checkedNetwork_iff (hnetworks : NetworkText p) {n kept : AgentNetwork} (h : checkedNetwork p n = .ok kept) :
    checkedNetwork p kept = .ok kept ↔ ∀ entry ∈ kept.allow, entry.toList.getLast? ≠ some '\n' := by
  rw [checkedNetwork] at h
  obtain ⟨_, _, h⟩ := Fallible.bind_ok.mp h
  obtain ⟨allow, hallow, h⟩ := Fallible.bind_ok.mp h
  cases h
  obtain ⟨hclean, hnodup⟩ := collected_ok.mp hallow
  have hsize' : requireAll [("allow", decide (allow.length ≤ maxNetworkEntries))] = .ok () := by
    rwa [← hclean.length_eq]
  have hself : collected "allow" (cleanEntry p) allow = .ok allow ↔ ∀ entry ∈ allow, entry.toList.getLast? ≠ some '\n' := by
    rw [collected_self hnodup]
    exact forall₂_congr fun entry hentry => all_of_cleaned (P := fun entry => cleanEntry p entry = some entry ↔
      entry.toList.getLast? ≠ some '\n') hclean (fun _ _ => cleanEntry_iff hnetworks) entry hentry
  rw [← hself, checkedNetwork]
  dsimp only
  rw [hsize']
  constructor
  · intro h
    obtain ⟨_, _, h⟩ := Fallible.bind_ok.mp h
    obtain ⟨_, hagain, h⟩ := Fallible.bind_ok.mp h
    cases h
    exact hagain
  · intro h
    exact Fallible.bind_ok.mpr ⟨(), rfl, Fallible.bind_ok.mpr ⟨allow, h, rfl⟩⟩

end Checks

section Preserving
variable {p : Reading} {nfc : String → String}

def Valid (p : Reading) (nfc : String → String) (s : AgentSpec) : Prop := ∃ raw, validated p nfc raw = .ok s

theorem validated_ok_iff {raw s : AgentSpec} : validated p nfc raw = .ok s ↔
    stripped "personality" 8192 raw.personality = .ok s.personality ∧ raw.completion.mapM (checkedCompletion nfc) = .ok s.completion ∧
      raw.network.mapM (checkedNetwork p) = .ok s.network ∧ (∀ check ∈ fieldChecks raw, check.2 = true) ∧
        (∀ check ∈ meansChecks { raw with completion := s.completion }, check.2 = true) ∧
          s = { raw with personality := s.personality, completion := s.completion, network := s.network } := by
  rw [validated]
  constructor
  · intro h
    obtain ⟨_, hpersonality, h⟩ := Fallible.bind_ok.mp h
    obtain ⟨_, hcompletion, h⟩ := Fallible.bind_ok.mp h
    obtain ⟨_, hnetwork, h⟩ := Fallible.bind_ok.mp h
    obtain ⟨_, hfields, h⟩ := Fallible.bind_ok.mp h
    obtain ⟨_, hmeans, h⟩ := Fallible.bind_ok.mp h
    cases h
    exact ⟨hpersonality, hcompletion, hnetwork, requireAll_ok.mp hfields, requireAll_ok.mp hmeans, rfl⟩
  · rintro ⟨hpersonality, hcompletion, hnetwork, hfields, hmeans, hs⟩
    rw [hpersonality, hcompletion, hnetwork]
    refine Fallible.bind_ok.mpr ⟨_, rfl, Fallible.bind_ok.mpr ⟨_, rfl, Fallible.bind_ok.mpr ⟨_, rfl, Fallible.bind_ok.mpr ⟨(), ?_,
      Fallible.bind_ok.mpr ⟨(), ?_, ?_⟩⟩⟩⟩⟩
    · exact requireAll_ok.mpr hfields
    · exact requireAll_ok.mpr hmeans
    · exact congrArg Except.ok hs.symm

/-- The document is read back as the specification, and what is read back is normalized to it again. -/
def Preserved (p : Reading) (nfc : String → String) (s : AgentSpec) : Prop :=
  modelValidate p nfc (normalized s) = .ok (conventional s) ∧
    ∀ t, modelValidate p nfc (normalized s) = .ok t → normalized t = normalized s

theorem modelValidate_normalized (s : AgentSpec) : modelValidate p nfc (normalized s) = validated p nfc (conventional s) := by
  rw [modelValidate, read_normalized]

theorem fieldChecks_conventional (s : AgentSpec) : fieldChecks (conventional s) = fieldChecks s := by
  obtain ⟨_, _, _, _, _, _, _, _, _, _, _, _, _, _, sandbox⟩ := s
  rcases sandbox with _ | ⟨_ | _⟩
  · rfl
  · rfl
  · rfl

theorem mapM_network_iff (hnetworks : NetworkText p) {n kept : Option AgentNetwork} (h : n.mapM (checkedNetwork p) = .ok kept) :
    kept.mapM (checkedNetwork p) = .ok kept ↔ ∀ n ∈ kept, ∀ entry ∈ n.allow, entry.toList.getLast? ≠ some '\n' := by
  cases n with
  | none =>
    cases h
    exact iff_of_true rfl fun n hn => by cases hn
  | some =>
    rw [Option.mapM_some] at h
    obtain ⟨network, hnetwork, h⟩ := Fallible.bind_ok.mp h
    cases h
    have hiff := checkedNetwork_iff hnetworks hnetwork
    rw [Option.mapM_some]
    constructor
    · intro h
      obtain ⟨_, hagain, h⟩ := Fallible.bind_ok.mp h
      cases h
      rintro _ ⟨⟩
      exact hiff.mp hagain
    · intro h
      exact Fallible.bind_ok.mpr ⟨network, hiff.mpr (h network rfl), rfl⟩

theorem mapM_completion (hnfc : NormalForm nfc) {c kept : Option CompletionCondition} (h : c.mapM (checkedCompletion nfc) = .ok kept) :
    kept.mapM (checkedCompletion nfc) = .ok kept := by
  cases c with
  | none =>
    cases h
    rfl
  | some =>
    rw [Option.mapM_some] at h
    obtain ⟨_, hcondition, h⟩ := Fallible.bind_ok.mp h
    cases h
    rw [Option.mapM_some, checkedCompletion_ok hnfc hcondition]
    rfl

theorem preserved_iff (hnfc : NormalForm nfc) (hnetworks : NetworkText p) {s : AgentSpec} (h : Valid p nfc s) :
    Preserved p nfc s ↔ Unbroken s := by
  obtain ⟨raw, hraw⟩ := h
  obtain ⟨hpersonality, hcompletion, hnetwork, _, hmeans, hs⟩ := validated_ok_iff.mp hraw
  have hfields' : fieldChecks (conventional s) = fieldChecks raw := by
    rw [fieldChecks_conventional, hs]
    rfl
  have hmeans' : meansChecks (conventional s) = meansChecks { raw with completion := s.completion } := by
    rw [hs]
    rfl
  rw [Preserved, modelValidate_normalized]
  constructor
  · rintro ⟨hread, _⟩
    exact (mapM_network_iff hnetworks hnetwork).mp (validated_ok_iff.mp hread).2.2.1
  · intro h
    have hread : validated p nfc (conventional s) = .ok (conventional s) := by
      refine validated_ok_iff.mpr ⟨stripped_ok hpersonality, mapM_completion hnfc hcompletion, (mapM_network_iff hnetworks hnetwork).mpr h, ?_, ?_, rfl⟩
      · rwa [hfields']
      · exact hmeans' ▸ hmeans
    refine ⟨hread, fun t ht => ?_⟩
    rw [hread] at ht
    rw [← Except.ok.inj ht, normalized_conventional]

/-- `float.__repr__` of a zero. -/
def zeroText (negative : Bool) : String := if negative then "-0.0" else "0.0"

theorem zeroText_injective : ∀ a b : Bool, zeroText a = zeroText b → a = b := by decide

/-- A specification is read back as it is exactly where none of its targets ends in a line break; its document says what it says and no
more; and the hash is that of the document, but for the sign of a temperature of zero. -/
theorem normalized_preserves (hnfc : NormalForm nfc) (hnetworks : NetworkText p) :
    (∀ s, Valid p nfc s → (Preserved p nfc s ↔ Unbroken s)) ∧
      (∀ s t, normalized s = normalized t ↔ conventional s = conventional t) ∧
        ∀ s t negative negative', conventional s = conventional t →
          ((∀ hash, (normalizeAgentSpec hash negative s).2 = (normalizeAgentSpec hash negative' t).2) ↔
            (coldest s = true → negative = negative')) := by
  refine ⟨fun s hs => preserved_iff hnfc hnetworks hs, normalized_eq_iff, fun s t negative negative' h => ?_⟩
  have hcold : coldest t = coldest s := by
    rw [show coldest t = coldest (conventional t) from rfl, ← h]
    rfl
  have hsame := (normalized_eq_iff s t).mpr h
  constructor
  · intro hhash hcoldest
    have hsign := hhash fun negative _ => zeroText negative
    rw [normalizeAgentSpec, normalizeAgentSpec, hcold, hcoldest, Bool.true_and, Bool.true_and] at hsign
    exact zeroText_injective negative negative' hsign
  · intro hsign _
    rw [normalizeAgentSpec, normalizeAgentSpec, hcold, hsame]
    dsimp only
    cases hcoldest : coldest s with
    | false => rfl
    | true => rw [hsign hcoldest]

end Preserving

def reaching (target : String) : AgentSpec :=
  { personality := "Helpful.", modelPolicy := .deterministic .complete, network := some { allow := [target] } }

theorem reaching_valid {target stored : String} (h : cleanEntry Outbound.hostsOnly target = some stored) :
    Valid Outbound.hostsOnly id (reaching stored) := by
  have hpersonality : stripped "personality" 8192 "Helpful." = .ok "Helpful." := by decide
  have hfields : ∀ check ∈ fieldChecks (reaching ""), check.2 = true := by decide
  refine ⟨reaching target, validated_ok_iff.mpr ⟨hpersonality, rfl, ?_, hfields, List.forall_mem_nil _, rfl⟩⟩
  have hallow : collected "allow" (cleanEntry Outbound.hostsOnly) [target] = .ok [stored] :=
    collected_ok.mpr ⟨.cons h .nil, List.nodup_singleton stored⟩
  have hnetwork : checkedNetwork Outbound.hostsOnly ⟨[target]⟩ = .ok ⟨[stored]⟩ :=
    Fallible.bind_ok.mpr ⟨(), rfl, Fallible.bind_ok.mpr ⟨[stored], hallow, rfl⟩⟩
  exact Fallible.bind_ok.mpr ⟨⟨[stored]⟩, hnetwork, rfl⟩

theorem hostsOnly_text : NetworkText Outbound.hostsOnly where
  reads _ _ h := by cases h
  masked _ _ h := by cases h
  stripped _ _ h := by cases h
  lowered _ _ h := by cases h

theorem host_preserved : Preserved Outbound.hostsOnly id (reaching "a.com") := by
  have htarget : cleanEntry Outbound.hostsOnly "a.com" = some "a.com" := by decide
  refine ((normalized_preserves SessionWorkspace.normalForm_id hostsOnly_text).1 _ (reaching_valid htarget)).mpr ?_
  rintro _ ⟨⟩
  decide

/-- A target that ends in a line break before its dots is stored with it, and read back without. -/
theorem broken_target_changed :
    Valid Outbound.hostsOnly id (reaching "a.com\n") ∧ ¬ Preserved Outbound.hostsOnly id (reaching "a.com\n") := by
  have htarget : cleanEntry Outbound.hostsOnly "a.com\n." = some "a.com\n" := by decide
  have hvalid : Valid Outbound.hostsOnly id (reaching "a.com\n") := reaching_valid htarget
  refine ⟨hvalid, fun h => ?_⟩
  have hunbroken := (preserved_iff SessionWorkspace.normalForm_id hostsOnly_text hvalid).mp h
  exact hunbroken _ rfl "a.com\n" List.mem_cons_self (by decide)

end TinyHermes.Agents.Specs
