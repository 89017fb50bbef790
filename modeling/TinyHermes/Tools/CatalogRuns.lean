import TinyHermes.Lib.Execution
import TinyHermes.Tools.CallNames

/-! What is registered, versioned and withdrawn one after another, and what a published Agent has of it meanwhile. -/
namespace TinyHermes.Tools
open Lib Agents Outbound
open Runs (Uuid)

namespace Catalog

inductive Command (ι : Type) where
  | register (provider : Provider) (version : ProviderVersion ι)
  | addVersion (version : ProviderVersion ι)
  | withdrawVersion (versionId : Uuid)

variable {ι : Type} [Item ι] {c c' : Catalog ι} {log : List (Commit (Catalog ι) (Command ι) Unit)}

/-- A command as its transaction commits it; one that is refused changes nothing. -/
def Commands (c : Catalog ι) (command : Command ι) (_ : Unit) (c' : Catalog ι) : Prop :=
  match command with
  | .register provider version => c.register provider version = .ok c'
  | .addVersion version => (c.provider version.providerId).isSome ∧ c.addVersion version = .ok c'
  | .withdrawVersion versionId => (c.version versionId).isSome ∧ c' = c.withdrawVersion versionId

/-- Nothing that was withdrawn is there again. -/
def Withdrawn (c c' : Catalog ι) : Prop :=
  ∀ v ∈ c.versions, v.active = false → ∃ v' ∈ c'.versions, v'.id = v.id ∧ v'.active = false

theorem Withdrawn.trans {c'' : Catalog ι} (h : Withdrawn c c') (h' : Withdrawn c' c'') : Withdrawn c c'' := by
  intro v hv hactive
  obtain ⟨v', hv', hid, hactive'⟩ := h v hv hactive
  obtain ⟨v'', hv'', hid', hactive''⟩ := h' v' hv' hactive'
  exact ⟨v'', hv'', hid'.trans hid, hactive''⟩

theorem withdrawn_of_kept (h : ∀ v ∈ c.versions, v ∈ c'.versions) : Withdrawn c c' :=
  fun v hv hactive => ⟨v, h v hv, rfl, hactive⟩

theorem addVersion_kept {version : ProviderVersion ι} (h : c.addVersion version = .ok c') : ∀ v ∈ c.versions, v ∈ c'.versions := by
  unfold addVersion at h
  split_ifs at h
  all_goals cases h
  · exact fun _ hv => hv
  · exact fun _ hv => List.mem_append_left _ hv

theorem commands_keep {command : Command ι} {answer : Unit} (h : Commands c command answer c') : Grows c c' ∧ Withdrawn c c' := by
  cases command with
  | register provider version =>
    refine ⟨register_grows h, ?_⟩
    unfold Commands register at h
    dsimp only at h
    split_ifs at h
    obtain ⟨created, hcreated, h⟩ := Fallible.bind_ok.mp h
    unfold createProvider at hcreated
    split_ifs at hcreated
    all_goals cases hcreated
    have hkept := addVersion_kept h
    exact withdrawn_of_kept hkept
  | addVersion version => exact ⟨addVersion_grows h.2, withdrawn_of_kept (addVersion_kept h.2)⟩
  | withdrawVersion versionId =>
    rw [h.2]
    refine ⟨withdrawVersion_grows c versionId, ?_⟩
    intro v hv hactive
    refine ⟨_, List.mem_map_of_mem hv, (withdrawn_same versionId v).1, ?_⟩
    unfold withdrawn
    split_ifs
    · rfl
    · exact hactive

theorem run_keeps (hrun : Execution Commands c log c') : Grows c c' ∧ Withdrawn c c' := by
  induction hrun with
  | nil => exact ⟨.refl c, withdrawn_of_kept fun _ hv => hv⟩
  | snoc _ hstep ih =>
    obtain ⟨hgrows, hwithdrawn⟩ := commands_keep hstep
    exact ⟨ih.1.trans hgrows, ih.2.trans hwithdrawn⟩

end Catalog

section Bound
variable {ι : Type} [Item ι] {c c' : Catalog ι} {items : ProviderVersion ι → List ι} {workspace : Uuid} {bindings : List ToolBinding}

theorem entriesOf_grows (hfound : Found c workspace bindings) (hgrows : c.Grows c')
    (hitems : ∀ v v' : ProviderVersion ι, v'.id = v.id → v'.items = v.items → items v' = items v) :
    bindings.flatMap (entriesOf c' items) = bindings.flatMap (entriesOf c items) := by
  apply List.flatMap_congr
  intro b hb
  obtain ⟨v, q, hv, hq, _⟩ := hfound b hb
  obtain ⟨v', hv', hprovider, hsame⟩ := hgrows.version hv
  have hid : v'.id = v.id := (Catalog.version_mem hv').2.trans (Catalog.version_mem hv).2.symm
  have hq' : c'.provider v'.providerId = some q := by
    obtain ⟨hmem, hof⟩ := Catalog.provider_mem hq
    rw [hprovider, ← hof]
    exact Catalog.provider_of_mem (hgrows.providers q hmem)
  unfold entriesOf
  rw [hv, hv']
  dsimp only
  rw [hq, hq', hitems v v' hid hsame]

end Bound

section Runs
variable {p : Reading} {a : Answers} {workspace : Uuid} {actor : Actor} {spec : DraftSpec} {c c' : Catalog Operation}
  {m m' : Catalog McpTool} {log : List (Commit (Catalog Operation) (Catalog.Command Operation) Unit)}
  {log' : List (Commit (Catalog McpTool) (Catalog.Command McpTool) Unit)}

/-- What publication found of a spec's bindings stays what it is, whatever is registered, versioned or withdrawn after it: they come
to the same operations, under the same names and with the same credentials, and to the same tools of what the servers offer; and what
was withdrawn stays withdrawn. -/
theorem bound_for_good (hreaders : a.httpTools = some c.visibleVersions ∧ a.mcp = some m.visibleVersions)
    (hhttp : checkHttpTools p a workspace actor spec = .ok ()) (hmcp : checkMcpTools p a workspace actor spec = .ok ())
    (hrun : Execution Catalog.Commands c log c') (hrun' : Execution Catalog.Commands m log' m') :
    boundOperations c' spec.httpTools.bindings = boundOperations c spec.httpTools.bindings ∧
      (∀ offers, revalidate m' offers spec.mcpTools.bindings = revalidate m offers spec.mcpTools.bindings) ∧
      Catalog.Withdrawn c c' ∧ Catalog.Withdrawn m m' := by
  rw [checkHttpTools, hreaders.1] at hhttp
  rw [checkMcpTools, hreaders.2] at hmcp
  obtain ⟨hgrows, hwithdrawn⟩ := Catalog.run_keeps hrun
  obtain ⟨hgrows', hwithdrawn'⟩ := Catalog.run_keeps hrun'
  refine ⟨?_, fun offers => ?_, hwithdrawn, hwithdrawn'⟩
  · exact entriesOf_grows (.of_check hhttp) hgrows fun _ _ _ hitems => hitems
  · apply entriesOf_grows (.of_check hmcp) hgrows'
    intro _ _ hid _
    rw [hid]

theorem paysOnce_for_good : boundOperations (oneTool.withdrawVersion 10) paysOnce.httpTools.bindings =
    boundOperations oneTool paysOnce.httpTools.bindings := by
  have hhttp : checkHttpTools hostsOnly administered 1 { id := 7 } paysOnce = .ok () := by decide +kernel
  have hmcp : checkMcpTools hostsOnly administered 1 { id := 7 } paysOnce = .ok () := rfl
  have hstep : Catalog.Commands oneTool (.withdrawVersion 10) () (oneTool.withdrawVersion 10) := ⟨rfl, rfl⟩
  exact (bound_for_good ⟨rfl, rfl⟩ hhttp hmcp (.snoc .nil hstep) .nil).1

end Runs
end TinyHermes.Tools
