import Mathlib

/-! What a child Agent may do: the six faces of a scope and the one direction they move in. -/
namespace TinyHermes.Agents

def maxDelegationDepth : Nat := 1

inductive MemoryPermission where
  | readPrivate | proposePrivate
  deriving DecidableEq, Repr

structure DelegationScope where
  tools : Finset String := ∅
  files : Finset String := ∅
  network : Finset String := ∅
  secrets : Finset String := ∅
  skills : Finset String := ∅
  memory : Finset MemoryPermission := ∅
  deriving DecidableEq

structure ChildBinding where
  aliasName : String
  tools : List String := []
  files : List String := []
  network : List String := []
  secrets : List String := []
  skills : List String := []
  memory : List MemoryPermission := []
  deriving DecidableEq, Repr

structure DelegationPolicy where
  children : List ChildBinding
  maxParallel : Nat := 2
  aliases_nodup : (children.map (·.aliasName)).Nodup

structure AgentLimits where
  maxExecutionSeconds : Nat := 900
  maxElapsedSeconds : Nat := 86400
  maxModelCalls : Nat := 20
  maxToolCalls : Nat := 50
  maxDerivedRetries : Nat := 3
  deriving DecidableEq, Repr

structure BoundOperation where
  callName : String
  credentialRef : Option String := none
  deriving DecidableEq, Repr

structure AgentSpec where
  tools : List String := []
  limits : AgentLimits := {}
  syncTimeoutSeconds : Int := 60
  skills : List String := []
  networkAllow : List String := []
  httpOperations : List BoundOperation := []
  delegation : Option DelegationPolicy := none

def DelegationScope.covers (mine theirs : DelegationScope) : Prop :=
  theirs.tools ⊆ mine.tools ∧ theirs.files ⊆ mine.files ∧ theirs.network ⊆ mine.network ∧
    theirs.secrets ⊆ mine.secrets ∧ theirs.skills ⊆ mine.skills ∧ theirs.memory ⊆ mine.memory

def DelegationScope.meet (a b : DelegationScope) : DelegationScope where
  tools := a.tools ∩ b.tools
  files := a.files ∩ b.files
  network := a.network ∩ b.network
  secrets := a.secrets ∩ b.secrets
  skills := a.skills ∩ b.skills
  memory := a.memory ∩ b.memory

/-- What survives every scope in the chain. No arguments is empty, not everything. -/
def intersect : List DelegationScope → DelegationScope
  | [] => {}
  | first :: rest => rest.foldl DelegationScope.meet first

/-- What an Agent itself holds, in the four faces a spec binds. -/
def scopeOfSpec (spec : AgentSpec) : DelegationScope where
  tools := spec.tools.toFinset
  network := spec.networkAllow.toFinset
  skills := spec.skills.toFinset
  memory := if "memory.remember" ∈ spec.tools then {.readPrivate, .proposePrivate} else {.readPrivate}

/-- What a binding wrote down, before any intersection. -/
def askedBy (binding : ChildBinding) : DelegationScope where
  tools := binding.tools.toFinset
  files := binding.files.toFinset
  network := binding.network.toFinset
  secrets := binding.secrets.toFinset
  skills := binding.skills.toFinset
  memory := binding.memory.toFinset

/-- What a child actually gets: the parent's own scope met with the binding. -/
def granted (parent : AgentSpec) (binding : ChildBinding) : DelegationScope :=
  intersect [scopeOfSpec parent, askedBy binding]

end TinyHermes.Agents
