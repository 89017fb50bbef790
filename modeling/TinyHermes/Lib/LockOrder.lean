import Mathlib

/-! Circular waits. Whoever asks for locks only upwards in one order is never part of one. -/
namespace TinyHermes.Lib.LockOrder
variable {ι κ : Type} (holds waits : ι → κ → Prop)

/-- Each of `group` waits for a lock that another one of `group` holds. -/
def Deadlock (group : Finset ι) : Prop :=
  group.Nonempty ∧ ∀ i ∈ group, ∃ lock, waits i lock ∧ ∃ j ∈ group, j ≠ i ∧ holds j lock

variable {holds waits}

theorem not_deadlock {group : Finset ι} (rank : κ → Nat)
    (hup : ∀ i j lock held, waits i lock → j ≠ i → holds j lock → holds i held → rank held < rank lock) :
    ¬ Deadlock holds waits group := by
  rintro ⟨hne, hwaits⟩
  have hlocks : Nonempty κ := by
    obtain ⟨i, hi⟩ := hne
    obtain ⟨lock, _⟩ := hwaits i hi
    exact ⟨lock⟩
  choose! lock hlock using hwaits
  -- whoever waits for the last lock of all: its holder waits for a later one still
  obtain ⟨i, hi, hmax⟩ := group.exists_max_image (fun i => rank (lock i)) hne
  obtain ⟨_, j, hj, _, hholds⟩ := hlock i hi
  obtain ⟨hwaits, k, _, hk, hother⟩ := hlock j hj
  have hlater := hup j k (lock j) (lock i) hwaits hk hother hholds
  exact absurd (hmax j hj) (Nat.not_le.mpr hlater)

end TinyHermes.Lib.LockOrder
