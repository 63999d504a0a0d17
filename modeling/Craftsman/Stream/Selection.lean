import Mathlib.Data.List.Nodup
import Mathlib.Data.List.Pairwise
import Mathlib.Order.Lattice
import Mathlib.Tactic.Common

/-! A table of bounded room filled from a list and then sorted by a key. -/
namespace Craftsman.Stream.Selection

variable {α κ : Type*} [LinearOrder κ]

/-- Distinct keys leave one order. -/
theorem sorted_unique (key : α → κ) (first second : List α) (same : first.Perm second) (distinct : (first.map key).Nodup)
    (ordered : first.Pairwise fun a b => key a ≤ key b) (again : second.Pairwise fun a b => key a ≤ key b) :
    first = second := by
  apply List.Perm.eq_of_pairwise _ ordered again same
  intro a b left right low high
  exact List.inj_on_of_nodup_map distinct left (same.mem_iff.mpr right) (le_antisymm low high)

theorem sorted_strict (key : α → κ) (items : List α) (distinct : (items.map key).Nodup)
    (ordered : items.Pairwise fun a b => key a ≤ key b) : items.Pairwise fun a b => key a < key b := by
  have apart : items.Pairwise fun a b => key a ≠ key b := List.pairwise_map.mp distinct
  exact ordered.imp₂ (fun a b low other => lt_of_le_of_ne low other) apart

theorem take_perm (room : Nat) (items others : List α) (same : items.Perm others) (fits : items.length ≤ room) :
    (items.take room).Perm (others.take room) := by
  rw [List.take_of_length_le fits,List.take_of_length_le (same.length_eq ▸ fits)]
  exact same

/-- What does not fit may come first in another order. -/
theorem cut_depends (keep : α → Bool) (room : Nat) (items : List α) (some_room : 0 < room)
    (distinct : (items.filter keep).Nodup) (crowded : room < (items.filter keep).length) :
    ∃ others x, items.Perm others ∧ x ∈ (others.filter keep).take room ∧ x ∉ (items.filter keep).take room := by
  have late : (items.filter keep)[room] ∈ items.filter keep := List.getElem_mem crowded
  obtain ⟨member,kept⟩ := List.mem_filter.mp late
  obtain ⟨front,rest,split⟩ := List.append_of_mem member
  refine ⟨(items.filter keep)[room]::(front ++ rest),(items.filter keep)[room],?_,?_,?_⟩
  · conv_lhs => rw [split]
    exact List.perm_middle
  · rw [List.filter_cons_of_pos kept]
    obtain ⟨n,rfl⟩ := Nat.exists_eq_succ_of_ne_zero some_room.ne'
    rw [List.take_succ_cons]
    exact List.mem_cons_self
  · intro early
    obtain ⟨i,inside,here⟩ := List.mem_iff_getElem.mp early
    rw [List.length_take] at inside
    rw [List.getElem_take] at here
    have index := (distinct.getElem_inj_iff).mp here
    omega

end Craftsman.Stream.Selection
