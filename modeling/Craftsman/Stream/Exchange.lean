import Mathlib.Data.List.Induction
import Mathlib.Order.Lattice
import Mathlib.Tactic.Common

/-! Sorting in place by exchanges of neighbours, and ranks in a sorted list. -/
namespace Craftsman.Stream.Exchange

variable {α : Type*} [LinearOrder α]

def sink (items : List α) : Nat → List α
  | 0 => items
  | j+1 =>
    match items[j]?,items[j+1]? with
    | some a,some b => if a ≤ b then items else sink ((items.set j b).set (j+1) a) j
    | _,_ => items

def exchangeSort (items : List α) : List α := (List.range' 1 (items.length - 1)).foldl sink items

/-- At most `rank` items lie below the value and more than `rank` do not lie above it. -/
structure Ranked (items : List α) (rank : Nat) (value : α) : Prop where
  member : value ∈ items
  below : items.countP (· < value) ≤ rank
  upTo : rank < items.countP (· ≤ value)

theorem sorted_snoc (front : List α) (x : α) :
    (front ++ [x]).Pairwise (· ≤ ·) ↔ front.Pairwise (· ≤ ·) ∧ ∀ a ∈ front, a ≤ x := by
  simp [List.pairwise_append]

/-- The item behind a sorted front sinks to its place in it. -/
theorem sink_placed (front rest : List α) (x : α) :
    ∃ placed, sink (front ++ x::rest) front.length = placed ++ rest ∧ placed.Perm (front ++ [x]) ∧
      (front.Pairwise (· ≤ ·) → placed.Pairwise (· ≤ ·)) := by
  induction front using List.reverseRecOn generalizing rest with
  | nil => exact ⟨[x],rfl,List.Perm.refl _,fun _ => List.pairwise_singleton _ _⟩
  | append_singleton front a ih =>
    have here : (front ++ [a] ++ x::rest)[front.length]? = some a := by simp
    have next : (front ++ [a] ++ x::rest)[front.length+1]? = some x := by simp
    rw [List.length_append,List.length_singleton,sink,here,next]
    dsimp only
    by_cases ordered : a ≤ x
    · rw [if_pos ordered]
      refine ⟨front ++ [a] ++ [x],by simp,List.Perm.refl _,fun sorted => ?_⟩
      apply (sorted_snoc _ _).mpr
      refine ⟨sorted,fun b member => ?_⟩
      rcases List.mem_append.mp member with before | last
      · exact (((sorted_snoc _ _).mp sorted).2 b before).trans ordered
      · rw [List.mem_singleton.mp last]
        exact ordered
    · rw [if_neg ordered]
      have swapped : ((front ++ [a] ++ x::rest).set front.length x).set (front.length+1) a = front ++ x::(a::rest) := by
        simp
      obtain ⟨placed,sunk,same,keeps⟩ := ih (a::rest)
      refine ⟨placed ++ [a],by rw [swapped,sunk]; simp,?_,fun sorted => ?_⟩
      · have exchanged : (front ++ [x] ++ [a]).Perm (front ++ [a] ++ [x]) := by
          rw [List.append_assoc,List.append_assoc]
          exact (List.Perm.swap a x []).append_left front
        exact (same.append_right [a]).trans exchanged
      · obtain ⟨before,highest⟩ := (sorted_snoc _ _).mp sorted
        apply (sorted_snoc _ _).mpr
        refine ⟨keeps before,fun b member => ?_⟩
        rcases List.mem_append.mp (same.mem_iff.mp member) with inside | last
        · exact highest b inside
        · rw [List.mem_singleton.mp last]
          exact (not_le.mp ordered).le

theorem sinks_sorted (sorted rest : List α) (ordered : sorted.Pairwise (· ≤ ·)) :
    ((List.range' sorted.length rest.length).foldl sink (sorted ++ rest)).Pairwise (· ≤ ·) ∧
      ((List.range' sorted.length rest.length).foldl sink (sorted ++ rest)).Perm (sorted ++ rest) := by
  induction rest generalizing sorted with
  | nil => exact ⟨by simpa using ordered,by simp⟩
  | cons x rest ih =>
    obtain ⟨placed,sunk,same,keeps⟩ := sink_placed sorted rest x
    have longer : placed.length = sorted.length + 1 := by rw [same.length_eq]; simp
    obtain ⟨later,kept⟩ := ih placed (keeps ordered)
    rw [longer] at later kept
    rw [List.length_cons,List.range'_succ,List.foldl_cons,sunk]
    refine ⟨later,kept.trans ?_⟩
    have moved := same.append_right rest
    rwa [List.append_assoc] at moved

theorem exchangeSort_sorted (items : List α) :
    (exchangeSort items).Pairwise (· ≤ ·) ∧ (exchangeSort items).Perm items := by
  cases items with
  | nil => exact ⟨List.Pairwise.nil,List.Perm.refl _⟩
  | cons x items => exact sinks_sorted [x] items (List.pairwise_singleton _ _)

theorem ranked_sorted (items : List α) (rank : Nat) (value : α) (ordered : items.Pairwise (· ≤ ·))
    (here : items[rank]? = some value) : Ranked items rank value := by
  obtain ⟨short,at_rank⟩ := List.getElem?_eq_some_iff.mp here
  have split : items = items.take rank ++ value::items.drop (rank+1) := by
    rw [← at_rank,← List.drop_eq_getElem_cons short,List.take_append_drop]
  have before : (items.take rank).length = rank := List.length_take_of_le (Nat.le_of_lt short)
  generalize items.take rank = front at split before
  generalize items.drop (rank+1) = rest at split
  subst split
  rw [List.pairwise_append,List.pairwise_cons] at ordered
  obtain ⟨-,⟨above,-⟩,under⟩ := ordered
  have none_above : (value::rest).countP (· < value) = 0 := by
    apply List.countP_eq_zero.mpr
    intro b member
    rcases List.mem_cons.mp member with rfl | later
    · simp
    · simpa using above b later
  have all_under : front.countP (· ≤ value) = front.length := by
    apply List.countP_eq_length.mpr
    intro b member
    simpa using under b member value List.mem_cons_self
  refine ⟨by simp,?_,?_⟩
  · rw [List.countP_append,none_above,← before]
    exact List.countP_le_length
  · rw [List.countP_append,all_under,before,List.countP_cons]
    simp

theorem Ranked.perm {items others : List α} {rank : Nat} {value : α} (ranked : Ranked items rank value)
    (same : items.Perm others) : Ranked others rank value :=
  ⟨same.mem_iff.mp ranked.member,same.countP_eq _ ▸ ranked.below,same.countP_eq _ ▸ ranked.upTo⟩

theorem exchangeSort_ranked (items : List α) (rank : Nat) (value : α)
    (here : (exchangeSort items)[rank]? = some value) : Ranked items rank value := by
  obtain ⟨ordered,same⟩ := exchangeSort_sorted items
  exact (ranked_sorted _ rank value ordered here).perm same

/-- A lower bound of the items has the rank when more than `rank` items attain it. -/
theorem Ranked.least_iff {items : List α} {rank : Nat} {value : α} (ranked : Ranked items rank value) (least : α)
    (bound : ∀ x ∈ items, least ≤ x) : value = least ↔ rank < items.countP (· ≤ least) := by
  refine ⟨fun same => same ▸ ranked.upTo,fun many => ?_⟩
  by_contra other
  have lower : least < value := lt_of_le_of_ne (bound value ranked.member) (Ne.symm other)
  have fewer : items.countP (· ≤ least) ≤ items.countP (· < value) := by
    apply List.countP_mono_left
    intro x _ low
    simpa using lt_of_le_of_lt (by simpa using low) lower
  have below := ranked.below
  omega

end Craftsman.Stream.Exchange
