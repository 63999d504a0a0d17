import Mathlib.Data.List.Infix
import Mathlib.Data.List.Range

/-! A stream that is handed over piece by piece. Of each piece only its first
symbols arrive, and the next piece is handed over whether or not the one before
it arrived whole. What arrives is in order when nothing arrives behind a gap. -/
namespace Craftsman.Stream.Pieces

variable {α : Type*}

def stream (pieces : List (List α × Nat)) : List α := pieces.flatMap Prod.fst

def arrived (pieces : List (List α × Nat)) : List α := pieces.flatMap fun piece => piece.1.take piece.2

/-- Where the symbols that arrive stand in a stream whose pieces begin at `start`. -/
def positions : Nat → List (List α × Nat) → List Nat
  | _,[] => []
  | start,piece::later =>
    List.range' start (min piece.2 piece.1.length) ++ positions (start + piece.1.length) later

/-- A piece of which something arrives comes behind pieces that arrived whole. -/
def Unbroken (pieces : List (List α × Nat)) : Prop :=
  pieces.Pairwise fun first second => 0 < min second.2 second.1.length → first.1.length ≤ first.2

@[simp] theorem stream_cons (piece : List α × Nat) (later : List (List α × Nat)) :
    stream (piece::later) = piece.1 ++ stream later := List.flatMap_cons

@[simp] theorem arrived_cons (piece : List α × Nat) (later : List (List α × Nat)) :
    arrived (piece::later) = piece.1.take piece.2 ++ arrived later := List.flatMap_cons

@[simp] theorem positions_length (start : Nat) (pieces : List (List α × Nat)) :
    (positions start pieces).length = (arrived pieces).length := by
  induction pieces generalizing start with
  | nil => rfl
  | cons piece later ih => simp [positions,ih]

theorem arrived_positions (before : List α) (pieces : List (List α × Nat)) (behind : List α) :
    (arrived pieces).map some =
      (positions before.length pieces).map fun i => (before ++ stream pieces ++ behind)[i]? := by
  induction pieces generalizing before with
  | nil => rfl
  | cons piece later ih =>
    have rest := ih (before ++ piece.1)
    rw [List.length_append] at rest
    rw [arrived_cons,positions,List.map_append,List.map_append,rest,stream_cons]
    congr 1
    · apply List.ext_getElem
      · simp
      · intro i inside _
        have short : i < piece.1.length := by simp at inside; omega
        simp [List.getElem?_append,short]
    · simp

theorem positions_from (start : Nat) (pieces : List (List α × Nat)) : ∀ i ∈ positions start pieces, start ≤ i := by
  induction pieces generalizing start with
  | nil => simp [positions]
  | cons piece later ih =>
    intro i member
    rcases List.mem_append.mp member with here | behind
    · exact (List.mem_range'_1.mp here).1
    · have := ih _ i behind
      omega

theorem positions_none (start : Nat) (pieces : List (List α × Nat)) :
    positions start pieces = [] ↔ ∀ piece ∈ pieces, min piece.2 piece.1.length = 0 := by
  induction pieces generalizing start with
  | nil => simp [positions]
  | cons piece later ih => simp [positions,ih]

/-- Every position up to the last one is taken if and only if nothing arrives behind a gap. -/
theorem positions_unbroken (start : Nat) (pieces : List (List α × Nat)) :
    positions start pieces = List.range' start (arrived pieces).length ↔ Unbroken pieces := by
  induction pieces generalizing start with
  | nil => simp [positions,arrived,Unbroken]
  | cons piece later ih =>
    rw [Unbroken,List.pairwise_cons,← Unbroken,← ih (start + piece.1.length),positions,arrived_cons,List.length_append,
      List.length_take,← List.range'_append_1,List.append_cancel_left_eq]
    -- behind a piece that arrived whole the positions go on; behind any other nothing may arrive
    by_cases whole : piece.1.length ≤ piece.2
    · rw [Nat.min_eq_right whole]
      exact ⟨fun same => ⟨fun _ _ _ => whole,same⟩,fun both => both.2⟩
    · constructor
      · intro same
        have none : positions (start + piece.1.length) later = [] := by
          by_contra more
          obtain ⟨i,rest,found⟩ := List.exists_cons_of_ne_nil more
          have low := positions_from (start + piece.1.length) later i (by rw [found]; exact List.mem_cons_self)
          have size : (arrived later).length ≠ 0 := by
            rw [← positions_length (start + piece.1.length),found]
            simp
          obtain ⟨n,count⟩ := Nat.exists_eq_succ_of_ne_zero size
          rw [found,count,List.range'_succ] at same
          have first := (List.cons.inj same).1
          omega
        have nothing := (positions_none _ later).mp none
        refine ⟨fun other member gets => ?_,?_⟩
        · rw [nothing other member] at gets
          exact absurd gets (Nat.lt_irrefl 0)
        · rw [none,← positions_length (start + piece.1.length),none]
          rfl
      · rintro ⟨blocked,_⟩
        have none : positions (start + piece.1.length) later = [] := by
          rw [positions_none]
          intro other member
          by_contra gets
          exact whole (blocked other member (Nat.pos_of_ne_zero gets))
        rw [none,← positions_length (start + piece.1.length),none]
        rfl

theorem arrived_front (pieces : List (List α × Nat)) (unbroken : Unbroken pieces) :
    arrived pieces <+: stream pieces := by
  have same := arrived_positions [] pieces []
  rw [List.length_nil,(positions_unbroken 0 pieces).mpr unbroken,List.nil_append,List.append_nil] at same
  rw [List.prefix_iff_getElem?]
  intro i inside
  have entry := congrArg (fun symbols => symbols[i]?) same
  simpa [inside] using entry.symm

end Craftsman.Stream.Pieces
