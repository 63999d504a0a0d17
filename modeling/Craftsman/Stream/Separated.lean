import Mathlib.Data.List.TakeWhile
import Mathlib.Tactic.Common

/-! Texts with separators, split at the first few of them and at no others. The split
can be made in place: a mark over each of these separators ends the piece before it. -/
namespace Craftsman.Stream.Separated

variable {α : Type*} [DecidableEq α] (separator mark : α)

/-- At most `left` separators split; the last piece keeps its own. -/
def pieces : Nat → List α → List (List α)
  | 0,text => [text]
  | _+1,[] => [[]]
  | left+1,c::rest =>
    if c = separator then []::pieces left rest
    else (pieces (left+1) rest).modifyHead (c :: ·)

/-- The text with a mark over each separator that splits. -/
def marked : Nat → List α → List α
  | 0,text => text
  | _+1,[] => []
  | left+1,c::rest => if c = separator then mark::marked left rest else c::marked (left+1) rest

/-- Where the pieces behind the first one start, in a text that begins at `position`. -/
def starts : Nat → Nat → List α → List Nat
  | 0,_,_ => []
  | _+1,_,[] => []
  | left+1,position,c::rest =>
    if c = separator then (position+1)::starts left (position+1) rest else starts (left+1) (position+1) rest

/-- The symbols from a position to the next mark. -/
def piece (block : List α) (position : Nat) : List α := (block.drop position).takeWhile (· ≠ mark)

theorem pieces_some (left : Nat) (text : List α) : pieces separator left text ≠ [] := by
  induction text generalizing left with
  | nil => cases left <;> exact List.cons_ne_nil _ _
  | cons c text ih =>
    cases left with
    | zero => exact List.cons_ne_nil _ _
    | succ left =>
      rw [pieces]
      split
      · exact List.cons_ne_nil _ _
      · obtain ⟨first,later,found⟩ := List.exists_cons_of_ne_nil (ih (left + 1))
        rw [found,List.modifyHead_cons]
        exact List.cons_ne_nil _ _

theorem pieces_length (left : Nat) (text : List α) :
    (pieces separator left text).length = min left (text.count separator) + 1 := by
  induction text generalizing left with
  | nil => cases left <;> simp [pieces]
  | cons c text ih =>
    cases left with
    | zero => simp [pieces]
    | succ left =>
      rw [pieces]
      split
      · next same => rw [List.length_cons,ih,same,List.count_cons_self,Nat.succ_min_succ]
      · next other => rw [List.length_modifyHead,ih,List.count_cons_of_ne other]

theorem pieces_join (left : Nat) (text : List α) : [separator].intercalate (pieces separator left text) = text := by
  induction text generalizing left with
  | nil => cases left <;> exact List.intercalate_singleton
  | cons c text ih =>
    cases left with
    | zero => exact List.intercalate_singleton
    | succ left =>
      rw [pieces]
      split
      · next same =>
        rw [List.intercalate_cons_of_ne_nil (pieces_some separator left text),ih,same]
        rfl
      · obtain ⟨first,later,found⟩ := List.exists_cons_of_ne_nil (pieces_some separator (left + 1) text)
        have joined := ih (left + 1)
        rw [found] at joined
        rw [found,List.modifyHead_cons,List.intercalate_cons_cons_left,joined]

/-- Every piece but the last is free of separators. -/
theorem pieces_plain (left : Nat) (text s : List α) (member : s ∈ (pieces separator left text).dropLast) :
    separator ∉ s := by
  induction text generalizing left s with
  | nil => cases left <;> cases member
  | cons c text ih =>
    cases left with
    | zero => cases member
    | succ left =>
      rw [pieces] at member
      split at member
      · rw [List.dropLast_cons_of_ne_nil (pieces_some separator left text)] at member
        rcases List.mem_cons.mp member with rfl | later
        · exact List.not_mem_nil
        · exact ih left s later
      · next other =>
        obtain ⟨first,later,found⟩ := List.exists_cons_of_ne_nil (pieces_some separator (left + 1) text)
        have plain := ih (left + 1)
        rw [found] at plain
        rw [found,List.modifyHead_cons] at member
        cases later with
        | nil => cases member
        | cons next later =>
          rw [List.dropLast_cons_of_ne_nil (List.cons_ne_nil _ _)] at member plain
          rcases List.mem_cons.mp member with rfl | behind
          · intro inside
            rcases List.mem_cons.mp inside with same | inside
            · exact other same.symm
            · exact plain first List.mem_cons_self inside
          · exact plain s (List.mem_cons_of_mem _ behind)

theorem starts_length (left position : Nat) (text : List α) :
    (starts separator left position text).length = min left (text.count separator) := by
  induction text generalizing left position with
  | nil => cases left <;> simp [starts]
  | cons c text ih =>
    cases left with
    | zero => simp [starts]
    | succ left =>
      rw [starts]
      split
      · next same => rw [List.length_cons,ih,same,List.count_cons_self,Nat.succ_min_succ]
      · next other => rw [ih,List.count_cons_of_ne other]

theorem starts_inside (left position : Nat) (text : List α) (start : Nat)
    (member : start ∈ starts separator left position text) : position < start ∧ start ≤ position + text.length := by
  induction text generalizing left position with
  | nil => cases left <;> cases member
  | cons c text ih =>
    cases left with
    | zero => cases member
    | succ left =>
      rw [starts] at member
      rw [List.length_cons]
      split at member
      · rcases List.mem_cons.mp member with rfl | later
        · omega
        · have behind := ih left (position + 1) later
          omega
      · have behind := ih (left + 1) (position + 1) member
        omega

theorem marked_length (left : Nat) (text : List α) : (marked separator mark left text).length = text.length := by
  induction text generalizing left with
  | nil => cases left <;> rfl
  | cons c text ih =>
    cases left with
    | zero => rfl
    | succ left =>
      rw [marked]
      split <;> rw [List.length_cons,List.length_cons,ih]

/-- Exactly the first `left` separators are marked. -/
theorem marked_entry (left : Nat) (text : List α) (j : Nat) :
    (marked separator mark left text)[j]? =
      if text[j]? = some separator ∧ (text.take j).count separator < left then some mark else text[j]? := by
  induction text generalizing left j with
  | nil => cases left <;> simp [marked]
  | cons c text ih =>
    cases left with
    | zero => simp [marked]
    | succ left =>
      rw [marked]
      by_cases same : c = separator
      · subst same
        rw [if_pos rfl]
        cases j with
        | zero => simp
        | succ j =>
          rw [List.getElem?_cons_succ,List.getElem?_cons_succ,ih,List.take_succ_cons,List.count_cons_self]
          simp only [Nat.add_lt_add_iff_right]
      · rw [if_neg same]
        cases j with
        | zero => simp [same]
        | succ j =>
          rw [List.getElem?_cons_succ,List.getElem?_cons_succ,ih,List.take_succ_cons,List.count_cons_of_ne same]

theorem piece_free (front text rest : List α) (free : mark ∉ text) :
    piece mark (front ++ (text ++ mark::rest)) front.length = text := by
  rw [piece,List.drop_left,List.takeWhile_append_of_pos]
  · simp
  · intro a member
    exact decide_eq_true fun same => free (same ▸ member)

theorem piece_cons (c : α) (front block : List α) (other : c ≠ mark) :
    piece mark (front ++ c::block) front.length = c::piece mark (front ++ c::block) (front.length + 1) := by
  rw [piece,piece,List.drop_left,List.drop_length_add_append,List.drop_succ_cons,List.drop_zero]
  exact List.takeWhile_cons_of_pos (decide_eq_true other)

/-- In the marked text each piece reaches from its start to the next mark. -/
theorem pieces_marked (left : Nat) (front text rest : List α) (free : mark ∉ text) :
    (front.length::starts separator left front.length text).map
        (piece mark (front ++ (marked separator mark left text ++ mark::rest))) =
      pieces separator left text := by
  induction text generalizing left front with
  | nil => cases left <;> simp [starts,marked,pieces,piece]
  | cons c text ih =>
    have freeRest : mark ∉ text := fun member => free (List.mem_cons_of_mem c member)
    cases left with
    | zero =>
      rw [starts,marked,pieces,List.map_singleton,piece_free mark front (c::text) rest free]
    | succ left =>
      rw [starts,marked,pieces]
      split
      · have behind := ih left (front ++ [mark]) freeRest
        rw [List.length_append,List.length_singleton,List.append_assoc] at behind
        rw [List.map_cons,← behind]
        congr 1
        exact piece_free mark front [] _ List.not_mem_nil
      · have behind := ih (left + 1) (front ++ [c]) freeRest
        rw [List.length_append,List.length_singleton,List.append_assoc] at behind
        have other : c ≠ mark := fun same => free (same ▸ List.mem_cons_self)
        have here := piece_cons mark c front (marked separator mark (left+1) text ++ mark::rest) other
        rw [← behind,List.map_cons,List.map_cons,List.modifyHead_cons,List.cons_append,here]
        rfl

end Craftsman.Stream.Separated
