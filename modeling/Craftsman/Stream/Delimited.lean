import Mathlib.Data.List.Infix
import Mathlib.Data.List.TakeWhile
import Mathlib.Data.List.Flatten
import Mathlib.Algebra.BigOperators.Group.List.Basic
import Mathlib.Algebra.Order.Ring.Nat

/-! Delimited streams over an arbitrary alphabet. A list of segments is put on
a wire by closing every segment with one delimiter; a wire splits into its
closed segments and an open tail. Nothing here depends on what the symbols are. -/
namespace Craftsman.Stream.Delimited

variable {α : Type*}

def encode (d : α) (segments : List (List α)) : List α :=
  segments.flatMap (fun s => s ++ [d])

def Free (d : α) (segments : List (List α)) : Prop := ∀ s ∈ segments, d ∉ s

@[simp] theorem encode_nil (d : α) : encode d [] = [] := rfl

@[simp] theorem encode_cons (d : α) (s : List α) (rest : List (List α)) :
    encode d (s::rest) = s ++ d :: encode d rest := by
  simp [encode]

@[simp] theorem encode_append (d : α) (first second : List (List α)) :
    encode d (first ++ second) = encode d first ++ encode d second := by
  simp [encode]

theorem encode_front (d : α) (front segments : List (List α)) (inside : front <+: segments) :
    (encode d front).length ≤ (encode d segments).length := by
  obtain ⟨rest,rfl⟩ := inside
  rw [encode_append,List.length_append]
  exact Nat.le_add_right _ _

theorem encode_singleton (d : α) (s : List α) : encode d [s] = s ++ [d] := by simp

theorem encode_empty (d : α) (k : Nat) : (encode d (List.replicate k [])).length = k := by
  induction k with
  | zero => rfl
  | succ k ih => rw [List.replicate_succ,encode_cons,List.nil_append,List.length_cons,ih]

theorem length_le_encode (d : α) (segments : List (List α)) :
    segments.length ≤ (encode d segments).length := by
  induction segments with
  | nil => simp
  | cons s rest ih => simp only [List.length_cons,encode_cons,List.length_append]; omega

theorem length_encode (d : α) (segments : List (List α)) :
    (encode d segments).length = (segments.map fun s => s.length + 1).sum := by
  simp [encode,List.length_flatMap]

theorem encode_take_before (d : α) (segments : List (List α)) (k : Nat) :
    encode d (segments.take k) <+: encode d segments := by
  refine ⟨encode d (segments.drop k),?_⟩
  rw [← encode_append,List.take_append_drop]

theorem encode_take_succ (d : α) (segments : List (List α)) (k : Nat) (inside : k < segments.length) :
    encode d (segments.take (k+1)) = encode d (segments.take k) ++ (segments[k] ++ [d]) := by
  rw [List.take_succ_eq_append_getElem inside,encode_append,encode_singleton]

theorem Free.take {d : α} {segments : List (List α)} (free : Free d segments) (k : Nat) :
    Free d (segments.take k) :=
  fun s member => free s (List.mem_of_mem_take member)

theorem Free.append {d : α} {first second : List (List α)} (a : Free d first) (b : Free d second) :
    Free d (first ++ second) := by
  intro s member
  rcases List.mem_append.mp member with left | right
  · exact a s left
  · exact b s right

theorem Free.earlier {d : α} {first second : List (List α)} (free : Free d second)
    (before : first <+: second) : Free d first :=
  fun s member => free s (before.subset member)

theorem first_unique (d : α) (s r x y : List α) (freeS : d ∉ s) (freeR : d ∉ r)
    (same : s ++ d :: x = r ++ d :: y) : s = r ∧ x = y := by
  induction s generalizing r with
  | nil =>
    cases r with
    | nil => exact ⟨rfl,by simpa using same⟩
    | cons b r =>
      have head : d = b := by simpa using congrArg List.head? same
      exact absurd (by simp [head]) freeR
  | cons a s ih =>
    cases r with
    | nil =>
      have head : a = d := by simpa using congrArg List.head? same
      exact absurd (by simp [head]) freeS
    | cons b r =>
      simp only [List.cons_append,List.cons.injEq] at same
      obtain ⟨rfl,rest⟩ := same
      obtain ⟨rfl,rfl⟩ := ih r (fun h => freeS (by simp [h])) (fun h => freeR (by simp [h])) rest
      exact ⟨rfl,rfl⟩

theorem encode_unique (d : α) (first second : List (List α)) (t u : List α)
    (freeFirst : Free d first) (freeSecond : Free d second) (freeT : d ∉ t) (freeU : d ∉ u)
    (same : encode d first ++ t = encode d second ++ u) : first = second ∧ t = u := by
  induction first generalizing second with
  | nil =>
    cases second with
    | nil => exact ⟨rfl,by simpa using same⟩
    | cons s rest =>
      exfalso
      apply freeT
      have wire : t = s ++ d :: (encode d rest ++ u) := by simpa using same
      rw [wire]
      simp
  | cons s rest ih =>
    cases second with
    | nil =>
      exfalso
      apply freeU
      have wire : s ++ d :: (encode d rest ++ t) = u := by simpa using same
      rw [← wire]
      simp
    | cons r more =>
      have wire : s ++ d :: (encode d rest ++ t) = r ++ d :: (encode d more ++ u) := by
        simpa using same
      obtain ⟨rfl,tails⟩ := first_unique d s r _ _ (freeFirst s (by simp)) (freeSecond r (by simp)) wire
      obtain ⟨rfl,rfl⟩ := ih more (fun x member => freeFirst x (by simp [member]))
        (fun x member => freeSecond x (by simp [member])) tails
      exact ⟨rfl,rfl⟩

theorem prefix_of_encode (d : α) (first second : List (List α)) (t : List α)
    (freeFirst : Free d first) (freeSecond : Free d second)
    (same : encode d first ++ t = encode d second) : first <+: second := by
  induction first generalizing second with
  | nil => exact List.nil_prefix
  | cons s rest ih =>
    cases second with
    | nil => simp at same
    | cons r more =>
      have wire : s ++ d :: (encode d rest ++ t) = r ++ d :: encode d more := by simpa using same
      obtain ⟨rfl,tails⟩ := first_unique d s r _ _ (freeFirst s (by simp)) (freeSecond r (by simp)) wire
      have later := ih more (fun x member => freeFirst x (by simp [member]))
        (fun x member => freeSecond x (by simp [member])) tails
      exact (List.prefix_cons_inj s).mpr later

theorem open_inside (d : α) (begun rest s more : List α) (unclosed : d ∉ begun)
    (same : begun ++ rest = s ++ d::more) : begun <+: s := by
  have left : begun <+: s ++ d::more := ⟨rest,same⟩
  have right : s ++ [d] <+: s ++ d::more := ⟨more,by simp⟩
  rcases List.prefix_or_prefix_of_prefix left right with inside | beyond
  · rcases List.prefix_concat_iff.mp inside with whole | inside
    · exact absurd (by simp [whole]) unclosed
    · exact inside
  · exact absurd (beyond.subset (by simp)) unclosed

theorem open_of_encode (d : α) (segments : List (List α)) (begun rest : List α) (unclosed : d ∉ begun)
    (nonempty : begun ≠ []) (same : begun ++ rest = encode d segments) :
    ∃ s more, segments = s::more ∧ begun <+: s := by
  cases segments with
  | nil => exact absurd (List.append_eq_nil_iff.mp same).1 nonempty
  | cons s more => exact ⟨s,more,rfl,open_inside d begun rest s _ unclosed (by rw [same,encode_cons])⟩

def split [DecidableEq α] (d : α) : List α → List (List α) × List α
  | [] => ([],[])
  | x::xs =>
    if x = d then ([]::(split d xs).1,(split d xs).2)
    else match split d xs with
      | ([],tail) => ([],x::tail)
      | (s::rest,tail) => ((x::s)::rest,tail)

variable [DecidableEq α]

theorem split_wire (d : α) (wire : List α) :
    encode d (split d wire).1 ++ (split d wire).2 = wire := by
  induction wire with
  | nil => rfl
  | cons x xs ih =>
    by_cases same : x = d
    · subst x
      simpa [split] using ih
    · rcases eq : split d xs with ⟨segments,tail⟩
      rw [eq] at ih
      cases segments with
      | nil => simpa [split,same,eq] using ih
      | cons s rest => simpa [split,same,eq] using ih

theorem split_free (d : α) (wire : List α) :
    Free d (split d wire).1 ∧ d ∉ (split d wire).2 := by
  induction wire with
  | nil => simp [split,Free]
  | cons x xs ih =>
    by_cases same : x = d
    · subst x
      refine ⟨?_,by simpa [split] using ih.2⟩
      intro s member
      simp only [split,if_true,List.mem_cons] at member
      rcases member with rfl | later
      · simp
      · exact ih.1 s later
    · rcases eq : split d xs with ⟨segments,tail⟩
      rw [eq] at ih
      have differs : ¬ d = x := fun h => same h.symm
      cases segments with
      | nil => simpa [split,same,eq,Free,differs] using ih.2
      | cons s rest =>
        obtain ⟨segments,tailFree⟩ := ih
        refine ⟨?_,by simpa [split,same,eq] using tailFree⟩
        intro r member
        simp only [split,same,eq,if_false,List.mem_cons] at member
        rcases member with rfl | later
        · simpa [differs] using segments s (by simp)
        · exact segments r (by simp [later])

/-- Splitting is the only reading of a wire. -/
theorem split_encode (d : α) (segments : List (List α)) (tail : List α)
    (free : Free d segments) (openTail : d ∉ tail) :
    split d (encode d segments ++ tail) = (segments,tail) := by
  obtain ⟨left,right⟩ := encode_unique d _ _ _ _ (split_free d (encode d segments ++ tail)).1 free
    (split_free d (encode d segments ++ tail)).2 openTail (split_wire d _)
  exact Prod.ext left right

theorem split_open (d : α) (tail : List α) (openTail : d ∉ tail) : split d tail = ([],tail) := by
  simpa using split_encode d [] tail (by simp [Free]) openTail

/-- A wire read in two parts: the open tail of the first is carried into the second. -/
theorem split_append (d : α) (first second : List α) :
    split d (first ++ second) =
      ((split d first).1 ++ (split d ((split d first).2 ++ second)).1,
        (split d ((split d first).2 ++ second)).2) := by
  have left := split_wire d first
  have right := split_wire d ((split d first).2 ++ second)
  have wire : first ++ second = encode d ((split d first).1 ++ (split d ((split d first).2 ++ second)).1) ++
      (split d ((split d first).2 ++ second)).2 := by
    rw [encode_append,List.append_assoc,right,← List.append_assoc,left]
  conv_lhs => rw [wire]
  exact split_encode d _ _ ((split_free d first).1.append (split_free d _).1) (split_free d _).2

theorem split_segment (d : α) (s rest : List α) (unclosed : d ∉ s) :
    split d (s ++ d::rest) = (s::(split d rest).1,(split d rest).2) := by
  have wire : s ++ d::rest = encode d (s::(split d rest).1) ++ (split d rest).2 := by
    rw [encode_cons,List.append_assoc,List.cons_append,split_wire]
  rw [wire]
  apply split_encode
  · intro r member
    rcases List.mem_cons.mp member with rfl | later
    · exact unclosed
    · exact (split_free d rest).1 r later
  · exact (split_free d rest).2

theorem free_behind (d : α) (wire : List α) (n : Nat) :
    d ∉ wire.drop n ↔ (encode d (split d wire).1).length ≤ n := by
  have whole := split_wire d wire
  constructor
  · intro free
    by_contra inside
    rcases List.eq_nil_or_concat (split d wire).1 with none | ⟨front,s,segments⟩
    · rw [none] at inside
      exact inside (Nat.zero_le n)
    · rw [List.concat_eq_append] at segments
      rw [segments,encode_append,encode_singleton,List.length_append,List.length_append,List.length_singleton] at inside
      rw [segments,encode_append,encode_singleton,← List.append_assoc,List.append_assoc] at whole
      apply free
      rw [← whole,List.drop_append_of_le_length (by rw [List.length_append]; omega)]
      exact List.mem_append_right _ List.mem_cons_self
  · intro small member
    rw [← whole,List.drop_append,List.drop_eq_nil_of_le small,List.nil_append] at member
    exact (split_free d wire).2 (List.mem_of_mem_drop member)

theorem split_count (d : α) (wire : List α) : (split d wire).1.length = wire.count d := by
  induction wire with
  | nil => rfl
  | cons x xs ih =>
    by_cases same : x = d
    · subst x
      simpa [split] using ih
    · rcases eq : split d xs with ⟨segments,tail⟩
      rw [eq] at ih
      rw [List.count_cons_of_ne same,← ih]
      cases segments <;> simp [split,same,eq]

theorem split_concat (d : α) (wire : List α) : (split d (wire ++ [d])).2 = [] := by
  rw [split_append,split_segment d _ [] (split_free d wire).2]
  rfl

theorem split_closed (d : α) (segments : List (List α)) : (split d (encode d segments)).2 = [] := by
  rcases List.eq_nil_or_concat segments with rfl | ⟨front,s,rfl⟩
  · rfl
  · rw [List.concat_eq_append,encode_append,encode_singleton,← List.append_assoc]
    exact split_concat d _

/-- Segments that hold delimiters themselves are read as more segments of the same wire. -/
theorem encode_split (d : α) (segments : List (List α)) :
    encode d (split d (encode d segments)).1 = encode d segments := by
  have wire := split_wire d (encode d segments)
  rwa [split_closed,List.append_nil] at wire

theorem length_le_split (d : α) (segments : List (List α)) :
    segments.length ≤ (split d (encode d segments)).1.length := by
  rw [split_count]
  induction segments with
  | nil => exact Nat.le_refl 0
  | cons s rest ih =>
    rw [encode_cons,List.count_append,List.count_cons_self,List.length_cons]
    omega

theorem split_encode_append (d : α) (first second : List (List α)) :
    (split d (encode d (first ++ second))).1 = (split d (encode d first)).1 ++ (split d (encode d second)).1 := by
  rw [encode_append,split_append,split_closed,List.nil_append]

end Craftsman.Stream.Delimited
