import Craftsman.Text
import Craftsman.Stream.Separated

/-! Tokens in place. The pointers are offsets into the command; a blank that ends a
token is overwritten, and the count of the tokens is an `int`. -/
namespace Craftsman.Tokens
open Craftsman.Memory Craftsman.Text Craftsman.Stream.Separated

/-- An entry of the token array is `none` until a pointer is stored there. -/
structure Tokenized where
  tc : Int
  input : List Byte
  token : List (Option Nat)

/-- The loop with `left` bytes before the end. Storing at an index outside the array is a fault. -/
def tokenizeLoop (tokenCount : Nat) : Nat → Nat → Tokenized → Except Stop Tokenized
  | 0,_,state => .ok state
  | left+1,iter,state =>
    if size state.tc < tokenCount then
      match state.input[iter]? with
      | none => .error .fault
      | some c =>
        if c = 32 then
          if 0 ≤ state.tc ∧ state.tc < state.token.length then
            tokenizeLoop tokenCount left (iter + 1)
              ⟨int32 (state.tc + 1),state.input.set iter 0,state.token.set state.tc.toNat (some (iter + 1))⟩
          else .error .fault
        else tokenizeLoop tokenCount left (iter + 1) state
    else .ok state

def tokenizeBuffer (len : Nat) (input : List Byte) (tokenCount : Nat) (token : List (Option Nat)) :
    Except Stop Tokenized :=
  if token = [] then .error .fault
  else tokenizeLoop tokenCount len 0 ⟨1,input,token.set 0 (some 0)⟩

/-- The strings that the first `tc` pointers point to. -/
def Tokenized.strings (state : Tokenized) : List (List Byte) :=
  (state.token.take state.tc.toNat).filterMap fun pointer => pointer.map (piece 0 state.input)

/-- The command is split at its first blanks, as many as there are tokens behind the first. -/
structure Split (text rest : List Byte) (tokenCount : Nat) (before : List (Option Nat)) (state : Tokenized) : Prop where
  count : state.tc = (min tokenCount (1 + text.count 32) : Nat)
  join : [32].intercalate state.strings = text
  plain : ∀ token ∈ state.strings.dropLast, 32 ∉ token
  overwritten : ∀ j : Nat, state.input[j]? =
    if text[j]? = some 32 ∧ (text.take j).count 32 < tokenCount - 1 then some 0 else (text ++ 0::rest)[j]?
  inside : ∀ k : Nat, k < state.tc → ∃ start ≤ text.length, state.token[k]? = some (some start)
  others : ∀ k : Nat, state.tc ≤ k → state.token[k]? = before[k]?

section Loop

theorem tokenizeFrom_pieces (left : Nat) (text : List Byte) : tokenizeFrom left text = pieces 32 left text := by
  induction text generalizing left with
  | nil =>
    unfold tokenizeFrom
    cases left <;> rfl
  | cons c text ih =>
    cases left with
    | zero => rfl
    | succ left =>
      rw [tokenizeFrom,pieces,ih,ih]
      split
      · rfl
      · split
        · next none => exact absurd none (pieces_some 32 (left + 1) text)
        · next first later found => rw [found,List.modifyHead_cons]

theorem size_count (tc : Nat) (small : tc < 2^31) : size (tc : Int) = tc := by
  rw [size_of_bounds (by omega) (by omega),Int.toNat_natCast]

theorem set_overwrite {α : Type} (block items : List α) (i : Nat) (x : α) (inside : i < block.length) :
    overwrite (block.set i x) (i + 1) items = overwrite block i (x::items) := by
  have one : block.set i x = overwrite block i [x] := by
    rw [List.set_eq_take_append_cons_drop,if_pos inside,overwrite,List.append_assoc]
    rfl
  rw [one]
  exact overwrite_overwrite block [x] items i inside

theorem loop_full (tokenCount left iter : Nat) (state : Tokenized) (full : ¬ size state.tc < tokenCount) :
    tokenizeLoop tokenCount left iter state = .ok state := by
  cases left with
  | zero => rfl
  | succ left => rw [tokenizeLoop,if_neg full]

theorem loop_blank (tokenCount left iter : Nat) (state : Tokenized) (more : size state.tc < tokenCount)
    (here : state.input[iter]? = some 32) (inside : 0 ≤ state.tc ∧ state.tc < state.token.length) :
    tokenizeLoop tokenCount (left + 1) iter state = tokenizeLoop tokenCount left (iter + 1)
      ⟨int32 (state.tc + 1),state.input.set iter 0,state.token.set state.tc.toNat (some (iter + 1))⟩ := by
  rw [tokenizeLoop,if_pos more,here]
  dsimp only
  rw [if_pos rfl,if_pos inside]

theorem loop_other (tokenCount left iter : Nat) (state : Tokenized) (c : Byte) (more : size state.tc < tokenCount)
    (here : state.input[iter]? = some c) (other : c ≠ 32) :
    tokenizeLoop tokenCount (left + 1) iter state = tokenizeLoop tokenCount left (iter + 1) state := by
  rw [tokenizeLoop,if_pos more,here]
  dsimp only
  rw [if_neg other]

/-- The tokens that start in a stretch of the command, while the count fits an `int`. -/
theorem loop_splits (tokenCount : Nat) (text front rest : List Byte) (left tc iter : Nat) (token : List (Option Nat))
    (limit : tc + left = tokenCount) (room : tokenCount ≤ token.length) (here : iter = front.length)
    (narrow : tc + (starts 32 left iter text).length < 2^31) :
    tokenizeLoop tokenCount text.length iter ⟨tc,front ++ (text ++ rest),token⟩ =
      .ok ⟨(tc + (starts 32 left iter text).length : Nat),front ++ (marked 32 0 left text ++ rest),
        overwrite token tc ((starts 32 left iter text).map some)⟩ := by
  have unchanged : overwrite token tc [] = token := by simp [overwrite]
  induction text generalizing front left tc iter token with
  | nil => cases left <;> simp [tokenizeLoop,starts,marked,unchanged]
  | cons c text ih =>
    have byte : (front ++ (c::text ++ rest))[iter]? = some c := by simp [here]
    have small := size_count tc (by omega)
    rw [List.length_cons]
    cases left with
    | zero =>
      rw [loop_full _ _ _ _ (by rw [small]; omega)]
      simp [starts,marked,unchanged]
    | succ left =>
      have more : size (tc : Int) < tokenCount := by rw [small]; omega
      rw [starts] at narrow
      rw [starts,marked]
      by_cases blank : c = 32
      · subst blank
        rw [if_pos rfl,List.length_cons] at narrow
        rw [if_pos rfl,if_pos rfl,List.map_cons,List.length_cons,loop_blank _ _ _ _ more byte (by dsimp only; omega)]
        have bytes : (front ++ (32::text ++ rest)).set iter 0 = (front ++ [0]) ++ (text ++ rest) := by simp [here]
        have counted : int32 ((tc : Int) + 1) = (tc + 1 : Nat) := int32_of_bounds (by omega) (by omega)
        have stored := set_overwrite token ((starts 32 left (iter + 1) text).map some) tc (some (iter + 1)) (by omega)
        have later := ih (front ++ [0]) left (tc + 1) (iter + 1) (token.set tc (some (iter + 1))) (by omega)
          (by rw [List.length_set]; exact room) (by simp [here]) (by omega) (by simp [overwrite])
        rw [bytes,counted,Int.toNat_natCast,later,stored]
        simp [Nat.add_assoc,Nat.add_comm 1]
      · rw [if_neg blank] at narrow
        rw [if_neg blank,if_neg blank,loop_other _ _ _ _ c more byte blank]
        have bytes : front ++ (c::text ++ rest) = (front ++ [c]) ++ (text ++ rest) := by simp
        rw [bytes,ih (front ++ [c]) (left + 1) tc (iter + 1) token limit room (by simp [here]) narrow unchanged]
        simp

/-- A loop over two stretches goes over the second as the first left it. -/
theorem loop_append (tokenCount first second iter : Nat) (state : Tokenized) :
    tokenizeLoop tokenCount (first + second) iter state =
      tokenizeLoop tokenCount first iter state >>= tokenizeLoop tokenCount second (iter + first) := by
  induction first generalizing iter state with
  | zero =>
    rw [Nat.zero_add,Nat.add_zero]
    rfl
  | succ first ih =>
    rw [Nat.add_right_comm]
    by_cases more : size state.tc < tokenCount
    · rw [tokenizeLoop,tokenizeLoop,if_pos more,if_pos more]
      cases state.input[iter]? with
      | none => rfl
      | some c =>
        dsimp only
        rw [ih,ih,Nat.add_right_comm iter 1 first,Nat.add_assoc iter first 1]
        split
        · split <;> rfl
        · rfl
    · rw [loop_full _ _ _ _ more,loop_full _ _ _ _ more,ok_bind,loop_full _ _ _ _ more]

end Loop

section Buffer
variable (text rest : List Byte) (token : List (Option Nat))

def pointers (tokenCount : Nat) (text : List Byte) : List Nat := 0::starts 32 (tokenCount - 1) 0 text

theorem pointers_length (some_token : token ≠ []) :
    (pointers token.length text).length = min token.length (1 + text.count 32) := by
  have positive := List.length_pos_iff.mpr some_token
  rw [pointers,List.length_cons,starts_length]
  omega

/-- What `tokenize` leaves: the count, the cut command and the filled front of the array. -/
def tokenized (text rest : List Byte) (token : List (Option Nat)) : Tokenized where
  tc := (pointers token.length text).length
  input := marked 32 0 (token.length - 1) text ++ 0::rest
  token := overwrite token 0 ((pointers token.length text).map some)

theorem tokenizeBuffer_runs (some_token : token ≠ []) (narrow : min token.length (1 + text.count 32) < 2^31) :
    tokenizeBuffer text.length (text ++ 0::rest) token.length token = .ok (tokenized text rest token) := by
  have positive := List.length_pos_iff.mpr some_token
  have count := pointers_length text token some_token
  rw [pointers,List.length_cons] at count
  have runs := loop_splits token.length text [] (0::rest) (token.length - 1) 1 0 (token.set 0 (some 0)) (by omega)
    (by rw [List.length_set]) rfl (by omega)
  rw [set_overwrite token _ 0 (some 0) positive] at runs
  rw [tokenizeBuffer,if_neg some_token]
  refine Eq.trans runs ?_
  rw [tokenized,pointers,List.length_cons,List.map_cons,Nat.add_comm 1]
  rfl

theorem tokenized_strings (nulFree : 0 ∉ text) (some_token : token ≠ []) :
    (tokenized text rest token).strings = tokenize token.length text := by
  have positive := List.length_pos_iff.mpr some_token
  have inside : 0 + ((pointers token.length text).map some).length ≤ token.length := by
    rw [List.length_map,pointers_length text token some_token]
    omega
  have front := take_overwrite token ((pointers token.length text).map some) 0 inside
  rw [List.take_zero,List.nil_append,Nat.zero_add,List.length_map] at front
  have marks := pieces_marked 32 0 (token.length - 1) [] text rest nulFree
  rw [Tokenized.strings,tokenized,Int.toNat_natCast,front,List.filterMap_map]
  rw [tokenize,tokenizeFrom_pieces,← marks]
  exact congrFun List.filterMap_eq_map _

theorem tokenized_entry (k : Nat) :
    (tokenized text rest token).token[k]? = if k < (pointers token.length text).length then
      ((pointers token.length text)[k]?).map some else token[k]? := by
  rw [tokenized,overwrite,List.take_zero,List.nil_append,Nat.zero_add,List.length_map]
  split
  · next early => rw [List.getElem?_append_left (by rwa [List.length_map]),List.getElem?_map]
  · next late =>
    rw [List.getElem?_append_right (by rw [List.length_map]; omega),List.length_map,List.getElem?_drop]
    congr 1
    omega

theorem tokenized_byte (j : Nat) : (tokenized text rest token).input[j]? =
    if text[j]? = some 32 ∧ (text.take j).count 32 < token.length - 1 then some 0 else (text ++ 0::rest)[j]? := by
  have sizes := marked_length 32 0 (token.length - 1) text
  rw [tokenized]
  rcases Nat.lt_or_ge j text.length with early | late
  · rw [List.getElem?_append_left (by rwa [sizes]),marked_entry,List.getElem?_append_left early]
  · have behind : ¬ (text[j]? = some 32 ∧ (text.take j).count 32 < token.length - 1) := by
      rw [List.getElem?_eq_none late]
      simp
    rw [if_neg behind,List.getElem?_append_right (by rwa [sizes]),List.getElem?_append_right late,sizes]

theorem tokenized_split (nulFree : 0 ∉ text) (some_token : token ≠ []) :
    Split text rest token.length token (tokenized text rest token) := by
  have count := pointers_length text token some_token
  have strings := tokenized_strings text rest token nulFree some_token
  rw [tokenize,tokenizeFrom_pieces] at strings
  refine ⟨?_,?_,?_,tokenized_byte text rest token,?_,?_⟩
  · rw [tokenized,count]
  · rw [strings]
    exact pieces_join 32 _ text
  · rw [strings]
    exact pieces_plain 32 _ text
  · intro k early
    have index : k < (pointers token.length text).length := Int.ofNat_lt.mp early
    have entry := tokenized_entry text rest token k
    rw [if_pos index,List.getElem?_eq_getElem index,Option.map_some] at entry
    refine ⟨_,?_,entry⟩
    rcases List.mem_cons.mp (List.getElem_mem index) with first | later
    · exact first ▸ Nat.zero_le text.length
    · have bounds := starts_inside 32 _ 0 text _ later
      omega
  · intro k late
    rw [tokenized_entry text rest token k,if_neg (Nat.not_lt.mpr (Int.ofNat_le.mp late))]

/-- The commands find the strings of `tokenize` behind the pointers. -/
theorem tokenizeBuffer_tokens (nulFree : 0 ∉ text) (some_token : token ≠ []) (limit : token.length < 2^31) :
    ∃ state, tokenizeBuffer text.length (text ++ 0::rest) token.length token = .ok state ∧
      state.strings = tokenize token.length text ∧ state.tc = (tokenize token.length text).length := by
  have positive := List.length_pos_iff.mpr some_token
  refine ⟨tokenized text rest token,tokenizeBuffer_runs text rest token some_token (by omega),
    tokenized_strings text rest token nulFree some_token,?_⟩
  rw [tokenize,tokenizeFrom_pieces,pieces_length,tokenized,pointers_length text token some_token]
  dsimp only
  omega

end Buffer

/-- Every command is split exactly, as long as the number of its tokens is an `int`. -/
theorem exact_split (text rest : List Byte) (token : List (Option Nat)) (nulFree : 0 ∉ text) (some_token : token ≠ [])
    (counted : min token.length (1 + text.count 32) < 2^31) :
    ∃ state, tokenizeBuffer text.length (text ++ 0::rest) token.length token = .ok state ∧
      Split text rest token.length token state :=
  ⟨tokenized text rest token,tokenizeBuffer_runs text rest token some_token counted,
    tokenized_split text rest token nulFree some_token⟩

/-- "v x  " with room for three tokens. -/
theorem exact_split_variable :
    ∃ state, tokenizeBuffer 5 [118,32,120,32,32,0] 3 [none,none,none] = .ok state ∧
      Split [118,32,120,32,32] [] 3 [none,none,none] state :=
  exact_split [118,32,120,32,32] [] [none,none,none] (by decide) (by decide) (by decide)

/-- The blank behind 2^31 - 1 tokens takes their count out of the range of an `int`. -/
theorem count_wraps (blanks : Nat) (full : blanks + 2 = 2^31) (token : List (Option Nat)) (room : token.length = blanks + 2) :
    ∃ state, tokenizeBuffer (blanks + 1) (List.replicate (blanks + 1) 32 ++ [0]) token.length token = .ok state ∧
      state.tc = -2^31 := by
  have some_token : token ≠ [] := List.ne_nil_of_length_eq_add_one room
  have count : (starts 32 (blanks + 1) 0 (List.replicate blanks (32 : Byte))).length = blanks := by
    rw [starts_length,List.count_replicate_self]
    omega
  have command : List.replicate (blanks + 1) (32 : Byte) ++ [0] = [] ++ (List.replicate blanks 32 ++ [32,0]) := by
    rw [List.replicate_succ',List.append_assoc]
    rfl
  have runs := loop_splits token.length (List.replicate blanks 32) [] [32,0] (blanks + 1) 1 0 (token.set 0 (some 0))
    (by omega) (by rw [List.length_set]) rfl (by rw [count]; omega)
  rw [List.length_replicate,count] at runs
  have marks := marked_length 32 0 (blanks + 1) (List.replicate blanks (32 : Byte))
  rw [List.length_replicate] at marks
  have byte : ([] ++ (marked 32 (0 : Byte) (blanks + 1) (List.replicate blanks 32) ++ [32,0]))[0 + blanks]? = some 32 := by
    rw [List.nil_append,List.getElem?_append_right (by omega),Nat.zero_add,marks,Nat.sub_self]
    rfl
  have array : (overwrite (token.set 0 (some 0)) 1
      ((starts 32 (blanks + 1) 0 (List.replicate blanks (32 : Byte))).map some)).length = blanks + 2 := by
    rw [overwrite_length _ _ _ (by rw [List.length_map,count,List.length_set]; omega),List.length_set,room]
  have wraps : int32 (((1 + blanks : Nat) : Int) + 1) = -2^31 := by
    have last : ((1 + blanks : Nat) : Int) + 1 = 2^31 := by omega
    rw [last]
    rfl
  have start : tokenizeBuffer (blanks + 1) (List.replicate (blanks + 1) 32 ++ [0]) token.length token =
      tokenizeLoop token.length (blanks + 1) 0
        ⟨(1 : Nat),[] ++ (List.replicate blanks 32 ++ [32,0]),token.set 0 (some 0)⟩ := by
    rw [tokenizeBuffer,if_neg some_token,command]
    rfl
  rw [start,loop_append,runs,ok_bind,loop_blank _ 0 _ _ (by dsimp only; rw [size_count _ (by omega)]; omega) byte
    ⟨Int.natCast_nonneg _,by dsimp only; rw [array]; omega⟩]
  refine ⟨_,rfl,?_⟩
  dsimp only
  exact wraps

theorem token_count_wraps : ∃ state,
    tokenizeBuffer 2147483647 (List.replicate 2147483647 32 ++ [0]) 2147483648 (List.replicate 2147483648 none) =
      .ok state ∧ state.tc = -2147483648 ∧
      ¬ Split (List.replicate 2147483647 32) [] 2147483648 (List.replicate 2147483648 none) state := by
  have wraps := count_wraps 2147483646 rfl (List.replicate 2147483648 none) List.length_replicate
  rw [List.length_replicate] at wraps
  obtain ⟨state,runs,tc⟩ := wraps
  refine ⟨state,runs,tc,fun split => ?_⟩
  have count := split.count
  rw [tc] at count
  exact absurd (count ▸ Int.natCast_nonneg _) (by decide)

end Craftsman.Tokens
