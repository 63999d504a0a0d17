import Mathlib.Algebra.Group.Int.Defs
import Mathlib.Algebra.Ring.Nat
import Mathlib.Data.List.TakeDrop
import Mathlib.Data.List.Infix
import Mathlib.Tactic.Common

/-! Bytes, fixed-width integers and the memory functions of C. A heap byte that
malloc handed out and nobody wrote has no value: reading it, or touching a byte
outside its object, is a fault and ends the run. -/
namespace Craftsman.Memory

abbrev Byte := UInt8

/-- Why a run ends without a result. -/
inductive Stop where
  /-- The explicit store through a null pointer. -/
  | crash
  /-- An access outside every object, or a call through a null pointer. -/
  | fault
  deriving DecidableEq, Repr

instance three_parameters : NeZero 3 := ⟨by decide⟩

instance four_players : NeZero 4 := ⟨by decide⟩

def u32 (n : Nat) : Nat := n % 2^32

def size (i : Int) : Nat := (i % 2^64).toNat

def int32 (i : Int) : Int := Int.bmod i (2^32)

def le32 (n : Nat) : List Byte :=
  [UInt8.ofNat n,UInt8.ofNat (n / 256),UInt8.ofNat (n / 65536),UInt8.ofNat (n / 16777216)]

theorem blank_length : (List.replicate 4096 (0 : Byte)).length = 4096 := List.length_replicate

theorem u32_of_lt {n : Nat} (small : n < 2^32) : u32 n = n := Nat.mod_eq_of_lt small

theorem size_of_bounds {i : Int} (low : 0 ≤ i) (high : i < 2^64) : size i = i.toNat := by
  unfold size; omega

theorem int32_range (i : Int) : -2^31 ≤ int32 i ∧ int32 i < 2^31 := by
  have low := Int.le_bmod (x := i) (m := 2^32) (by decide)
  have high := Int.bmod_lt (x := i) (m := 2^32) (by decide)
  unfold int32
  omega

theorem int32_of_bounds {i : Int} (low : -2^31 ≤ i) (high : i < 2^31) : int32 i = i := by
  exact Int.bmod_eq_of_le (by omega) (by omega)

theorem ok_bind {α β : Type} (value : α) (next : α → Except Stop β) : (Except.ok value >>= next) = next value := rfl

theorem error_bind {α β : Type} (stop : Stop) (next : α → Except Stop β) : (Except.error stop >>= next) = .error stop := rfl

theorem bind_ok {α β : Type} (first : Except Stop α) (next : α → Except Stop β) (result : β) :
    (first >>= next) = .ok result ↔ ∃ value, first = .ok value ∧ next value = .ok result := by
  cases first with
  | error stop => simp [bind,Except.bind]
  | ok value => simp [bind,Except.bind]

theorem bind_error {α β : Type} (first : Except Stop α) (next : α → Except Stop β) (stop : Stop) :
    (first >>= next) = .error stop ↔ first = .error stop ∨ ∃ value, first = .ok value ∧ next value = .error stop := by
  cases first with
  | error stop => simp [bind,Except.bind]
  | ok value => simp [bind,Except.bind]

def overwrite {α : Type} (block : List α) (offset : Nat) (items : List α) : List α :=
  block.take offset ++ items ++ block.drop (offset + items.length)

theorem overwrite_length {α : Type} (block items : List α) (offset : Nat)
    (inside : offset + items.length ≤ block.length) :
    (overwrite block offset items).length = block.length := by
  simp only [overwrite,List.length_append,List.length_take,List.length_drop]
  omega

theorem take_overwrite {α : Type} (block items : List α) (offset : Nat)
    (inside : offset + items.length ≤ block.length) :
    (overwrite block offset items).take (offset + items.length) = block.take offset ++ items := by
  rw [overwrite,List.take_left' (by simp only [List.length_append,List.length_take]; omega)]

theorem overwrite_overwrite {α : Type} (block first second : List α) (offset : Nat)
    (inside : offset + first.length ≤ block.length) :
    overwrite (overwrite block offset first) (offset + first.length) second =
      overwrite block offset (first ++ second) := by
  have front : (block.take offset ++ first).length = offset + first.length := by
    simp only [List.length_append,List.length_take]; omega
  have kept := take_overwrite block first offset inside
  have rest : (overwrite block offset first).drop (offset + first.length + second.length) =
      block.drop (offset + (first ++ second).length) := by
    rw [overwrite,← front,List.drop_length_add_append,front,List.drop_drop]
    congr 1
    simp only [List.length_append]
    omega
  rw [overwrite,kept,rest]
  simp [overwrite,List.append_assoc]

theorem overwrite_front {α : Type} (front rest items : List α) :
    overwrite (front ++ rest) front.length items = front ++ (items ++ rest.drop items.length) := by
  simp [overwrite,List.drop_append]

/-- `memmove` of `count` bytes from `source` to the start of the block; the
bytes behind them keep their old values. -/
def moveDown {α : Type} (block : List α) (source count : Nat) : List α :=
  (block.drop source).take count ++ block.drop count

theorem moveDown_length {α : Type} (block : List α) (source count : Nat)
    (inside : source + count ≤ block.length) :
    (moveDown block source count).length = block.length := by
  simp only [moveDown,List.length_append,List.length_take,List.length_drop]
  omega

theorem take_moveDown {α : Type} (block : List α) (source count n : Nat)
    (inside : source + count ≤ block.length) (small : n ≤ count) :
    (moveDown block source count).take n = (block.drop source).take n := by
  rw [moveDown,List.take_append_of_le_length
    (by simp only [List.length_take,List.length_drop]; omega),List.take_take,Nat.min_eq_left small]

/-- A byte of a heap block; `none` until something is written there. -/
abbrev Cell := Option Byte

def cstring : List Cell → Except Stop (List Byte)
  | [] => .error .fault
  | none::_ => .error .fault
  | some b::rest => if b = 0 then .ok [] else (cstring rest).map (b :: ·)

theorem cstring_terminated (text : List Byte) (rest : List Cell) (free : 0 ∉ text) :
    cstring (text.map some ++ some 0 :: rest) = .ok text := by
  induction text with
  | nil => simp [cstring]
  | cons b text ih =>
    have head : ¬ b = 0 := fun zero => free (by simp [zero])
    have tail := ih (fun member => free (by simp [member]))
    simp [cstring,head,tail,Except.map]

end Craftsman.Memory
