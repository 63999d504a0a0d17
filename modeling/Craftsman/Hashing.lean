import Craftsman.Simulation

/-! The hash over the objects of the library, with which replicas are compared. -/
namespace Craftsman.Hashing
open Craftsman.Memory Craftsman.Dlfn Craftsman.Simulation

def djb2Const : UInt64 := 5381

/-- A `char` is signed. -/
def signed (c : Byte) : UInt64 := c.toInt8.toInt64.toUInt64

def mix (hashVal : UInt64) (c : Byte) : UInt64 := ((hashVal <<< 5) + hashVal) + signed c

def memhashCont (seed : UInt64) (buf : List Byte) : UInt64 := buf.foldl mix seed

def memhash (buf : List Byte) : UInt64 := memhashCont djb2Const buf

section Objects
variable {σ : Type} (library : Library σ) (objects : List Object) (memory : σ)

/-- The running hash and the table of `hash_objects`. -/
def hashObject (state : UInt64 × List UInt64) (entry : Object × Nat) : UInt64 × List UInt64 :=
  let hashVal := memhashCont state.1 (image library memory entry.1)
  (hashVal,state.2.set entry.2 hashVal)

def executeHash : List UInt64 :=
  (objects.zipIdx.foldl (hashObject library memory) (memhash [],List.replicate maxSymbols 0)).2

end Objects

theorem signed_injective : Function.Injective signed := by
  have back (c : Byte) : (signed c).toUInt8 = c := by
    apply UInt8.toBitVec_inj.mp
    ext i small
    have wide : i < 64 := by omega
    simp [signed,← BitVec.getLsbD_eq_getElem,BitVec.getLsbD_signExtend,small,wide]
  exact Function.LeftInverse.injective back

/-- 33 has an inverse modulo 2^64. -/
theorem mix_injective (c : Byte) : Function.Injective fun hashVal => mix hashVal c := by
  have times (hashVal : UInt64) : (hashVal <<< 5) + hashVal = 33 * hashVal := by
    apply UInt64.toNat_inj.mp
    simp [Nat.shiftLeft_eq]
    omega
  intro left right same
  have scaled : 33 * left = 33 * right := by
    rw [← times,← times]
    exact (UInt64.add_left_inj _).mp same
  calc left = 1117984489315730401 * (33 * left) := by rw [← UInt64.mul_assoc]; exact (UInt64.one_mul left).symm
    _ = 1117984489315730401 * (33 * right) := by rw [scaled]
    _ = right := by rw [← UInt64.mul_assoc]; exact UInt64.one_mul right

theorem memhashCont_injective (buf : List Byte) : Function.Injective fun seed => memhashCont seed buf := by
  induction buf with
  | nil => exact fun _ _ same => same
  | cons c buf ih => exact fun left right same => mix_injective c (ih same)

theorem memhashCont_append (seed : UInt64) (front rest : List Byte) :
    memhashCont seed (front ++ rest) = memhashCont (memhashCont seed front) rest := List.foldl_append

/-- A single differing byte is never lost again, however many bytes follow. -/
theorem memhashCont_differs (seed : UInt64) (front rest : List Byte) (a b : Byte) (differ : a ≠ b) :
    memhashCont seed (front ++ a::rest) ≠ memhashCont seed (front ++ b::rest) := by
  intro same
  rw [memhashCont_append,memhashCont_append] at same
  have mixed := memhashCont_injective rest same
  exact differ (signed_injective ((UInt64.add_right_inj _).mp mixed))

section Replicas
variable {σ : Type} (library : Library σ)

theorem hashObjects_entries (memory : σ) (objects : List Object) (start : Nat) (seed : UInt64) (table : List UInt64)
    (room : start + objects.length ≤ table.length) :
    let later := ((objects.zipIdx start).foldl (hashObject library memory) (seed,table)).2
    (∀ j, j < start → later[j]? = table[j]?) ∧
      ∀ j, j < objects.length →
        later[start + j]? = some (memhashCont seed ((objects.take (j+1)).flatMap (image library memory))) := by
  induction objects generalizing start seed table with
  | nil => exact ⟨fun _ _ => rfl,fun _ inside => absurd inside (Nat.not_lt_zero _)⟩
  | cons object objects ih =>
    rw [List.length_cons] at room
    have again := ih (start+1) (memhashCont seed (image library memory object))
      (table.set start (memhashCont seed (image library memory object))) (by rw [List.length_set]; omega)
    obtain ⟨kept,written⟩ := again
    refine ⟨fun j before => ?_,fun j inside => ?_⟩
    · rw [List.zipIdx_cons,List.foldl_cons]
      exact (kept j (by omega)).trans (List.getElem?_set_ne (by omega))
    · rw [List.zipIdx_cons,List.foldl_cons]
      cases j with
      | zero =>
        refine (kept start (by omega)).trans ?_
        rw [List.getElem?_set_self (by omega)]
        simp
      | succ j =>
        rw [List.length_cons] at inside
        have entry := written j (by omega)
        rw [Nat.add_assoc,Nat.add_comm 1 j] at entry
        rw [List.take_succ_cons,List.flatMap_cons,memhashCont_append]
        exact entry

theorem executeHash_entry (memory : σ) (objects : List Object) (few : objects.length ≤ maxSymbols) (j : Nat)
    (inside : j < objects.length) :
    (executeHash library objects memory)[j]? =
      some (memhash ((objects.take (j+1)).flatMap (image library memory))) := by
  have entries := hashObjects_entries library memory objects 0 (memhash []) (List.replicate maxSymbols 0)
    (by rw [List.length_replicate]; omega)
  have entry := entries.2 j inside
  rw [Nat.zero_add] at entry
  exact entry

/-- The images of the objects differ in the byte at `k` of object `i`, and nowhere else. -/
structure DifferAt (objects : List Object) (left right : σ) (i k : Nat) (object : Object) : Prop where
  here : objects[i]? = some object
  inside : k < object.bytes
  differ : library.byte left (object.address + k) ≠ library.byte right (object.address + k)
  same : ∀ j other n, objects[j]? = some other → n < other.bytes → ¬ (j = i ∧ n = k) →
    library.byte left (other.address + n) = library.byte right (other.address + n)

theorem image_split (memory : σ) (object : Object) (k : Nat) (inside : k < object.bytes) :
    image library memory object =
      (List.range k).map (fun n => library.byte memory (object.address + n)) ++
        library.byte memory (object.address + k) ::
          (List.range' (k+1) (object.bytes - (k+1))).map fun n => library.byte memory (object.address + n) := by
  have cut : List.range object.bytes = List.range k ++ k::List.range' (k+1) (object.bytes - (k+1)) := by
    have rest : object.bytes - k = object.bytes - (k+1) + 1 := by omega
    have joined := List.range'_append_1 (s := 0) (m := k) (n := object.bytes - k)
    rw [Nat.zero_add,Nat.add_sub_cancel' (Nat.le_of_lt inside)] at joined
    rw [← List.range'_succ,← rest,List.range_eq_range',List.range_eq_range',joined]
  rw [image,cut,List.map_append,List.map_cons]

variable {library} {objects : List Object} {left right : σ} {i k : Nat} {object : Object}

theorem DifferAt.images (at_byte : DifferAt library objects left right i k object) (part : List Object)
    (apart : ∀ other ∈ part, ∃ j, objects[j]? = some other ∧ j ≠ i) :
    part.flatMap (image library left) = part.flatMap (image library right) := by
  apply List.flatMap_congr
  intro other member
  obtain ⟨j,there,different⟩ := apart other member
  apply List.map_congr_left
  intro n short
  exact at_byte.same j other n there (List.mem_range.mp short) fun again => different again.1

theorem DifferAt.before (at_byte : DifferAt library objects left right i k object) (j : Nat) (early : j ≤ i) :
    (objects.take j).flatMap (image library left) = (objects.take j).flatMap (image library right) := by
  apply at_byte.images
  intro other member
  obtain ⟨m,inside,there⟩ := List.mem_take_iff_getElem.mp member
  exact ⟨m,by rw [List.getElem?_eq_getElem (by omega),there],by omega⟩

theorem DifferAt.split (at_byte : DifferAt library objects left right i k object) (j : Nat) (late : i ≤ j) :
    ∃ front rest a b, a ≠ b ∧ (objects.take (j+1)).flatMap (image library left) = front ++ a::rest ∧
      (objects.take (j+1)).flatMap (image library right) = front ++ b::rest := by
  obtain ⟨bound,there⟩ := List.getElem?_eq_some_iff.mp at_byte.here
  have cut : objects.take (j+1) = objects.take i ++ object::(objects.drop (i+1)).take (j-i) := by
    have count : j + 1 = i + (j - i + 1) := by omega
    rw [count,List.take_add,List.drop_eq_getElem_cons bound,there,List.take_succ_cons]
  have behind : ((objects.drop (i+1)).take (j-i)).flatMap (image library left) =
      ((objects.drop (i+1)).take (j-i)).flatMap (image library right) := by
    apply at_byte.images
    intro other member
    obtain ⟨m,inside,same⟩ := List.mem_drop_iff_getElem.mp (List.mem_of_mem_take member)
    exact ⟨i+1+m,by rw [List.getElem?_eq_getElem (by omega),same],by omega⟩
  have bytes (n : Nat) (short : n < object.bytes) (other : n ≠ k) :
      library.byte left (object.address + n) = library.byte right (object.address + n) :=
    at_byte.same i object n at_byte.here short fun again => other again.2
  have low : (List.range k).map (fun n => library.byte left (object.address + n)) =
      (List.range k).map fun n => library.byte right (object.address + n) := by
    apply List.map_congr_left
    intro n member
    have below := List.mem_range.mp member
    exact bytes n (by have := at_byte.inside; omega) (by omega)
  have high : (List.range' (k+1) (object.bytes - (k+1))).map (fun n => library.byte left (object.address + n)) =
      (List.range' (k+1) (object.bytes - (k+1))).map fun n => library.byte right (object.address + n) := by
    apply List.map_congr_left
    intro n member
    have bounds := List.mem_range'_1.mp member
    exact bytes n (by omega) (by omega)
  refine ⟨(objects.take i).flatMap (image library right) ++
      (List.range k).map (fun n => library.byte right (object.address + n)),
    (List.range' (k+1) (object.bytes - (k+1))).map (fun n => library.byte right (object.address + n)) ++
      ((objects.drop (i+1)).take (j-i)).flatMap (image library right),_,_,at_byte.differ,?_,?_⟩
  · rw [cut,List.flatMap_append,List.flatMap_cons,at_byte.before i (le_refl _),behind,
      image_split library left object k at_byte.inside,low,high]
    simp
  · rw [cut,List.flatMap_append,List.flatMap_cons,image_split library right object k at_byte.inside]
    simp

end Replicas

/-- The hashes agree before the object with the differing byte and differ from it on;
each is the hash of all bytes up to its object. -/
theorem hash_locates {σ : Type} (library : Library σ) (objects : List Object) (few : objects.length ≤ maxSymbols)
    (left right : σ) (i k : Nat) (object : Object) (at_byte : DifferAt library objects left right i k object) :
    (∀ j, j < i → (executeHash library objects left)[j]? = (executeHash library objects right)[j]?) ∧
      (∀ j, i ≤ j → j < objects.length →
        (executeHash library objects left)[j]? ≠ (executeHash library objects right)[j]?) ∧
      ∀ memory j, j < objects.length → (executeHash library objects memory)[j]? =
        some (memhash ((objects.take (j+1)).flatMap (image library memory))) := by
  have bound := (List.getElem?_eq_some_iff.mp at_byte.here).1
  refine ⟨fun j before => ?_,fun j late inside => ?_,fun memory j inside =>
    executeHash_entry library memory objects few j inside⟩
  · rw [executeHash_entry library left objects few j (by omega),executeHash_entry library right objects few j (by omega),
      at_byte.before (j+1) (by omega)]
  · rw [executeHash_entry library left objects few j inside,executeHash_entry library right objects few j inside]
    obtain ⟨front,rest,a,b,differ,first,second⟩ := at_byte.split j late
    rw [first,second]
    intro same
    exact memhashCont_differs _ front rest a b differ (Option.some.inj same)

/-- Memory of two bytes, one object each. -/
def pairLibrary : Library (Byte × Byte) where
  symbols := []
  init := (0,0)
  call := fun memory _ _ => (memory,0)
  byte := fun memory address => if address = 0 then memory.1 else memory.2

theorem hash_locates_second :
    (executeHash pairLibrary [⟨[97],0,1⟩,⟨[98],1,1⟩] (0,1))[0]? =
      (executeHash pairLibrary [⟨[97],0,1⟩,⟨[98],1,1⟩] (0,129))[0]? := by
  have at_byte : DifferAt pairLibrary [⟨[97],0,1⟩,⟨[98],1,1⟩] (0,1) (0,129) 1 0 ⟨[98],1,1⟩ := by
    refine ⟨rfl,by decide,by decide,fun j other n here short apart => ?_⟩
    match j with
    | 0 =>
      obtain rfl := Option.some.inj here
      obtain rfl : n = 0 := Nat.lt_one_iff.mp short
      rfl
    | 1 =>
      obtain rfl := Option.some.inj here
      exact absurd ⟨rfl,Nat.lt_one_iff.mp short⟩ apart
    | _+2 => cases here
  exact (hash_locates pairLibrary _ (by decide) _ _ 1 0 _ at_byte).1 0 (by decide)

end Craftsman.Hashing
