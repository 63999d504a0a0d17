import Craftsman.Client
import Craftsman.Stream.Delimited

/-! The frames the decoder is meant to read: a little-endian block length, three
digits naming the player, a NUL, and a command closed by the only NUL of its block. -/
namespace Craftsman.Frames
open Craftsman.Memory Craftsman.Client

/-- A well-formed frame; its block length and its total length are positive `int`s. -/
structure Frame where
  player : Fin 4
  text : List Byte
  nulFree : 0 ∉ text
  encodable : text.length + 9 < 2^31

def Frame.header (frame : Frame) : List Byte :=
  le32 (frame.text.length + 1) ++ [48,48,48 + UInt8.ofNat frame.player.val,0]

def Frame.bytes (frame : Frame) : List Byte := frame.header ++ (frame.text ++ [0])

def Frame.size (frame : Frame) : Nat := frame.text.length + 9

def wire (frames : List Frame) : List Byte := frames.flatMap Frame.bytes

def texts (player : Fin 4) (frames : List Frame) : List (List Byte) :=
  (frames.filter (fun frame => frame.player = player)).map Frame.text

def bytesOf (player : Fin 4) (frames : List Frame) : Nat :=
  ((frames.filter (fun frame => frame.player = player)).map Frame.size).sum

theorem header_length (frame : Frame) : frame.header.length = 8 := rfl

@[simp] theorem bytes_length (frame : Frame) : frame.bytes.length = frame.size := by
  simp only [Frame.bytes,List.length_append,header_length,List.length_singleton,Frame.size]
  omega

@[simp] theorem wire_nil : wire [] = [] := rfl

@[simp] theorem wire_cons (frame : Frame) (rest : List Frame) :
    wire (frame::rest) = frame.bytes ++ wire rest := rfl

@[simp] theorem wire_append (first second : List Frame) :
    wire (first ++ second) = wire first ++ wire second := by simp [wire]

theorem texts_append (player : Fin 4) (first second : List Frame) :
    texts player (first ++ second) = texts player first ++ texts player second := by simp [texts]

theorem bytesOf_append (player : Fin 4) (first second : List Frame) :
    bytesOf player (first ++ second) = bytesOf player first + bytesOf player second := by simp [bytesOf]

theorem texts_same (frame : Frame) : texts frame.player [frame] = [frame.text] := by simp [texts]

theorem texts_other (frame : Frame) (player : Fin 4) (other : player ≠ frame.player) :
    texts player [frame] = [] := by simp [texts,Ne.symm other]

theorem bytesOf_same (frame : Frame) : bytesOf frame.player [frame] = frame.size := by simp [bytesOf]

theorem bytesOf_other (frame : Frame) (player : Fin 4) (other : player ≠ frame.player) :
    bytesOf player [frame] = 0 := by simp [bytesOf,Ne.symm other]

theorem texts_free (player : Fin 4) (frames : List Frame) :
    Stream.Delimited.Free 0 (texts player frames) := by
  intro text member
  obtain ⟨frame,_,rfl⟩ := List.mem_map.mp member
  exact frame.nulFree

theorem readInt_le32 (n : Nat) (rest : List Byte) (small : n < 2^31) : readInt (le32 n ++ rest) = n := by
  have value : (UInt8.ofNat n).toNat + 256 * (UInt8.ofNat (n / 256)).toNat +
      65536 * (UInt8.ofNat (n / 65536)).toNat + 16777216 * (UInt8.ofNat (n / 16777216)).toNat = n := by
    simp only [UInt8.toNat_ofNat']
    omega
  change int32 ((_ : Nat) : Int) = n
  simp only [le32,List.cons_append,List.nil_append,List.getElem?_cons_zero,List.getElem?_cons_succ,
    Option.getD_some]
  rw [value,int32_of_bounds (by omega) (by omega)]

theorem digit_player (player : Fin 4) :
    fixedAtoi 48 48 (48 + UInt8.ofNat player.val) = player.val := by
  revert player; decide

theorem header_read (frame : Frame) (bytes more rest : List Byte) (enough : 8 ≤ bytes.length)
    (same : bytes ++ more = frame.bytes ++ rest) :
    readInt bytes = frame.text.length + 1 ∧ playerId bytes = frame.player.val := by
  have kept (i : Nat) (small : i < 8) : bytes[i]? = (frame.bytes ++ rest)[i]? := by
    rw [← same,List.getElem?_append_left (by omega)]
  have length : readInt bytes = readInt (frame.bytes ++ rest) := by
    unfold readInt
    rw [kept 0 (by decide),kept 1 (by decide),kept 2 (by decide),kept 3 (by decide)]
  have player : playerId bytes = playerId (frame.bytes ++ rest) := by
    unfold playerId
    rw [kept 4 (by decide),kept 5 (by decide),kept 6 (by decide)]
  have long := frame.encodable
  constructor
  · rw [length,Frame.bytes,Frame.header,List.append_assoc,List.append_assoc,readInt_le32 _ _ (by omega)]
    omega
  · rw [player]
    exact digit_player frame.player

theorem wire_head (frames : List Frame) (bytes more : List Byte) (some_bytes : bytes ≠ [])
    (same : bytes ++ more = wire frames) : ∃ frame rest, frames = frame::rest := by
  cases frames with
  | nil =>
    rw [wire_nil,List.append_eq_nil_iff] at same
    exact absurd same.1 some_bytes
  | cons frame rest => exact ⟨frame,rest,rfl⟩

theorem wire_complete (frame : Frame) (rest : List Frame) (bytes more : List Byte)
    (enough : frame.size ≤ bytes.length) (same : bytes ++ more = wire (frame::rest)) :
    bytes = frame.bytes ++ bytes.drop frame.size ∧ bytes.drop frame.size ++ more = wire rest := by
  have front : bytes.take frame.size = frame.bytes := by
    have cut := congrArg (List.take frame.size) same
    rw [List.take_append_of_le_length enough,wire_cons,← bytes_length,List.take_left'] at cut
    · rw [← bytes_length]; exact cut
    · rfl
  have split : bytes = frame.bytes ++ bytes.drop frame.size := by
    conv_lhs => rw [← List.take_append_drop frame.size bytes,front]
  refine ⟨split,?_⟩
  rw [split,wire_cons,List.append_assoc,List.append_cancel_left_eq] at same
  exact same

end Craftsman.Frames
