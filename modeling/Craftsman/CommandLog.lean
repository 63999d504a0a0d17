import Craftsman.Stream.Delimited
import Craftsman.Recording

/-! A record as the list of commands it was appended. The record refines that
list: appending puts one command at its end, and every cursor reads the
commands in order, whatever the other cursors do. -/
namespace Craftsman.CommandLog
open Craftsman.Memory Craftsman.Recording
open Craftsman.Stream.Delimited

structure Holds (rec : Record) (log : List (List Byte)) : Prop where
  layout : ∃ rest, rec.buf = (encode 0 log).map some ++ rest
  used : rec.usedBytes = (encode 0 log).length
  capacity : ∃ k ≤ 19, rec.allocBytes = 4096 * 2^k

/-- What a reader relies on: the used bytes are the commands, and fit the 32-bit counters. -/
structure Laid (rec : Record) (log : List (List Byte)) : Prop where
  layout : ∃ rest, rec.buf = (encode 0 log).map some ++ rest
  used : rec.usedBytes = (encode 0 log).length
  small : rec.usedBytes < 2^32

structure Cursor (log : List (List Byte)) (k : Nat) (off : RecordOffset) : Prop where
  bytes : off.byteCount = (encode 0 (log.take k)).length
  commands : off.commandCount = k
  inside : k ≤ log.length

/-- The sizes that doublings give in 32 bits. -/
theorem capacity_bounds {bytes : Nat} (capacity : ∃ k ≤ 19, bytes = 4096 * 2^k) : 4096 ≤ bytes ∧ bytes ≤ 2^31 := by
  obtain ⟨k,small,rfl⟩ := capacity
  have low : 2^0 ≤ 2^k := Nat.pow_le_pow_right (by decide) (Nat.zero_le k)
  have high : 2^k ≤ 2^19 := Nat.pow_le_pow_right (by decide) small
  omega

theorem Holds.bounded {rec : Record} {log : List (List Byte)} (holds : Holds rec log) :
    rec.usedBytes ≤ rec.allocBytes ∧ 4096 ≤ rec.allocBytes ∧ rec.allocBytes ≤ 2^31 := by
  obtain ⟨rest,layout⟩ := holds.layout
  have size := congrArg List.length layout
  simp only [rec.sized,List.length_append,List.length_map] at size
  refine ⟨?_,capacity_bounds holds.capacity⟩
  rw [holds.used]
  omega

theorem Holds.laid {rec : Record} {log : List (List Byte)} (holds : Holds rec log) : Laid rec log :=
  ⟨holds.layout,holds.used,by have := holds.bounded; omega⟩

theorem holds_alloc : Holds recordAlloc [] :=
  ⟨⟨_,rfl⟩,rfl,0,by decide,rfl⟩

theorem cursor_zero (log : List (List Byte)) : Cursor log 0 .zero :=
  ⟨rfl,rfl,Nat.zero_le _⟩

theorem Cursor.append {log : List (List Byte)} {k : Nat} {off : RecordOffset}
    (cursor : Cursor log k off) (more : List (List Byte)) : Cursor (log ++ more) k off :=
  ⟨by rw [cursor.bytes,List.take_append_of_le_length cursor.inside],cursor.commands,
    by simpa using Nat.le_add_right_of_le cursor.inside⟩

theorem Cursor.bytes_le {log : List (List Byte)} {k : Nat} {off : RecordOffset}
    (cursor : Cursor log k off) : off.byteCount ≤ (encode 0 log).length := by
  rw [cursor.bytes]
  exact (encode_take_before 0 log k).length_le

/-- Every command costs a byte, so the 32-bit counters never wrap. -/
theorem Holds.count_le {rec : Record} {log : List (List Byte)} (holds : Holds rec log) :
    log.length ≤ 2^31 := by
  have count := length_le_encode 0 log
  have bounds := holds.bounded
  rw [holds.used] at bounds
  omega

theorem realloc_capacity (rec grown : Record) (needed : Int)
    (capacity : ∃ k ≤ 19, rec.allocBytes = 4096 * 2^k)
    (done : recordRealloc rec needed = some grown) :
    (∃ k ≤ 19, grown.allocBytes = 4096 * 2^k) ∧ grown.usedBytes = rec.usedBytes ∧
      ∃ more, grown.buf = rec.buf ++ more := by
  obtain ⟨k,small,capacity⟩ := capacity
  unfold recordRealloc at done
  split at done
  · cases done
    exact ⟨⟨k,small,capacity⟩,rfl,[],by simp⟩
  · dsimp only at done
    split at done
    · simp at done
    · rename_i positive wraps
      cases done
      have grows : rec.allocBytes * 2 = 4096 * 2^(k+1) := by rw [capacity,Nat.pow_succ]; omega
      rcases Nat.lt_or_eq_of_le small with below | last
      · have high : 2^(k+1) ≤ 2^19 := Nat.pow_le_pow_right (by decide) below
        have kept : u32 (rec.allocBytes * 2) = rec.allocBytes * 2 := u32_of_lt (by omega)
        refine ⟨⟨k+1,below,by simp only [Record.resize]; rw [kept,grows]⟩,rfl,_,
          resize_buf _ _ (by rw [kept,rec.sized]; omega)⟩
      · exact absurd (by rw [grows,last]; decide) wraps

theorem append_holds (rec closed : Record) (log : List (List Byte)) (text : List Byte)
    (off next : RecordOffset) (holds : Holds rec log) (cursor : Cursor log log.length off)
    (ok : recordAppend text.length text rec off = .ok (closed,next)) :
    Holds closed (log ++ [text]) ∧ Cursor (log ++ [text]) (log ++ [text]).length next := by
  obtain ⟨grown,realloc,readable,room,buf,alloc,used,rfl⟩ := recordAppend_ok _ _ _ _ _ _ ok
  obtain ⟨capacity,sameUsed,more,grows⟩ := realloc_capacity _ _ _ holds.capacity realloc
  obtain ⟨rest,layout⟩ := holds.layout
  have offset : off.byteCount = (encode 0 log).length := by simpa using cursor.bytes
  have bound : closed.allocBytes ≤ 2^31 := by
    rw [alloc]
    exact (capacity_bounds capacity).2
  have wire : (encode 0 (log ++ [text])).length = off.byteCount + text.length + 1 := by
    simp only [encode_append,encode_singleton,List.length_append,offset,List.length_singleton]
    omega
  refine ⟨⟨?_,?_,by rw [alloc]; exact capacity⟩,⟨?_,?_,by simp⟩⟩
  · refine ⟨(rest ++ more).drop (text ++ [0]).length,?_⟩
    have front : grown.buf = (encode 0 log).map some ++ (rest ++ more) := by
      rw [grows,layout,List.append_assoc]
    have length : off.byteCount = ((encode 0 log).map some).length := by simpa using offset
    rw [buf,List.take_length,front,length,overwrite_front,encode_append,encode_singleton]
    simp
  · have needed : (off.byteCount + text.length + 1) % 2^64 = off.byteCount + text.length + 1 :=
      Nat.mod_eq_of_lt (by omega)
    rw [used,needed,sameUsed,holds.used,← offset,wire,Nat.max_eq_right (by omega),u32_of_lt (by rw [alloc] at bound; omega)]
  · rw [List.take_length,wire,u32_of_lt (by omega)]
  · have count := holds.count_le
    simp only [cursor.commands,List.length_append,List.length_singleton]
    exact u32_of_lt (by omega)

/-- An append that fits one doubling never touches a byte outside the block. -/
theorem append_inside (rec : Record) (log : List (List Byte)) (text : List Byte)
    (off : RecordOffset) (holds : Holds rec log) (cursor : Cursor log log.length off)
    (fits : off.byteCount + text.length + 1 ≤ 2 * rec.allocBytes)
    (narrow : off.byteCount + text.length + 1 < rec.allocBytes + 2^31) :
    recordAppend text.length text rec off ≠ .error .fault := by
  have bounds := holds.bounded
  have offset : off.byteCount = rec.usedBytes := by
    rw [holds.used,cursor.bytes,List.take_length]
  have needed : (off.byteCount + text.length + 1) % 2^64 = off.byteCount + text.length + 1 :=
    Nat.mod_eq_of_lt (by omega)
  have narrowed : int32 (((off.byteCount + text.length + 1) % 2^64 : Nat) - rec.allocBytes) =
      off.byteCount + text.length + 1 - rec.allocBytes := by
    rw [needed,int32_of_bounds] <;> omega
  intro failed
  unfold recordAppend at failed
  dsimp only at failed
  split at failed
  · simp at failed
  · rename_i grown realloc
    have room : off.byteCount + text.length + 1 ≤ grown.allocBytes := by
      rw [narrowed] at realloc
      unfold recordRealloc at realloc
      split at realloc
      · cases realloc
        omega
      · dsimp only at realloc
        split at realloc
        · simp at realloc
        · rename_i positive nonzero
          cases realloc
          simp only [Record.resize]
          have : u32 (rec.allocBytes * 2) = rec.allocBytes * 2 := by
            apply u32_of_lt
            rcases Nat.lt_or_eq_of_le bounds.2.2 with below | last
            · omega
            · exact absurd (by rw [last]; decide) nonzero
          omega
    simp only [Record.memcpy,Nat.le_refl,if_true,List.take_length,Record.store] at failed
    rw [dif_pos (by rw [grown.sized,List.length_map]; omega)] at failed
    simp only [bind,Except.bind] at failed
    rw [dif_pos] at failed
    · simp [pure,Except.pure] at failed
    · rw [overwrite_length _ _ _ (by rw [grown.sized,List.length_map]; omega),grown.sized]
      simpa using room

theorem append_no_fault (rec : Record) (log : List (List Byte)) (text : List Byte)
    (off : RecordOffset) (holds : Holds rec log) (cursor : Cursor log log.length off)
    (small : text.length + 1 ≤ 4096) :
    recordAppend text.length text rec off ≠ .error .fault := by
  have bounds := holds.bounded
  have offset : off.byteCount = rec.usedBytes := by
    rw [holds.used,cursor.bytes,List.take_length]
  apply append_inside rec log text off holds cursor <;> omega

theorem append_no_crash (rec : Record) (log : List (List Byte)) (text : List Byte)
    (off : RecordOffset) (holds : Holds rec log) (cursor : Cursor log log.length off)
    (fits : (encode 0 log).length + text.length + 1 ≤ 2^31) :
    recordAppend text.length text rec off ≠ .error .crash := by
  have bounds := holds.bounded
  have offset : off.byteCount = (encode 0 log).length := by rw [cursor.bytes,List.take_length]
  have needed : (off.byteCount + text.length + 1) % 2^64 = off.byteCount + text.length + 1 :=
    Nat.mod_eq_of_lt (by omega)
  have narrowed : int32 (((off.byteCount + text.length + 1) % 2^64 : Nat) - rec.allocBytes) =
      off.byteCount + text.length + 1 - rec.allocBytes := by
    rw [needed,int32_of_bounds] <;> omega
  have grows : ∃ grown, recordRealloc rec (off.byteCount + text.length + 1 - rec.allocBytes) = some grown := by
    unfold recordRealloc
    split
    · exact ⟨_,rfl⟩
    · have doubled : u32 (rec.allocBytes * 2) = rec.allocBytes * 2 := u32_of_lt (by omega)
      dsimp only
      rw [doubled,if_neg (by omega)]
      exact ⟨_,rfl⟩
  obtain ⟨grown,realloc⟩ := grows
  intro failed
  unfold recordAppend at failed
  dsimp only at failed
  rw [narrowed,realloc] at failed
  rcases (bind_error _ _ _).mp failed with copy | ⟨_,_,rest⟩
  · cases memcpy_error _ _ _ _ _ copy
  · rcases (bind_error _ _ _).mp rest with store | ⟨_,_,done⟩
    · cases store_error _ _ _ _ store
    · cases done

theorem append_succeeds (rec : Record) (log : List (List Byte)) (text : List Byte)
    (off : RecordOffset) (holds : Holds rec log) (cursor : Cursor log log.length off)
    (small : text.length + 1 ≤ 4096) (fits : (encode 0 log).length + text.length + 1 ≤ 2^31) :
    ∃ closed next, recordAppend text.length text rec off = .ok (closed,next) := by
  match result : recordAppend text.length text rec off with
  | .ok (closed,next) => exact ⟨closed,next,rfl⟩
  | .error .crash => exact absurd result (append_no_crash _ _ _ _ holds cursor fits)
  | .error .fault => exact absurd result (append_no_fault _ _ _ _ holds cursor small)

theorem Laid.here {rec : Record} {log : List (List Byte)} (laid : Laid rec log) (k : Nat) (more : k < log.length) :
    ∃ later, rec.buf.drop (encode 0 (log.take k)).length = log[k].map some ++ some 0 :: later := by
  obtain ⟨rest,layout⟩ := laid.layout
  have cut : encode 0 log = encode 0 (log.take k) ++ (log[k] ++ 0 :: encode 0 (log.drop (k+1))) := by
    conv_lhs => rw [← List.take_append_drop k log,List.drop_eq_getElem_cons more]
    rw [encode_append,encode_cons]
  refine ⟨(encode 0 (log.drop (k+1))).map some ++ rest,?_⟩
  rw [layout,cut,List.map_append,List.append_assoc]
  rw [List.drop_left' (by simp)]
  simp

/-- The next command ends inside the used bytes, and the counters behind it do not wrap. -/
theorem Laid.next {rec : Record} {log : List (List Byte)} (laid : Laid rec log) (k : Nat) (off : RecordOffset)
    (cursor : Cursor log k off) (more : k < log.length) :
    off.byteCount + log[k].length + 1 ≤ rec.usedBytes ∧
      Cursor log (k+1) ⟨u32 (off.byteCount + log[k].length + 1),u32 (off.commandCount + 1)⟩ := by
  have grows : (encode 0 (log.take (k+1))).length = off.byteCount + log[k].length + 1 := by
    rw [encode_take_succ 0 log k more]
    simp only [List.length_append,List.length_singleton,cursor.bytes]
    omega
  have below : (encode 0 (log.take (k+1))).length ≤ rec.usedBytes := by
    rw [laid.used]
    exact (encode_take_before 0 log (k+1)).length_le
  have small := laid.small
  have count := length_le_encode 0 log
  rw [← laid.used] at count
  refine ⟨by omega,?_,?_,more⟩
  · rw [grows,u32_of_lt (by omega)]
  · dsimp only
    rw [cursor.commands]
    exact u32_of_lt (by omega)

theorem Laid.read_next {rec : Record} {log : List (List Byte)} (laid : Laid rec log) (k : Nat) (off : RecordOffset)
    (free : Free 0 log) (cursor : Cursor log k off) (more : k < log.length) :
    ∃ next, recordRead rec off = .ok (some log[k],next) ∧ Cursor log (k+1) next := by
  obtain ⟨later,here⟩ := laid.here k more
  obtain ⟨inside,moved⟩ := laid.next k off cursor more
  refine ⟨_,?_,moved⟩
  rw [recordRead,if_neg (by omega),cursor.bytes,here,cstring_terminated _ _ (free _ (List.getElem_mem more))]
  rw [← cursor.bytes]
  rfl

theorem Laid.read_end {rec : Record} {log : List (List Byte)} (laid : Laid rec log) (off : RecordOffset)
    (cursor : Cursor log log.length off) : recordRead rec off = .ok (none,off) := by
  have offset : off.byteCount = rec.usedBytes := by
    rw [laid.used,cursor.bytes,List.take_length]
  rw [recordRead,if_pos (by omega)]

theorem read_next (rec : Record) (log : List (List Byte)) (k : Nat) (off : RecordOffset)
    (holds : Holds rec log) (free : Free 0 log) (cursor : Cursor log k off) (more : k < log.length) :
    ∃ next, recordRead rec off = .ok (some log[k],next) ∧ Cursor log (k+1) next :=
  holds.laid.read_next k off free cursor more

theorem read_end (rec : Record) (log : List (List Byte)) (off : RecordOffset)
    (holds : Holds rec log) (cursor : Cursor log log.length off) :
    recordRead rec off = .ok (none,off) := holds.laid.read_end off cursor

theorem Laid.playbackFrom {rec : Record} {log : List (List Byte)} (laid : Laid rec log)
    (free : Free 0 log) (fuel k i : Nat) (inside : k ≤ log.length) (enough : log.length ≤ k + fuel)
    (at_k : i = (encode 0 (log.take k)).length) :
    Recording.playbackFrom rec fuel i = .ok (log.drop k) := by
  induction fuel generalizing k i with
  | zero => simp [Recording.playbackFrom,List.drop_eq_nil_of_le (by omega : log.length ≤ k)]
  | succ fuel ih =>
    unfold Recording.playbackFrom
    rcases Nat.lt_or_eq_of_le inside with more | last
    · obtain ⟨later,here⟩ := laid.here k more
      obtain ⟨before,_⟩ := laid.next k ⟨i,k⟩ ⟨at_k,rfl,inside⟩ more
      have step : i + (log[k].length + 1) = (encode 0 (log.take (k+1))).length := by
        rw [encode_take_succ 0 log k more]
        simp only [List.length_append,List.length_singleton,at_k]
      dsimp only at before
      rw [if_pos (by omega),at_k,here,cstring_terminated _ _ (free _ (List.getElem_mem more)),ok_bind,← at_k,
        step,ih (k+1) _ more (by omega) rfl,ok_bind,List.drop_eq_getElem_cons more]
      rfl
    · have offset : i = rec.usedBytes := by rw [at_k,last,List.take_length,laid.used]
      rw [if_neg (by omega),last,List.drop_length]

theorem Laid.playback {rec : Record} {log : List (List Byte)} (laid : Laid rec log) (free : Free 0 log) :
    recordPlaybackAll rec = .ok log := by
  have count := length_le_encode 0 log
  have all := laid.playbackFrom free rec.usedBytes 0 0 (Nat.zero_le _) (by rw [laid.used]; omega) rfl
  rwa [List.drop_zero] at all

theorem playback_log (rec : Record) (log : List (List Byte)) (holds : Holds rec log)
    (free : Free 0 log) : recordPlaybackAll rec = .ok log := holds.laid.playback free

/-- The commands that went through the write offset, before and after the allocation. -/
structure Written (rw : RecordRW) (log : List (List Byte)) : Prop where
  cursor : Cursor log log.length rw.write
  absent : rw.record = none → log = []
  holds : ∀ rec, rw.record = some rec → Holds rec log

theorem written_empty : Written .empty [] :=
  ⟨cursor_zero [],fun _ => rfl,fun _ => (nomatch ·)⟩

theorem Written.alloc {rw : RecordRW} {log : List (List Byte)} (written : Written rw log)
    (absent : rw.record = none) : Written {rw with record := some recordAlloc} log := by
  refine ⟨written.cursor,(nomatch ·),?_⟩
  intro rec found
  cases found
  rw [written.absent absent]
  exact holds_alloc

theorem Written.read {rw : RecordRW} {log : List (List Byte)} (written : Written rw log) (off : RecordOffset) :
    Written {rw with read := off} log :=
  ⟨written.cursor,written.absent,written.holds⟩

theorem Written.append {rw : RecordRW} {log : List (List Byte)} (written : Written rw log)
    (rec closed : Record) (text : List Byte) (write : RecordOffset) (found : rw.record = some rec)
    (ok : recordAppend text.length text rec rw.write = .ok (closed,write)) :
    Written {rw with record := some closed, write := write} (log ++ [text]) := by
  obtain ⟨holds,cursor⟩ := append_holds _ _ _ _ _ _ (written.holds rec found) written.cursor ok
  refine ⟨cursor,(nomatch ·),?_⟩
  intro other same
  cases same
  exact holds

end Craftsman.CommandLog
