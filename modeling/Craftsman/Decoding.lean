import Craftsman.FrameStore
import Craftsman.Fifo

/-! Reading a record back: the scanning loops agree on its commands, and appending
these again from its start writes what is there. -/
namespace Craftsman.Decoding
open Craftsman.Memory Craftsman.Recording Craftsman.CommandLog Craftsman.FrameStore
open Craftsman.Stream.Delimited

/-- Reads until there is nothing more; none when the fuel ran out first. -/
def drain {α : Type} (read : RecordOffset → Except Stop (Option α × RecordOffset)) :
    Nat → RecordOffset → Except Stop (Option (List α × RecordOffset))
  | 0,_ => .ok none
  | fuel+1,off => do
    match ← read off with
    | (none,off) => return some ([],off)
    | (some item,off) =>
      let later ← drain read fuel off
      return later.map fun rest => (item::rest.1,rest.2)

/-- What appends leave: bytes that end in a terminator, in a block within the doublings
that 32 bits have room for. -/
structure Recorded (rec : Record) : Prop where
  inside : rec.usedBytes ≤ rec.allocBytes
  small : rec.usedBytes < 2^31
  narrow : rec.allocBytes ≤ 2^31
  written : ∃ bytes, rec.buf.take rec.usedBytes = bytes.map some ∧ (bytes = [] ∨ bytes.getLast? = some 0)

/-- Any appends, each at an offset behind which there are no bytes without a value. -/
inductive Appended : Record → Prop
  | alloc : Appended recordAlloc
  | append (rec closed : Record) (len : Nat) (input : List Byte) (off next : RecordOffset) (before : Appended rec)
      (reach : off.byteCount ≤ rec.usedBytes) (ok : recordAppend len input rec off = .ok (closed,next)) :
      Appended closed

structure SameContents (rec other : Record) : Prop where
  bytes : other.buf.take other.usedBytes = rec.buf.take rec.usedBytes
  used : other.usedBytes = rec.usedBytes
  alloc : other.allocBytes = rec.allocBytes

theorem closed_encode (bytes : List Byte) (closed : bytes = [] ∨ bytes.getLast? = some 0) :
    encode 0 (split 0 bytes).1 = bytes := by
  have whole := split_wire 0 bytes
  rcases List.eq_nil_or_concat (split 0 bytes).2 with empty | ⟨front,last,tail⟩
  · rw [empty,List.append_nil] at whole
    exact whole
  · rw [List.concat_eq_append] at tail
    rw [tail] at whole
    have ends : bytes.getLast? = some last := by
      rw [← whole,← List.append_assoc]
      exact List.getLast?_concat
    rcases closed with rfl | zero
    · cases ends
    · obtain rfl : last = 0 := Option.some.inj (ends.symm.trans zero)
      exact absurd (by rw [tail]; simp) (split_free 0 bytes).2

theorem laid_take (rec : Record) (log : List (List Byte)) (inside : rec.usedBytes ≤ rec.allocBytes)
    (small : rec.usedBytes < 2^31) (bytes : rec.buf.take rec.usedBytes = (encode 0 log).map some) : Laid rec log := by
  refine ⟨⟨rec.buf.drop rec.usedBytes,by rw [← bytes,List.take_append_drop]⟩,?_,by omega⟩
  have length := congrArg List.length bytes
  rwa [List.length_take_of_le (by rw [rec.sized]; exact inside),List.length_map] at length

theorem Recorded.log {rec : Record} (recorded : Recorded rec) :
    ∃ log, Free 0 log ∧ rec.buf.take rec.usedBytes = (encode 0 log).map some := by
  obtain ⟨bytes,there,closed⟩ := recorded.written
  exact ⟨(split 0 bytes).1,(split_free 0 bytes).1,by rw [there,closed_encode bytes closed]⟩

theorem overwrite_behind {α : Type} (block rest items : List α) (offset : Nat) (inside : offset ≤ block.length) :
    (overwrite (block ++ rest) offset items).take (max block.length (offset + items.length)) =
      overwrite block offset items := by
  have length : (overwrite block offset items).length = max block.length (offset + items.length) := by
    simp only [overwrite,List.length_append,List.length_take,List.length_drop]
    omega
  have cut : overwrite (block ++ rest) offset items =
      overwrite block offset items ++ rest.drop (offset + items.length - block.length) := by
    rw [overwrite,overwrite,List.take_append_of_le_length inside,List.drop_append,List.append_assoc,List.append_assoc,
      List.append_assoc]
  rw [cut,← length,List.take_left]

theorem overwrite_map {α β : Type} (form : α → β) (block items : List α) (offset : Nat) :
    overwrite (block.map form) offset (items.map form) = (overwrite block offset items).map form := by
  simp [overwrite]

theorem overwrite_closed (bytes new : List Byte) (offset : Nat) (closed : bytes = [] ∨ bytes.getLast? = some 0) :
    (overwrite bytes offset (new ++ [0])).getLast? = some 0 := by
  rcases List.eq_nil_or_concat (bytes.drop (offset + (new ++ [0]).length)) with empty | ⟨front,last,behind⟩
  · rw [overwrite,empty,List.append_nil,← List.append_assoc]
    exact List.getLast?_concat
  · rw [List.concat_eq_append] at behind
    rw [overwrite,behind,← List.append_assoc,List.getLast?_concat]
    have whole := List.take_append_drop (offset + (new ++ [0]).length) bytes
    rw [behind,← List.append_assoc] at whole
    rcases closed with rfl | zero
    · exact absurd whole (by simp)
    · rw [← whole,List.getLast?_concat] at zero
      exact zero

structure Made (rec : Record) : Prop where
  capacity : ∃ k ≤ 19, rec.allocBytes = 4096 * 2^k
  inside : rec.usedBytes ≤ rec.allocBytes
  written : ∃ bytes, rec.buf.take rec.usedBytes = bytes.map some ∧ (bytes = [] ∨ bytes.getLast? = some 0)

theorem append_made (rec closed : Record) (len : Nat) (input : List Byte) (off next : RecordOffset) (made : Made rec)
    (reach : off.byteCount ≤ rec.usedBytes) (ok : recordAppend len input rec off = .ok (closed,next)) : Made closed := by
  obtain ⟨grown,realloc,readable,room,buf,alloc,used,-⟩ := recordAppend_ok _ _ _ _ _ _ ok
  obtain ⟨capacity,same,more,grows⟩ := realloc_capacity _ _ _ made.capacity realloc
  obtain ⟨bytes,there,closes⟩ := made.written
  have inside := made.inside
  have bound : closed.allocBytes ≤ 2^31 := by
    rw [alloc]
    exact (capacity_bounds capacity).2
  have length : bytes.length = rec.usedBytes := by
    have count := congrArg List.length there
    rw [List.length_take_of_le (by rw [rec.sized]; exact inside),List.length_map] at count
    exact count.symm
  have longer : rec.allocBytes ≤ grown.allocBytes := by
    have count := congrArg List.length grows
    rw [List.length_append,grown.sized,rec.sized] at count
    omega
  have needed : (off.byteCount + len + 1) % 2^64 = off.byteCount + len + 1 := Nat.mod_eq_of_lt (by omega)
  have size : closed.usedBytes = max rec.usedBytes (off.byteCount + len + 1) := by
    rw [used,same,needed,u32_of_lt (by omega)]
  have count : ((input.take len ++ [0]).map (some : Byte → Cell)).length = len + 1 := by
    rw [List.length_map,List.length_append,List.length_take_of_le readable,List.length_singleton]
  refine ⟨by rw [alloc]; exact capacity,by rw [size,alloc]; omega,overwrite bytes off.byteCount (input.take len ++ [0]),?_,
    .inr (overwrite_closed bytes _ _ closes)⟩
  have front : grown.buf = bytes.map some ++ (rec.buf.drop rec.usedBytes ++ more) := by
    rw [grows,← there,← List.append_assoc,List.take_append_drop]
  have behind := overwrite_behind (bytes.map some) (rec.buf.drop rec.usedBytes ++ more)
    ((input.take len ++ [0]).map some) off.byteCount (by rw [List.length_map,length]; exact reach)
  rw [← front,← buf,count,List.length_map,length] at behind
  rw [size]
  exact behind.trans (overwrite_map some bytes _ off.byteCount)

theorem appended_made (rec : Record) (appended : Appended rec) : Made rec := by
  induction appended with
  | alloc => exact ⟨⟨0,by decide,rfl⟩,Nat.zero_le _,[],rfl,.inl rfl⟩
  | append rec closed len input off next _ reach ok ih => exact append_made rec closed len input off next ih reach ok

/-- What every sequence of appends leaves. -/
theorem appended_recorded (rec : Record) (appended : Appended rec) (small : rec.usedBytes < 2^31) : Recorded rec := by
  have made := appended_made rec appended
  exact ⟨made.inside,small,(capacity_bounds made.capacity).2,made.written⟩

section Readers
variable {rec : Record} {log : List (List Byte)} (laid : Laid rec log) (free : Free 0 log)
include laid free

theorem drain_read (fuel k : Nat) (off : RecordOffset) (cursor : Cursor log k off) (enough : log.length < k + fuel) :
    ∃ last, drain (recordRead rec) fuel off = .ok (some (log.drop k,last)) ∧ Cursor log log.length last := by
  induction fuel generalizing k off with
  | zero => exact absurd cursor.inside (by omega)
  | succ fuel ih =>
    rcases Nat.lt_or_eq_of_le cursor.inside with more | last
    · obtain ⟨next,read,moved⟩ := laid.read_next k off free cursor more
      obtain ⟨last,rest,done⟩ := ih (k+1) next moved (by omega)
      refine ⟨last,?_,done⟩
      rw [drain,read,ok_bind]
      dsimp only
      rw [rest,ok_bind,List.drop_eq_getElem_cons more]
      rfl
    · subst last
      refine ⟨off,?_,cursor⟩
      rw [drain,laid.read_end off cursor,ok_bind,List.drop_length]
      rfl

end Readers

def inForm {α β : Type} (read : RecordOffset → Except Stop (Option α × RecordOffset)) (form : α → β)
    (off : RecordOffset) : Except Stop (Option β × RecordOffset) :=
  (read off).map fun result => (result.1.map form,result.2)

/-- A reader that shows each item in another form drains to the items in that form. -/
theorem drain_form {α β : Type} (read : RecordOffset → Except Stop (Option α × RecordOffset)) (form : α → β)
    (fuel : Nat) (off last : RecordOffset) (items : List α)
    (drained : drain read fuel off = .ok (some (items,last))) :
    drain (inForm read form) fuel off = .ok (some (items.map form,last)) := by
  induction fuel generalizing off items with
  | zero => cases drained
  | succ fuel ih =>
    rw [drain] at drained
    obtain ⟨⟨item,next⟩,answer,drained⟩ := (bind_ok _ _ _).mp drained
    have shown : inForm read form off = .ok (item.map form,next) := by
      rw [inForm,answer]
      rfl
    rw [drain,shown,ok_bind]
    cases item with
    | none =>
      cases drained
      rfl
    | some item =>
      obtain ⟨later,rest,drained⟩ := (bind_ok _ _ _).mp drained
      cases later with
      | none => cases drained
      | some later =>
        cases drained
        dsimp only [Option.map_some]
        rw [ih next later.1 rest]
        rfl

section Appends

theorem store_same (rec : Record) (offset : Nat) (bytes : List Byte) (front rest : List Cell)
    (there : rec.buf = front ++ (bytes.map some ++ rest)) (at_front : front.length = offset) :
    rec.store offset bytes = .ok rec := by
  have room : offset + (bytes.map some).length ≤ rec.buf.length := by
    rw [there,← at_front]
    simp
  have same : overwrite rec.buf offset (bytes.map some) = rec.buf := by
    rw [there,← at_front,overwrite_front]
    simp
  unfold Record.store
  rw [dif_pos room]
  obtain ⟨buf,alloc,used,sized⟩ := rec
  simp only [same]

variable {rec : Record} {log : List (List Byte)} (laid : Laid rec log) (inside : rec.usedBytes ≤ rec.allocBytes)
  (small : rec.usedBytes < 2^31) (narrow : rec.allocBytes ≤ 2^31)
include laid inside small narrow

/-- Appending a command where it stands already changes nothing. -/
theorem append_again (k : Nat) (off : RecordOffset) (cursor : Cursor log k off) (more : k < log.length) :
    ∃ next, recordAppend log[k].length log[k] rec off = .ok (rec,next) ∧ Cursor log (k+1) next := by
  obtain ⟨ends,moved⟩ := laid.next k off cursor more
  obtain ⟨later,here⟩ := laid.here k more
  rw [← cursor.bytes] at here
  refine ⟨_,?_,moved⟩
  have needed : (off.byteCount + log[k].length + 1) % 2^64 = off.byteCount + log[k].length + 1 :=
    Nat.mod_eq_of_lt (by omega)
  have enough : int32 ((off.byteCount + log[k].length + 1 : Nat) - rec.allocBytes) ≤ 0 := by
    rw [int32_of_bounds] <;> omega
  have used : u32 (max rec.usedBytes (off.byteCount + log[k].length + 1)) = rec.usedBytes := by
    rw [Nat.max_eq_left ends,u32_of_lt (by omega)]
  have front : (rec.buf.take off.byteCount).length = off.byteCount :=
    List.length_take_of_le (by rw [rec.sized]; omega)
  have cut : rec.buf = rec.buf.take off.byteCount ++ (log[k].map some ++ some 0 :: later) := by
    rw [← here,List.take_append_drop]
  have text : rec.store off.byteCount log[k] = .ok rec := store_same rec _ _ _ _ cut front
  have close : rec.store (off.byteCount + log[k].length) [0] = .ok rec := by
    apply store_same rec _ [0] (rec.buf.take off.byteCount ++ log[k].map some) later
    · rw [List.append_assoc]
      exact cut
    · rw [List.length_append,front,List.length_map]
  unfold recordAppend
  dsimp only
  rw [needed,recordRealloc,if_pos enough]
  dsimp only
  rw [used,Record.memcpy,if_pos (le_refl _),List.take_length]
  change (rec.store off.byteCount log[k] >>= _) = _
  rw [text,ok_bind,close]
  rfl

theorem append_all_again (k : Nat) (off : RecordOffset) (cursor : Cursor log k off) :
    ∃ last, appendAll (log.drop k) rec off = .ok (rec,last) ∧ Cursor log log.length last := by
  generalize left : log.length - k = rest
  induction rest generalizing k off with
  | zero =>
    obtain rfl : k = log.length := by have := cursor.inside; omega
    exact ⟨off,by rw [List.drop_length]; rfl,cursor⟩
  | succ rest ih =>
    have more : k < log.length := by omega
    obtain ⟨next,append,moved⟩ := append_again laid inside small narrow k off cursor more
    obtain ⟨last,again,done⟩ := ih (k+1) next moved (by omega)
    refine ⟨last,?_,done⟩
    rw [List.drop_eq_getElem_cons more,appendAll,append,ok_bind]
    exact again

end Appends

theorem clone_same (rec : Record) (inside : rec.usedBytes ≤ rec.allocBytes) : SameContents rec (recordClone rec) := by
  refine ⟨?_,rfl,rfl⟩
  have whole : min rec.usedBytes rec.allocBytes = rec.usedBytes := Nat.min_eq_left inside
  have length : (rec.buf.take rec.usedBytes).length = rec.usedBytes :=
    List.length_take_of_le (by rw [rec.sized]; exact inside)
  change ((rec.buf.take (min rec.usedBytes rec.allocBytes) ++ List.replicate _ none).take rec.usedBytes) = _
  rw [whole,List.take_left' length]

/-- The three ways to read a record deliver the same commands and end at its last used
byte, and these commands appended again from the start leave it as it is. -/
theorem decode_append (rec : Record) (recorded : Recorded rec) :
    ∃ log : List (List Byte), (log.map fun text => text.length + 1).sum = rec.usedBytes ∧
      recordPlaybackAll rec = .ok log ∧
      (∀ fuel, rec.usedBytes < fuel →
        (∃ last, drain (recordPlayback rec) fuel .zero =
          .ok (some (log.map fun text => (text.length,text),last)) ∧ last.byteCount = rec.usedBytes) ∧
        ∃ last, drain (recordRead rec) fuel .zero = .ok (some (log,last)) ∧ last.byteCount = rec.usedBytes) ∧
      SameContents rec (recordClone rec) ∧
      ∀ other, SameContents rec other →
        ∃ last, appendAll log other .zero = .ok (other,last) ∧ last.byteCount = other.usedBytes := by
  obtain ⟨log,free,bytes⟩ := recorded.log
  have laid := laid_take rec log recorded.inside recorded.small bytes
  have ends (last : RecordOffset) (cursor : Cursor log log.length last) : last.byteCount = rec.usedBytes := by
    rw [laid.used,cursor.bytes,List.take_length]
  refine ⟨log,?_,laid.playback free,fun fuel enough => ?_,clone_same rec recorded.inside,fun other same => ?_⟩
  · rw [← length_encode 0,laid.used]
  · have count := length_le_encode 0 log
    rw [← laid.used] at count
    obtain ⟨last,all,done⟩ := drain_read laid free fuel 0 .zero (cursor_zero log) (by omega)
    rw [List.drop_zero] at all
    refine ⟨⟨last,?_,ends last done⟩,last,all,ends last done⟩
    have forms : recordPlayback rec = inForm (recordRead rec) fun text => (text.length,text) :=
      funext (Fifo.playback_read rec)
    rw [forms]
    exact drain_form _ _ fuel _ last log all
  · have there : other.buf.take other.usedBytes = (encode 0 log).map some := same.bytes.trans bytes
    have inside : other.usedBytes ≤ other.allocBytes := by rw [same.used,same.alloc]; exact recorded.inside
    have small : other.usedBytes < 2^31 := by rw [same.used]; exact recorded.small
    obtain ⟨last,all,done⟩ := append_all_again (laid_take other log inside small there) inside small
      (by rw [same.alloc]; exact recorded.narrow) 0 .zero (cursor_zero log)
    exact ⟨last,all,by rw [ends last done,same.used]⟩

theorem decode_append_letter :
    ∃ log, (log.map fun text => text.length + 1).sum = 2 ∧
      recordPlaybackAll ⟨[some 97,some 0],2,2,rfl⟩ = .ok log := by
  have recorded : Recorded ⟨[some 97,some 0],2,2,rfl⟩ :=
    ⟨le_refl _,by decide,by decide,[97,0],rfl,.inr rfl⟩
  obtain ⟨log,total,all,_⟩ := decode_append _ recorded
  exact ⟨log,total,all⟩

end Craftsman.Decoding
