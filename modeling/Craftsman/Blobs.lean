import Craftsman.FrameStore

/-! Binary entries of a record, read back by their lengths. -/
namespace Craftsman.Blobs
open Craftsman.Memory Craftsman.Recording Craftsman.CommandLog Craftsman.FrameStore
open Craftsman.Stream.Delimited

/-- One call of `record_read_bytes` for each buffer, of the buffer's length. -/
def readEach (rec : Record) : List (List Byte) → RecordOffset → Except Stop (List (Bool × List Byte) × RecordOffset)
  | [],off => .ok ([],off)
  | buffer::later,off => do
    let (done,filled,next) ← recordReadBytes rec buffer.length buffer off
    let (rest,last) ← readEach rec later next
    return ((done,filled)::rest,last)

/-- The used bytes alone: an access at or behind their end is outside this block. -/
def cutOff (rec : Record) : Record :=
  ⟨rec.buf.take rec.usedBytes,(rec.buf.take rec.usedBytes).length,rec.usedBytes,rfl⟩

/-- The offsets that calls with lengths below 2^32 lead to. -/
inductive ReadTo (rec : Record) : RecordOffset → Prop
  | start : ReadTo rec .zero
  | call (off next : RecordOffset) (len : Nat) (buffer filled : List Byte) (done : Bool) (before : ReadTo rec off)
      (short : len < 2^32) (ok : recordReadBytes rec len buffer off = .ok (done,filled,next)) : ReadTo rec next

theorem mapM_some (bytes : List Byte) : (bytes.map some).mapM id = some bytes := by
  induction bytes with
  | nil => rfl
  | cons b bytes ih => simp [ih]

theorem load_written (rec : Record) (offset : Nat) (front bytes : List Byte) (rest : List Cell)
    (there : rec.buf = (front ++ bytes).map some ++ rest) (at_front : front.length = offset) :
    rec.load offset bytes.length = .ok bytes := by
  have room : offset + bytes.length ≤ rec.buf.length := by
    rw [there,← at_front]
    simp
  have here : (rec.buf.drop offset).take bytes.length = bytes.map some := by
    rw [there,← at_front,List.map_append,List.append_assoc,List.drop_left' (List.length_map some),
      List.take_left' (List.length_map some)]
  rw [Record.load,if_pos room,here,mapM_some]

theorem load_inside (rec : Record) (offset len : Nat) (bytes : List Byte) (rest : List Cell)
    (there : rec.buf = bytes.map some ++ rest) (inside : offset + len ≤ bytes.length) :
    rec.load offset len = .ok ((bytes.drop offset).take len) := by
  have length : ((bytes.drop offset).take len).length = len := by
    rw [List.length_take_of_le (by rw [List.length_drop]; omega)]
  have cut : bytes = bytes.take offset ++ (bytes.drop offset).take len ++ (bytes.drop offset).drop len := by
    rw [List.append_assoc,List.take_append_drop,List.take_append_drop]
  have loaded := load_written rec offset (bytes.take offset) ((bytes.drop offset).take len)
    (((bytes.drop offset).drop len).map some ++ rest)
    (by rw [← List.append_assoc,← List.map_append,← cut,there]) (List.length_take_of_le (by omega))
  rwa [length] at loaded

section Reads
variable {rec : Record} {log : List (List Byte)} (laid : Laid rec log) (small : rec.usedBytes < 2^31)
include laid small

theorem read_blob (k : Nat) (off : RecordOffset) (cursor : Cursor log k off) (more : k < log.length)
    (buffer : List Byte) (room : buffer.length = log[k].length) :
    ∃ next, recordReadBytes rec buffer.length buffer off = .ok (true,log[k],next) ∧ Cursor log (k+1) next := by
  obtain ⟨ends,moved⟩ := laid.next k off cursor more
  obtain ⟨rest,layout⟩ := laid.layout
  have cut : encode 0 log = encode 0 (log.take k) ++ log[k] ++ 0::encode 0 (log.drop (k+1)) := by
    conv_lhs => rw [← List.take_append_drop k log,List.drop_eq_getElem_cons more]
    rw [encode_append,encode_cons,List.append_assoc]
  have loaded := load_written rec off.byteCount (encode 0 (log.take k)) log[k]
    ((0::encode 0 (log.drop (k+1))).map some ++ rest) (by rw [layout,cut,List.map_append,List.append_assoc])
    cursor.bytes.symm
  refine ⟨_,?_,moved⟩
  have sum : (off.byteCount + log[k].length) % 2^64 = off.byteCount + log[k].length := Nat.mod_eq_of_lt (by omega)
  rw [room,recordReadBytes,sum,if_neg (by omega),loaded,ok_bind,overwrite,← room]
  simp [pure,Except.pure]

theorem read_each (k : Nat) (off : RecordOffset) (cursor : Cursor log k off) (buffers : List (List Byte))
    (room : buffers.map List.length = (log.drop k).map List.length) :
    ∃ last, readEach rec buffers off = .ok ((log.drop k).map fun blob => (true,blob),last) ∧
      Cursor log log.length last := by
  induction buffers generalizing k off with
  | nil =>
    have done : log.drop k = [] := List.map_eq_nil_iff.mp room.symm
    have last := List.drop_eq_nil_iff.mp done
    obtain rfl : k = log.length := by have := cursor.inside; omega
    exact ⟨off,by rw [done]; rfl,cursor⟩
  | cons buffer buffers ih =>
    have more : k < log.length := by
      by_contra beyond
      rw [List.drop_eq_nil_of_le (by omega)] at room
      cases room
    rw [List.drop_eq_getElem_cons more] at room ⊢
    obtain ⟨head,tail⟩ := List.cons.inj room
    obtain ⟨next,read,moved⟩ := read_blob laid small k off cursor more buffer head
    obtain ⟨last,rest,done⟩ := ih (k+1) next moved tail
    refine ⟨last,?_,done⟩
    rw [readEach,read,ok_bind]
    dsimp only
    rw [rest]
    rfl

theorem read_done (last : RecordOffset) (cursor : Cursor log log.length last) (len : Nat) (buffer : List Byte)
    (short : len < 2^32) : recordReadBytes rec len buffer last = .ok (false,buffer,last) := by
  have offset : last.byteCount = rec.usedBytes := by rw [laid.used,cursor.bytes,List.take_length]
  rw [recordReadBytes,if_pos (by omega)]

/-- A call from within the used bytes does the same on these bytes alone. -/
theorem read_cut (off : RecordOffset) (inside : off.byteCount ≤ rec.usedBytes) (len : Nat) (buffer : List Byte)
    (short : len < 2^32) :
    ∃ done filled next, recordReadBytes rec len buffer off = .ok (done,filled,next) ∧
      recordReadBytes (cutOff rec) len buffer off = .ok (done,filled,next) ∧ next.byteCount ≤ rec.usedBytes := by
  obtain ⟨rest,layout⟩ := laid.layout
  have sum : (off.byteCount + len) % 2^64 = off.byteCount + len := Nat.mod_eq_of_lt (by omega)
  have alone : (cutOff rec).buf = (encode 0 log).map some ++ [] := by
    change rec.buf.take rec.usedBytes = _
    rw [layout,laid.used,List.take_left' (List.length_map some),List.append_nil]
  unfold recordReadBytes
  rw [sum]
  by_cases beyond : rec.usedBytes ≤ off.byteCount + len
  · rw [if_pos beyond]
    exact ⟨false,buffer,off,rfl,if_pos beyond,inside⟩
  · have bytes : off.byteCount + len ≤ (encode 0 log).length := by rw [← laid.used]; omega
    rw [if_neg beyond,load_inside rec _ _ _ rest layout bytes]
    refine ⟨_,_,_,rfl,?_,?_⟩
    · rw [if_neg (show ¬ (cutOff rec).usedBytes ≤ off.byteCount + len from beyond),
        load_inside (cutOff rec) _ _ _ [] alone bytes]
      rfl
    · rw [u32_of_lt (by omega)]
      exact Nat.not_le.mp beyond

theorem read_to_inside (off : RecordOffset) (reached : ReadTo rec off) : off.byteCount ≤ rec.usedBytes := by
  induction reached with
  | start => exact Nat.zero_le _
  | call off next len buffer filled done _ short ok ih =>
    obtain ⟨done',filled',next',again,_,inside⟩ := read_cut laid small off ih len buffer short
    rw [again] at ok
    cases ok
    exact inside

end Reads

theorem append_all_holds (texts log : List (List Byte)) (rec : Record) (off : RecordOffset) (holds : Holds rec log)
    (cursor : Cursor log log.length off) (short : ∀ text ∈ texts, text.length < 4096)
    (total : (encode 0 (log ++ texts)).length < 2^31) :
    ∃ closed next, appendAll texts rec off = .ok (closed,next) ∧ Holds closed (log ++ texts) := by
  induction texts generalizing log rec off with
  | nil => exact ⟨rec,off,rfl,by rw [List.append_nil]; exact holds⟩
  | cons text texts ih =>
    have here := short text List.mem_cons_self
    have sum : (encode 0 log).length + text.length + 1 ≤ (encode 0 (log ++ text::texts)).length := by
      simp only [encode_append,encode_cons,List.length_append,List.length_cons]
      omega
    obtain ⟨closed,next,append⟩ := append_succeeds rec log text off holds cursor (by omega) (by omega)
    obtain ⟨holds',cursor'⟩ := append_holds rec closed log text off next holds cursor append
    have joined : log ++ [text] ++ texts = log ++ text::texts := by simp
    obtain ⟨last,final,all,kept⟩ := ih (log ++ [text]) closed next holds' cursor'
      (fun other member => short other (List.mem_cons_of_mem text member)) (by rw [joined]; exact total)
    rw [joined] at kept
    exact ⟨last,final,by rw [appendAll,append,ok_bind]; exact all,kept⟩

/-- Entries of any bytes come back by their lengths; behind the last one every call
fails, and no call goes beyond the used bytes. -/
theorem blobs_round_trip (empty : Record) (start : Holds empty []) (blobs : List (List Byte))
    (short : ∀ blob ∈ blobs, blob.length < 4096) (total : (blobs.map fun blob => blob.length + 1).sum < 2^31) :
    ∃ rec write, appendAll blobs empty .zero = .ok (rec,write) ∧
      (∀ buffers, buffers.map List.length = blobs.map List.length →
        ∃ last, readEach rec buffers .zero = .ok (blobs.map fun blob => (true,blob),last) ∧
          ∀ len buffer, len < 2^32 → recordReadBytes rec len buffer last = .ok (false,buffer,last)) ∧
      ∀ off, ReadTo rec off → ∀ len buffer, len < 2^32 →
        ∃ result, recordReadBytes rec len buffer off = .ok result ∧
          recordReadBytes (cutOff rec) len buffer off = .ok result := by
  have wire : (blobs.map fun blob => blob.length + 1).sum = (encode 0 blobs).length := (length_encode 0 blobs).symm
  obtain ⟨rec,write,all,holds⟩ := append_all_holds blobs [] empty .zero start (cursor_zero []) short
    (by rw [List.nil_append,← wire]; exact total)
  rw [List.nil_append] at holds
  have small : rec.usedBytes < 2^31 := by rw [holds.used,← wire]; exact total
  refine ⟨rec,write,all,fun buffers room => ?_,fun off reached len buffer below => ?_⟩
  · obtain ⟨last,each,done⟩ := read_each holds.laid small 0 .zero (cursor_zero blobs) buffers
      (by rw [List.drop_zero]; exact room)
    rw [List.drop_zero] at each
    exact ⟨last,each,fun len buffer below => read_done holds.laid small last done len buffer below⟩
  · have inside := read_to_inside holds.laid small off reached
    obtain ⟨done,filled,next,whole,alone,_⟩ := read_cut holds.laid small off inside len buffer below
    exact ⟨_,whole,alone⟩

theorem blobs_round_trip_zeros : ∃ rec write, appendAll [[0,0],[]] recordAlloc .zero = .ok (rec,write) ∧
    ∃ last, readEach rec [[7,7],[]] .zero = .ok ([(true,[0,0]),(true,[])],last) := by
  obtain ⟨rec,write,all,each,_⟩ := blobs_round_trip recordAlloc holds_alloc [[0,0],[]] (by decide) (by decide)
  obtain ⟨last,read,_⟩ := each [[7,7],[]] rfl
  exact ⟨rec,write,all,last,read⟩

end Craftsman.Blobs
