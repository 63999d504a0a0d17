import Craftsman.Memory

/-! The append-only command record. A record owns one heap block, kept as long
as its allocation; offsets are 32-bit byte and command counters that several
readers and one writer advance independently. -/
namespace Craftsman.Recording
open Craftsman.Memory

structure Record where
  buf : List Cell
  allocBytes : Nat
  usedBytes : Nat
  sized : buf.length = allocBytes

structure RecordOffset where
  byteCount : Nat
  commandCount : Nat
  deriving DecidableEq, Repr

def RecordOffset.zero : RecordOffset := ⟨0,0⟩

/-- A record with one read and one write offset; no record before the first allocation. -/
structure RecordRW where
  record : Option Record
  read : RecordOffset
  write : RecordOffset

def RecordRW.empty : RecordRW := ⟨none,.zero,.zero⟩

def recordAlloc : Record :=
  ⟨List.replicate (4 * 1024) none,4 * 1024,0,List.length_replicate⟩

/-- `realloc`: the common part of the block is kept, new bytes have no value. -/
def Record.resize (rec : Record) (bytes : Nat) : Record :=
  ⟨rec.buf.take bytes ++ List.replicate (bytes - rec.buf.length) none,bytes,rec.usedBytes,by
    simp only [List.length_append,List.length_take,List.length_replicate]; omega⟩

/-- A single doubling in 32-bit arithmetic. A size that wraps to zero makes
`realloc` release the block and return no pointer. -/
def recordRealloc (rec : Record) (bytesNeeded : Int) : Option Record :=
  if bytesNeeded ≤ 0 then some rec
  else
    let doubled := u32 (rec.allocBytes * 2)
    if doubled = 0 then none else some (rec.resize doubled)

def Record.store (rec : Record) (offset : Nat) (bytes : List Byte) : Except Stop Record :=
  if inside : offset + (bytes.map some).length ≤ rec.buf.length then
    .ok ⟨overwrite rec.buf offset (bytes.map some),rec.allocBytes,rec.usedBytes,
      (overwrite_length _ _ _ inside).trans rec.sized⟩
  else .error .fault

/-- `memcpy` of `len` bytes from an object of which `input` can be read. -/
def Record.memcpy (rec : Record) (offset : Nat) (input : List Byte) (len : Nat) : Except Stop Record :=
  if len ≤ input.length then rec.store offset (input.take len) else .error .fault

/-- The size test is a 64-bit difference narrowed to `int`. -/
def recordAppend (len : Nat) (input : List Byte) (rec : Record) (off : RecordOffset) :
    Except Stop (Record × RecordOffset) := do
  let byteOffset := off.byteCount
  let needed : Nat := (byteOffset + len + 1) % 2^64
  match recordRealloc rec (int32 ((needed : Int) - rec.allocBytes)) with
  | none => .error .crash
  | some grown =>
    let sized := {grown with usedBytes := u32 (max grown.usedBytes needed)}
    let copied ← sized.memcpy byteOffset input len
    let closed ← copied.store (byteOffset + len) [0]
    return (closed,⟨u32 (off.byteCount + len + 1),u32 (off.commandCount + 1)⟩)

def recordRead (rec : Record) (off : RecordOffset) :
    Except Stop (Option (List Byte) × RecordOffset) :=
  if rec.usedBytes ≤ off.byteCount then .ok (none,off)
  else do
    let cmd ← cstring (rec.buf.drop off.byteCount)
    return (some cmd,⟨u32 (off.byteCount + cmd.length + 1),u32 (off.commandCount + 1)⟩)

def recordPlayback (rec : Record) (off : RecordOffset) :
    Except Stop (Option (Nat × List Byte) × RecordOffset) :=
  if rec.usedBytes ≤ off.byteCount then .ok (none,off)
  else do
    let text ← cstring (rec.buf.drop off.byteCount)
    return (some (text.length,text),⟨u32 (off.byteCount + text.length + 1),u32 (off.commandCount + 1)⟩)

def playbackFrom (rec : Record) : Nat → Nat → Except Stop (List (List Byte))
  | 0,_ => .ok []
  | fuel+1,i =>
    if i < rec.usedBytes then do
      let text ← cstring (rec.buf.drop i)
      let later ← playbackFrom rec fuel (i + (text.length + 1))
      return text::later
    else .ok []

/-- Each round advances by at least one byte, so the used size bounds the rounds. -/
def recordPlaybackAll (rec : Record) : Except Stop (List (List Byte)) :=
  playbackFrom rec rec.usedBytes 0

/-- The bytes of a block; a byte without a value cannot be copied. -/
def Record.load (rec : Record) (offset len : Nat) : Except Stop (List Byte) :=
  if offset + len ≤ rec.buf.length then
    match ((rec.buf.drop offset).take len).mapM id with
    | some bytes => .ok bytes
    | none => .error .fault
  else .error .fault

def recordReadBytes (rec : Record) (len : Nat) (buffer : List Byte) (off : RecordOffset) :
    Except Stop (Bool × List Byte × RecordOffset) :=
  if rec.usedBytes ≤ (off.byteCount + len) % 2^64 then .ok (false,buffer,off)
  else do
    let bytes ← rec.load off.byteCount len
    return (true,overwrite buffer 0 bytes,⟨u32 (off.byteCount + len + 1),u32 (off.commandCount + 1)⟩)

/-- Only the used bytes are copied. -/
def recordClone (rec : Record) : Record :=
  ⟨rec.buf.take (min rec.usedBytes rec.allocBytes) ++
      List.replicate (rec.allocBytes - min rec.usedBytes rec.allocBytes) none,rec.allocBytes,rec.usedBytes,by
    have := rec.sized
    simp only [List.length_append,List.length_take,List.length_replicate]; omega⟩

theorem recordAppend_congr (len : Nat) (first second : List Byte) (rec : Record) (off : RecordOffset)
    (left : len ≤ first.length) (right : len ≤ second.length) (same : first.take len = second.take len) :
    recordAppend len first rec off = recordAppend len second rec off := by
  unfold recordAppend Record.memcpy
  simp only [left,right,same,if_true]

theorem resize_buf (rec : Record) (bytes : Nat) (bigger : rec.buf.length ≤ bytes) :
    (rec.resize bytes).buf = rec.buf ++ List.replicate (bytes - rec.buf.length) none := by
  simp [Record.resize,List.take_of_length_le bigger]

theorem store_ok (rec closed : Record) (offset : Nat) (bytes : List Byte) :
    rec.store offset bytes = .ok closed ↔
      offset + bytes.length ≤ rec.allocBytes ∧ closed.buf = overwrite rec.buf offset (bytes.map some) ∧
        closed.allocBytes = rec.allocBytes ∧ closed.usedBytes = rec.usedBytes := by
  obtain ⟨buf,alloc,used,sized⟩ := rec
  obtain ⟨buf',alloc',used',sized'⟩ := closed
  subst sized
  unfold Record.store
  by_cases inside : offset + bytes.length ≤ buf.length
  · simp only [List.length_map,inside,dite_true,Except.ok.injEq,Record.mk.injEq,true_and]
    exact ⟨fun ⟨a,b,c⟩ => ⟨a.symm,b.symm,c.symm⟩,fun ⟨a,b,c⟩ => ⟨a.symm,b.symm,c.symm⟩⟩
  · simp [inside]

theorem memcpy_ok (rec copied : Record) (offset len : Nat) (input : List Byte) :
    rec.memcpy offset input len = .ok copied ↔
      len ≤ input.length ∧ rec.store offset (input.take len) = .ok copied := by
  unfold Record.memcpy
  by_cases readable : len ≤ input.length <;> simp [readable]

theorem store_error (rec : Record) (offset : Nat) (bytes : List Byte) (stop : Stop)
    (failed : rec.store offset bytes = .error stop) : stop = .fault := by
  unfold Record.store at failed
  split at failed
  · simp at failed
  · exact (Except.error.inj failed).symm

theorem memcpy_error (rec : Record) (offset len : Nat) (input : List Byte) (stop : Stop)
    (failed : rec.memcpy offset input len = .error stop) : stop = .fault := by
  unfold Record.memcpy at failed
  split at failed
  · exact store_error _ _ _ _ failed
  · exact (Except.error.inj failed).symm

theorem recordAppend_ok (len : Nat) (input : List Byte) (rec closed : Record)
    (off next : RecordOffset) (ok : recordAppend len input rec off = .ok (closed,next)) :
    ∃ grown, recordRealloc rec (int32 (((off.byteCount + len + 1) % 2^64 : Nat) - rec.allocBytes)) = some grown ∧
      len ≤ input.length ∧ off.byteCount + len + 1 ≤ grown.allocBytes ∧
      closed.buf = overwrite grown.buf off.byteCount ((input.take len ++ [0]).map some) ∧
      closed.allocBytes = grown.allocBytes ∧
      closed.usedBytes = u32 (max grown.usedBytes ((off.byteCount + len + 1) % 2^64)) ∧
      next = ⟨u32 (off.byteCount + len + 1),u32 (off.commandCount + 1)⟩ := by
  unfold recordAppend at ok
  dsimp only at ok
  split at ok
  · simp at ok
  · rename_i grown realloc
    obtain ⟨copied,copy,ok⟩ := (bind_ok _ _ _).mp ok
    obtain ⟨stored,store,ok⟩ := (bind_ok _ _ _).mp ok
    simp only [pure,Except.pure,Except.ok.injEq,Prod.mk.injEq] at ok
    obtain ⟨rfl,rfl⟩ := ok
    obtain ⟨readable,copy⟩ := (memcpy_ok _ _ _ _ _).mp copy
    obtain ⟨inside,buf,alloc,used⟩ := (store_ok _ _ _ _).mp copy
    obtain ⟨room,buf',alloc',used'⟩ := (store_ok _ _ _ _).mp store
    have taken : (input.take len).length = len := List.length_take_of_le readable
    have fits : off.byteCount + ((input.take len).map some).length ≤ grown.buf.length := by
      rw [grown.sized,List.length_map]; exact inside
    refine ⟨grown,realloc,readable,?_,?_,by simpa [alloc] using alloc',by simpa [used] using used',rfl⟩
    · simp only [alloc,List.length_singleton] at room
      omega
    · have joined := overwrite_overwrite grown.buf ((input.take len).map some) ([0].map some)
        off.byteCount fits
      rw [List.length_map,taken] at joined
      simpa only [buf',buf,List.map_append] using joined

end Craftsman.Recording
