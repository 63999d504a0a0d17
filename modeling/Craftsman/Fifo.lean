import Craftsman.CommandLog
import Mathlib.Logic.Function.Basic

/-! A record with one writer and any number of independent readers, in any order
of their operations. -/
namespace Craftsman.Fifo
open Craftsman.Memory Craftsman.Recording Craftsman.CommandLog
open Craftsman.Stream.Delimited

inductive Op where
  | append (text : List Byte)
  | read (reader : Nat)
  | playback (reader : Nat)

def appended (ops : List Op) : List (List Byte) :=
  ops.filterMap fun
    | .append text => some text
    | _ => none

structure Log where
  record : Record
  write : RecordOffset
  readers : Nat → RecordOffset
  delivered : Nat → List (Nat × List Byte)

def Log.start : Log := ⟨recordAlloc,.zero,fun _ => .zero,fun _ => []⟩

def Log.answer (log : Log) (i : Nat) (answer : Option (Nat × List Byte)) (off : RecordOffset) : Log :=
  {log with
    readers := Function.update log.readers i off
    delivered := Function.update log.delivered i (log.delivered i ++ answer.toList)}

def step (log : Log) : Op → Except Stop Log
  | .append text => do
    let (record,write) ← recordAppend text.length text log.record log.write
    return {log with record := record, write := write}
  | .read i => do
    let (cmd,off) ← recordRead log.record (log.readers i)
    return log.answer i (cmd.map fun text => (text.length,text)) off
  | .playback i => do
    let (event,off) ← recordPlayback log.record (log.readers i)
    return log.answer i event off

structure Legal (commands : List (List Byte)) : Prop where
  free : Free 0 commands
  short : ∀ text ∈ commands, text.length + 1 ≤ 4096
  total : (encode 0 commands).length < 2^31

/-- The record is the list of commands, and every reader was given the first of them in order. -/
structure Shelved (commands : List (List Byte)) (log : Log) : Prop where
  free : Free 0 commands
  holds : Holds log.record commands
  write : Cursor commands commands.length log.write
  reader : ∀ i, Cursor commands (log.delivered i).length (log.readers i)
  delivered : ∀ i, log.delivered i =
    (commands.take (log.delivered i).length).map fun text => (text.length,text)

theorem playback_read (rec : Record) (off : RecordOffset) : recordPlayback rec off =
    (recordRead rec off).map fun result => (result.1.map fun text => (text.length,text),result.2) := by
  unfold recordPlayback recordRead
  split
  · rfl
  · cases cstring (rec.buf.drop off.byteCount) <;> rfl

theorem read_answer (commands : List (List Byte)) (log : Log) (i : Nat) (shelved : Shelved commands log) :
    ∃ off, recordRead log.record (log.readers i) = .ok (commands[(log.delivered i).length]?,off) ∧
      Shelved commands (log.answer i (commands[(log.delivered i).length]?.map fun text => (text.length,text)) off) ∧
      (commands.length = (log.delivered i).length → off = log.readers i) := by
  have cursor := shelved.reader i
  have given := shelved.delivered i
  rcases Nat.lt_or_eq_of_le cursor.inside with more | last
  · obtain ⟨off,read,moved⟩ := read_next log.record commands _ _ shelved.holds shelved.free cursor more
    refine ⟨off,by rw [List.getElem?_eq_getElem more]; exact read,?_,by omega⟩
    rw [List.getElem?_eq_getElem more]
    refine ⟨shelved.free,shelved.holds,shelved.write,?_,?_⟩
    · intro j
      by_cases here : j = i
      · subst here
        simpa [Log.answer] using moved
      · simpa [Log.answer,Function.update_of_ne here] using shelved.reader j
    · intro j
      by_cases here : j = i
      · subst here
        rw [Log.answer]
        dsimp only
        rw [Function.update_self,Option.map_some,Option.toList_some,List.length_append,List.length_singleton,
          List.take_succ_eq_append_getElem more,List.map_append,← given]
        rfl
      · simpa [Log.answer,Function.update_of_ne here] using shelved.delivered j
  · have none := List.getElem?_eq_none (Nat.le_of_eq last.symm)
    rw [last] at cursor
    refine ⟨log.readers i,?_,?_,fun _ => rfl⟩
    · rw [none]
      exact read_end log.record commands _ shelved.holds cursor
    · rw [none]
      simpa [Log.answer] using shelved

theorem append_shelved (commands : List (List Byte)) (log : Log) (text : List Byte) (shelved : Shelved commands log)
    (nulFree : 0 ∉ text) (short : text.length + 1 ≤ 4096) (room : (encode 0 (commands ++ [text])).length < 2^31) :
    ∃ after, step log (.append text) = .ok after ∧ Shelved (commands ++ [text]) after := by
  rw [encode_append,encode_singleton,List.length_append,List.length_append,List.length_singleton] at room
  obtain ⟨closed,write,append⟩ := append_succeeds log.record commands text log.write shelved.holds shelved.write short
    (by omega)
  obtain ⟨holds,cursor⟩ := append_holds log.record closed commands text log.write write shelved.holds shelved.write append
  refine ⟨{log with record := closed, write := write},?_,?_,holds,cursor,fun i => (shelved.reader i).append [text],?_⟩
  · rw [step,append]
    rfl
  · exact shelved.free.append (by simpa [Free] using nulFree)
  · intro i
    rw [List.take_append_of_le_length (shelved.reader i).inside]
    exact shelved.delivered i

theorem step_shelved (commands : List (List Byte)) (log : Log) (op : Op) (shelved : Shelved commands log)
    (legal : Legal (commands ++ appended [op])) :
    ∃ after, step log op = .ok after ∧ Shelved (commands ++ appended [op]) after := by
  cases op with
  | append text =>
    have member : text ∈ commands ++ [text] := by simp
    exact append_shelved commands log text shelved (legal.free text member) (legal.short text member) legal.total
  | read i =>
    obtain ⟨off,read,moved,_⟩ := read_answer commands log i shelved
    refine ⟨_,?_,by simpa [appended] using moved⟩
    rw [step,read]
    rfl
  | playback i =>
    obtain ⟨off,read,moved,_⟩ := read_answer commands log i shelved
    refine ⟨_,?_,by simpa [appended] using moved⟩
    rw [step,playback_read,read]
    rfl

theorem Legal.earlier {first second : List (List Byte)} (legal : Legal (first ++ second)) : Legal first where
  free := legal.free.earlier (List.prefix_append first second)
  short := fun text member => legal.short text (List.mem_append_left second member)
  total := by
    have total := legal.total
    rw [encode_append,List.length_append] at total
    omega

theorem run_shelved (commands : List (List Byte)) (log : Log) (ops : List Op) (shelved : Shelved commands log)
    (legal : Legal (commands ++ appended ops)) :
    ∃ last, ops.foldlM step log = .ok last ∧ Shelved (commands ++ appended ops) last := by
  induction ops generalizing commands log with
  | nil => exact ⟨log,rfl,by simpa [appended] using shelved⟩
  | cons op ops ih =>
    have cut : appended (op::ops) = appended [op] ++ appended ops := by
      rw [appended,appended,appended,← List.filterMap_append]
      rfl
    rw [cut,← List.append_assoc] at legal ⊢
    obtain ⟨middle,one,held⟩ := step_shelved commands log op shelved legal.earlier
    obtain ⟨last,rest,kept⟩ := ih (commands ++ appended [op]) middle held legal
    refine ⟨last,?_,kept⟩
    rw [List.foldlM_cons,one,ok_bind]
    exact rest

theorem start_shelved : Shelved [] Log.start :=
  ⟨fun _ member => absurd member List.not_mem_nil,holds_alloc,cursor_zero [],fun _ => cursor_zero [],fun _ => rfl⟩

/-- In any order of operations every append stays inside the record's block, and
every reader is given the commands in order, each with its length, and nothing
exactly when it has them all. -/
theorem record_fifo (ops : List Op) (legal : Legal (appended ops)) :
    ∃ log, ops.foldlM step Log.start = .ok log ∧ log.record.usedBytes = log.write.byteCount ∧
      log.record.usedBytes ≤ log.record.allocBytes ∧ ∀ i,
        log.delivered i = ((appended ops).take (log.delivered i).length).map (fun text => (text.length,text)) ∧
        (log.readers i).commandCount = (log.delivered i).length ∧
        ∃ cmd off, recordRead log.record (log.readers i) = .ok (cmd,off) ∧
          recordPlayback log.record (log.readers i) = .ok (cmd.map fun text => (text.length,text),off) ∧
          cmd = (appended ops)[(log.delivered i).length]? ∧
          (cmd = none ↔ (log.delivered i).length = (appended ops).length) ∧ (cmd = none → off = log.readers i) := by
  obtain ⟨log,run,shelved⟩ := run_shelved [] Log.start ops start_shelved (by simpa using legal)
  rw [List.nil_append] at shelved
  have written := shelved.write.bytes
  rw [List.take_length,← shelved.holds.used] at written
  refine ⟨log,run,written.symm,shelved.holds.bounded.1,?_⟩
  intro i
  obtain ⟨off,read,_,stays⟩ := read_answer (appended ops) log i shelved
  have inside := (shelved.reader i).inside
  have ends : (appended ops)[(log.delivered i).length]? = none ↔ (log.delivered i).length = (appended ops).length := by
    rw [List.getElem?_eq_none_iff]
    omega
  refine ⟨shelved.delivered i,(shelved.reader i).commands,_,off,read,?_,rfl,ends,?_⟩
  · rw [playback_read,read]
    rfl
  · intro none
    exact stays (ends.mp none).symm

/-- Two commands, of which the first reader takes both and the second one. -/
def twoReaders : List Op := [.append [65],.append [66,67],.read 0,.playback 1,.read 0]

theorem record_fifo_two : ∃ log off, twoReaders.foldlM step Log.start = .ok log ∧
    log.delivered 0 = [(1,[65]),(2,[66,67])] ∧ log.delivered 1 = [(1,[65])] ∧
    recordRead log.record (log.readers 1) = .ok (some [66,67],off) := by
  obtain ⟨log,run,_,_,readers⟩ := record_fifo twoReaders ⟨by simp [Free,appended,twoReaders],by simp [appended,twoReaders],
    by decide⟩
  have counts : (twoReaders.foldlM step Log.start).map (fun log => ((log.delivered 0).length,(log.delivered 1).length)) =
      .ok (2,1) := by decide +kernel
  rw [run] at counts
  obtain ⟨first,second⟩ := Prod.mk.inj (Except.ok.inj counts)
  obtain ⟨given,_⟩ := readers 0
  obtain ⟨given',_,cmd,off,read,_,next,_⟩ := readers 1
  rw [first] at given
  rw [second] at given' next
  cases next
  exact ⟨log,off,run,given,given',read⟩

end Craftsman.Fifo
