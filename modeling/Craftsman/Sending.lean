import Craftsman.Progress
import Craftsman.Stream.Pieces

/-! The sender's side of the wire: which of the recorded bytes the socket has
taken, over any number of synchronizations. The read offset is moved before the
answer of the write is known, so a command is never sent a second time. -/
namespace Craftsman.Sending
open Craftsman.Memory Craftsman.Recording Craftsman.CommandLog Craftsman.Network Craftsman.Client
open Craftsman.Frames Craftsman.StandardInput Craftsman.Dlfn Craftsman.Execute Craftsman.GameLoop
open Craftsman.Simulation Craftsman.Iteration Craftsman.Progress
open Craftsman.Stream.Delimited Craftsman.Stream.Pieces

def attempt (line : List Byte) (answer : Write) : List Byte × Nat :=
  (line ++ [0],(taken answer (line ++ [0])).length)

def attempts (lines : List (List Byte)) (answers : List Write) : List (List Byte × Nat) :=
  List.zipWith attempt lines answers

/-- Commands are recorded, and synchronizations send them. Between these the
connection and the players' records may be anything. -/
inductive Run : List (List Byte) → List Write → RecordRW → List Byte → Prop
  | start : Run [] [] {RecordRW.empty with record := some recordAlloc} []
  | append (lines : List (List Byte)) (answers : List Write) (input : RecordRW) (outgoing : List Byte)
      (record closed : Record) (text : List Byte) (write : RecordOffset) (run : Run lines answers input outgoing)
      (nulFree : 0 ∉ text) (present : input.record = some record)
      (ok : recordAppend text.length text record input.write = .ok (closed,write)) :
      Run (lines ++ [text]) answers {input with record := some closed, write := write} outgoing
  | sync (lines : List (List Byte)) (answers : List Write) (input sent : RecordRW) (target : Nat)
      (conn after : Connection) (wires wires' : Wires) (recording stored : Recordings) (kernel : Kernel)
      (status : ConnStatus) (run : Run lines answers input wires.outgoing)
      (ok : connectionSync target conn wires input recording kernel = .ok (status,after,wires',sent,stored)) :
      Run lines
        (answers ++ (List.range (sent.read.commandCount - input.read.commandCount)).map kernel.writes)
        sent wires'.outgoing

section Wire

theorem taken_take (answer : Write) (bytes : List Byte) :
    taken answer bytes = bytes.take (taken answer bytes).length := by
  cases answer with
  | failed errno => simp [taken]
  | upto count => simp [taken]

theorem delivered_arrived (lines : List (List Byte)) (answers : List Write) :
    delivered lines answers = arrived (attempts lines answers) := by
  induction lines generalizing answers with
  | nil => rfl
  | cons line lines ih =>
    cases answers with
    | nil => rfl
    | cons answer answers =>
      have more := ih answers
      rw [delivered,attempts,List.zipWith_cons_cons,List.zipWith_cons_cons,List.flatten_cons,arrived_cons,attempt,
        ← taken_take]
      exact congrArg _ more

theorem attempts_stream (lines : List (List Byte)) (answers : List Write) :
    stream (attempts lines answers) = encode 0 (lines.take answers.length) := by
  induction lines generalizing answers with
  | nil => simp [stream,attempts]
  | cons line lines ih =>
    cases answers with
    | nil => rfl
    | cons answer answers =>
      have more := ih answers
      rw [attempts] at more ⊢
      simp [attempt,more]

theorem attempts_append (lines more : List (List Byte)) (answers : List Write) (tried : answers.length ≤ lines.length) :
    attempts (lines ++ more) answers = attempts lines answers := by
  induction lines generalizing answers with
  | nil =>
    rw [List.length_eq_zero_iff.mp (Nat.le_zero.mp tried)]
    simp [attempts]
  | cons line lines ih =>
    cases answers with
    | nil => rfl
    | cons answer answers =>
      have rest := ih answers (Nat.le_of_succ_le_succ tried)
      rw [attempts] at rest ⊢
      rw [List.cons_append,List.zipWith_cons_cons,rest]
      rfl

theorem attempts_grow (lines : List (List Byte)) (answers more : List Write) (tried : answers.length ≤ lines.length) :
    attempts lines (answers ++ more) = attempts lines answers ++ attempts (lines.drop answers.length) more := by
  have size : (lines.take answers.length).length = answers.length := List.length_take_of_le tried
  conv_lhs => rw [← List.take_append_drop answers.length lines]
  rw [attempts,List.zipWith_append size,← attempts,← attempts]
  congr 1
  rw [← attempts_append (lines.take answers.length) (lines.drop answers.length) answers (by omega),
    List.take_append_drop]

end Wire

theorem run_sends (lines : List (List Byte)) (answers : List Write) (input : RecordRW) (outgoing : List Byte)
    (run : Run lines answers input outgoing) :
    Recorded input lines ∧ Cursor lines answers.length input.read ∧ outgoing = delivered lines answers := by
  induction run with
  | start =>
    exact ⟨⟨written_empty.alloc rfl,fun _ member => absurd member List.not_mem_nil,by simp⟩,cursor_zero [],rfl⟩
  | append lines answers input outgoing record closed text write run nulFree present ok ih =>
    obtain ⟨recorded,cursor,wire⟩ := ih
    refine ⟨⟨recorded.written.append record closed text write present ok,?_,by simp⟩,cursor.append [text],?_⟩
    · exact recorded.free.append (by simpa [Free] using nulFree)
    · rw [wire,delivered_arrived,delivered_arrived,attempts_append lines [text] answers cursor.inside]
  | sync lines answers input sent target conn after wires wires' recording stored kernel status run ok ih =>
    obtain ⟨recorded,cursor,wire⟩ := ih
    obtain ⟨m,moved⟩ := sync_sent target answers.length conn after wires wires' input sent recording stored kernel status
      lines recorded cursor ok
    have low := moved.low
    rw [moved.cursor.commands,cursor.commands]
    refine ⟨moved.recorded,?_,?_⟩
    · rw [List.length_append,List.length_map,List.length_range,Nat.add_sub_cancel' low]
      exact moved.cursor
    · rw [moved.bytes,wire,delivered_arrived,delivered_arrived,delivered_arrived,
        attempts_grow lines answers _ cursor.inside,arrived,arrived,arrived,List.flatMap_append]

/-! Gathering changes the record by appending to it, and in no other way. -/
section Gathering
variable {σ : Type} (Kept : RecordRW → Prop)
  (append : ∀ (input : RecordRW) (record closed : Record) (text : List Byte) (write : RecordOffset), Kept input →
    input.record = some record → 0 ∉ text → recordAppend text.length text record input.write = .ok (closed,write) →
    Kept {input with record := some closed, write := write})

include append

theorem appendInput_kept (text : List Byte) (world later : World σ) (nulFree : 0 ∉ text) (kept : Kept world.input)
    (ok : appendInput text.length text world = .ok later) : Kept later.input := by
  unfold appendInput at ok
  split at ok
  · cases ok
  · next record present =>
    obtain ⟨⟨closed,write⟩,appended,same⟩ := (bind_ok _ _ _).mp ok
    cases same
    exact append world.input record closed text write kept present nulFree appended

theorem events_kept (events : List Event) (world later : World σ) (kept : Kept world.input)
    (legal : ∀ event ∈ events, event.1 = event.2.length ∧ 0 ∉ event.2)
    (ok : events.foldlM inputCallback world = .ok later) : Kept later.input := by
  induction events generalizing world with
  | nil =>
    cases ok
    exact kept
  | cons event events ih =>
    rw [List.foldlM_cons,bind_ok] at ok
    obtain ⟨middle,first,rest⟩ := ok
    obtain ⟨length,nulFree⟩ := legal event List.mem_cons_self
    apply ih middle _ (fun other member => legal other (List.mem_cons_of_mem _ member)) rest
    unfold inputCallback at first
    split at first
    · rw [length] at first
      exact appendInput_kept Kept append event.2 world middle nulFree kept first
    · split at first
      · cases first
        exact kept
      · split at first
        · cases first
          exact kept
        · cases first
          exact kept

theorem fill_kept (target fuel : Nat) (world later : World σ) (kept : Kept world.input)
    (ok : fillInput target fuel world = .ok later) : Kept later.input := by
  induction fuel generalizing world with
  | zero =>
    cases ok
    exact kept
  | succ fuel ih =>
    unfold fillInput at ok
    split at ok
    · obtain ⟨middle,appended,rest⟩ := (bind_ok _ _ _).mp ok
      exact ih middle (appendInput_kept Kept append [] world middle List.not_mem_nil kept appended) rest
    · cases ok
      exact kept

theorem gather_kept (tick : Tick) (world later : World σ) (kept : Kept world.input)
    (ok : gather tick world = .ok later) : Kept later.input := by
  unfold gather at ok
  obtain ⟨middle,polled,fill⟩ := (bind_ok _ _ _).mp ok
  unfold pollInput at polled
  obtain ⟨⟨up,stdin,keyboard,typed⟩,poll,fold⟩ := (bind_ok _ _ _).mp polled
  apply fill_kept Kept append _ _ middle later _ fill
  apply events_kept Kept append typed _ middle _ (poll_events _ _ _ _ _ _ _ _ poll) fold
  change Kept (tick.changed.foldl notifyCallback world).input
  rwa [notify_input]

end Gathering

section Processes
variable {σ : Type}

theorem syncStep_run (tick : Tick) (world synced : World σ) (status : ConnStatus) (lines : List (List Byte))
    (answers : List Write) (run : Run lines answers world.input world.wires.outgoing)
    (ok : syncStep tick world = .ok (status,synced)) :
    ∃ lines answers, Run lines answers synced.input synced.wires.outgoing := by
  unfold syncStep at ok
  obtain ⟨middle,gathering,ok⟩ := (bind_ok _ _ _).mp ok
  obtain ⟨⟨status',conn,wires,input,gameRecord⟩,sync,same⟩ := (bind_ok _ _ _).mp ok
  cases same
  obtain ⟨recorded,_,_⟩ := run_sends lines answers _ _ run
  obtain ⟨gathered,_⟩ := gather_gathered tick world middle lines recorded gathering
  have sending : ∃ more, Run (lines ++ more) answers middle.input world.wires.outgoing := by
    apply gather_kept (fun input => ∃ more, Run (lines ++ more) answers input world.wires.outgoing) _ tick world middle
      ⟨[],by rwa [List.append_nil]⟩ gathering
    rintro input record closed text write ⟨more,run⟩ present nulFree appended
    refine ⟨more ++ [text],?_⟩
    rw [← List.append_assoc]
    exact .append _ answers input _ record closed text write run nulFree present appended
  obtain ⟨more,sending⟩ := sending
  rw [← gathered.wires] at sending
  exact ⟨_,_,.sync _ answers _ _ _ _ _ _ _ _ _ _ _ sending sync⟩

/-- What a process does to its record and to the wire is a run of the sender. -/
theorem process_run (framerate : UInt8) (ep : EndPoint) (incoming keyboard : List Byte) (world : World σ)
    (log : SessionLog σ) (past : List (SessionLog σ)) (process : Process framerate ep incoming keyboard world log past) :
    ∃ lines answers, Run lines answers world.input world.wires.outgoing := by
  induction process with
  | boot library calibration world opened =>
    subst opened
    exact ⟨[],[],.start⟩
  | iterate world synced later log past tick status turn process running sync step ih =>
    obtain ⟨lines,answers,run⟩ := ih
    obtain ⟨lines,answers,run⟩ := syncStep_run tick world synced status lines answers run sync
    refine ⟨lines,answers,?_⟩
    obtain ⟨input,wires,_⟩ := advance_keeps tick status synced later turn step
    rwa [input,wires]
  | reload world opened log past library calibration process stopped stays started ih =>
    subst started
    exact ih

end Processes

/-! The commands between the read and the write offset of the local record. -/
section Pending
variable {σ : Type}

/-- The bytes between the offsets are as many terminated commands as the counts are apart. -/
def Pending (input : RecordRW) : Prop :=
  ∃ record commands, input.record = some record ∧ Free 0 commands ∧
    commands.length + input.read.commandCount = input.write.commandCount ∧
    (record.buf.drop input.read.byteCount).take (input.write.byteCount - input.read.byteCount) =
      (encode 0 commands).map some ∧
    input.read.byteCount ≤ input.write.byteCount ∧ input.write.byteCount = record.usedBytes ∧ record.usedBytes ≤ 2^31

theorem recorded_pending (input : RecordRW) (lines : List (List Byte)) (n : Nat) (recorded : Recorded input lines)
    (cursor : Cursor lines n input.read) : Pending input := by
  obtain ⟨record,present⟩ := Option.ne_none_iff_exists'.mp recorded.present
  have holds := recorded.written.holds record present
  obtain ⟨rest,layout⟩ := holds.layout
  have written := recorded.written.cursor.bytes
  rw [List.take_length] at written
  have before := cursor.bytes_le
  have bounds := holds.bounded
  have cut : encode 0 lines = encode 0 (lines.take n) ++ encode 0 (lines.drop n) := by
    rw [← encode_append,List.take_append_drop]
  refine ⟨record,lines.drop n,present,fun s member => recorded.free s (List.mem_of_mem_drop member),?_,?_,by omega,
    by rw [written,holds.used],by omega⟩
  · have inside := cursor.inside
    rw [cursor.commands,recorded.written.cursor.commands,List.length_drop]
    omega
  · have size : ((encode 0 (lines.take n)).map some).length = input.read.byteCount := by
      rw [List.length_map,cursor.bytes]
    rw [layout,cut,List.map_append,List.append_assoc,← size,List.drop_left,size,written,cut,List.length_append,
      ← cursor.bytes,Nat.add_sub_cancel_left]
    exact List.take_left' (List.length_map _)

theorem run_pending (lines : List (List Byte)) (answers : List Write) (input : RecordRW) (outgoing : List Byte)
    (run : Run lines answers input outgoing) : Pending input := by
  obtain ⟨recorded,cursor,_⟩ := run_sends lines answers input outgoing run
  exact recorded_pending input lines answers.length recorded cursor

theorem syncStep_readable (tick : Tick) (world synced : World σ) (status : ConnStatus) (lines : List (List Byte))
    (n : Nat) (recorded : Recorded world.input lines) (cursor : Cursor lines n world.input.read)
    (ok : syncStep tick world = .ok (status,synced)) : status ≠ .corrupt := by
  unfold syncStep at ok
  obtain ⟨middle,gathering,ok⟩ := (bind_ok _ _ _).mp ok
  obtain ⟨⟨status',conn,wires,input,gameRecord⟩,sync,same⟩ := (bind_ok _ _ _).mp ok
  cases same
  obtain ⟨gathered,target⟩ := gather_gathered tick world middle lines recorded gathering
  obtain ⟨more,recorded⟩ := gathered.lines lines recorded
  have cursor := cursor.append more
  rw [← gathered.read] at cursor
  obtain ⟨m,sent⟩ := sync_sent _ n _ conn _ wires _ input _ gameRecord tick.kernel status _ recorded cursor sync
  rw [recorded.written.cursor.commands] at target
  exact sent.readable target

/-- In every process the local record stays readable up to the target, so no
synchronization finds it corrupt. -/
theorem never_corrupt (framerate : UInt8) (ep : EndPoint) (incoming keyboard : List Byte) (world : World σ)
    (log : SessionLog σ) (past : List (SessionLog σ)) (process : Process framerate ep incoming keyboard world log past) :
    Pending world.input ∧ ∀ tick status synced, syncStep tick world = .ok (status,synced) →
      status ≠ .corrupt ∧ Pending synced.input := by
  obtain ⟨lines,answers,run⟩ := process_run framerate ep incoming keyboard world log past process
  obtain ⟨recorded,cursor,_⟩ := run_sends lines answers _ _ run
  refine ⟨run_pending lines answers _ _ run,?_⟩
  intro tick status synced sync
  obtain ⟨lines',answers',after⟩ := syncStep_run tick world synced status lines answers run sync
  exact ⟨syncStep_readable tick world synced status lines answers.length recorded cursor sync,
    run_pending lines' answers' _ _ after⟩

theorem never_corrupt_letter : ∃ (world synced : World Unit) (past : List (SessionLog Unit)) (tick : Tick)
    (status : ConnStatus), Process 1 endpointFromFd (wire [letterFrame]) [] world (.start world) past ∧
      syncStep tick world = .ok (status,synced) ∧ status ≠ .corrupt ∧ Pending synced.input := by
  obtain ⟨world,past,process,joined,_⟩ := joined_process ⟨1,0,0⟩ sumLibrary letterFrame (by decide)
  obtain ⟨conn,outgoing,input,gameRecord,k,m,sync,_⟩ := joined_sync [] letterFrame world [[]] [] [letterFrame] 0 joined
    (by decide) (by decide)
  obtain ⟨_,safe⟩ := never_corrupt 1 endpointFromFd (wire [letterFrame]) [] world _ past process
  exact ⟨world,_,past,_,.ok,process,sync,safe _ _ _ sync⟩

end Pending

section Order

/-- The bytes on the wire are bytes of the recorded commands, and none of them was
skipped if and only if no write that accepts a byte comes behind one that did not
accept its whole command. Then the wire holds the start of the recorded commands. -/
theorem sent_in_order_iff (lines : List (List Byte)) (answers : List Write) (input : RecordRW) (outgoing : List Byte)
    (run : Run lines answers input outgoing) :
    outgoing.map some = (positions 0 (attempts lines answers)).map (fun i => (encode 0 lines)[i]?) ∧
      (positions 0 (attempts lines answers) = List.range outgoing.length ↔ Unbroken (attempts lines answers)) ∧
      (Unbroken (attempts lines answers) → outgoing <+: encode 0 lines) := by
  obtain ⟨_,cursor,wire⟩ := run_sends lines answers input outgoing run
  rw [delivered_arrived] at wire
  have tried := attempts_stream lines answers
  refine ⟨?_,?_,?_⟩
  · have all : encode 0 lines = encode 0 (lines.take answers.length) ++ encode 0 (lines.drop answers.length) := by
      rw [← encode_append,List.take_append_drop]
    rw [wire,all,← tried]
    exact arrived_positions [] _ _
  · rw [wire,List.range_eq_range']
    exact positions_unbroken 0 _
  · intro unbroken
    rw [wire]
    apply (arrived_front _ unbroken).trans
    rw [tried]
    exact encode_take_before 0 lines answers.length

theorem two_commands (first second : Write) : ∃ input outgoing, Run [[65],[66]] [first,second] input outgoing := by
  have one : ∃ input, Run [[65]] [] input [] := by
    obtain ⟨closed,write,append⟩ := append_succeeds recordAlloc [] [65] .zero holds_alloc (cursor_zero []) (by decide)
      (by decide)
    exact ⟨_,.append [] [] _ [] recordAlloc closed [65] write .start (by decide) rfl append⟩
  have two : ∃ input, Run [[65],[66]] [] input [] := by
    obtain ⟨input,run⟩ := one
    obtain ⟨recorded,_,_⟩ := run_sends _ _ _ _ run
    obtain ⟨record,present⟩ := Option.ne_none_iff_exists'.mp recorded.present
    obtain ⟨closed,write,append⟩ := append_succeeds record [[65]] [66] input.write
      (recorded.written.holds record present) recorded.written.cursor (by decide) (by decide)
    exact ⟨_,.append [[65]] [] input [] record closed [66] write run (by decide) present append⟩
  obtain ⟨input,run⟩ := two
  obtain ⟨recorded,cursor,_⟩ := run_sends _ _ _ _ run
  let conn : Connection := Connection.initial
  let writes : Nat → Write := fun k => if k = 0 then first else second
  obtain ⟨after,sent,left,sending⟩ := sendLoop_possible 2 writes (2 - input.read.commandCount) 0 0 conn input [] _ recorded
    cursor (Nat.le_refl 2)
  have sync := sync_sends 2 conn conn conn after ⟨[],[]⟩ [] left input sent (fun _ => .empty) (fun _ => .empty)
    ⟨.revents pollOut,.upto 0,writes⟩ .ok (io_idle conn [] _ rfl) (processing_done _ _ _ _ _ rfl) sending
  obtain ⟨m,moved⟩ := sync_sent 2 0 conn after ⟨[],[]⟩ _ input sent _ _ _ .ok _ recorded cursor sync
  have both : m = 2 := moved.complete rfl
  have run := Run.sync _ _ input sent 2 conn after ⟨[],[]⟩ _ _ _ _ .ok run sync
  rw [moved.cursor.commands,cursor.commands,both] at run
  exact ⟨sent,left,run⟩

theorem sent_in_order_two : ∃ input outgoing, Run [[65],[66]] [.upto 2,.upto 2] input outgoing ∧
    outgoing <+: encode 0 [[65],[66]] := by
  obtain ⟨input,outgoing,run⟩ := two_commands (.upto 2) (.upto 2)
  refine ⟨input,outgoing,run,?_⟩
  apply (sent_in_order_iff _ _ input outgoing run).2.2
  simp [Unbroken,attempts,attempt,taken]

/-- The first write fails, and the second command is sent alone. -/
theorem failed_write_skips : ∃ input outgoing, Run [[65],[66]] [.failed eagain,.upto 2] input outgoing ∧
    outgoing = [66,0] ∧ ¬ outgoing <+: encode 0 [[65],[66]] := by
  obtain ⟨input,outgoing,run⟩ := two_commands (.failed eagain) (.upto 2)
  obtain ⟨_,_,wire⟩ := run_sends _ _ input outgoing run
  have alone : outgoing = [66,0] := wire
  refine ⟨input,outgoing,run,alone,?_⟩
  rw [alone]
  decide

end Order

end Craftsman.Sending
