import Craftsman.Echo
import Craftsman.Iteration

/-! What an iteration can do. With room in the records and a socket that takes
every byte the local commands are sent, the received frames are stored, and a
player whose command has arrived gets a turn. -/
namespace Craftsman.Progress
open Craftsman.Memory Craftsman.Recording Craftsman.CommandLog Craftsman.Network Craftsman.Client
open Craftsman.Frames Craftsman.Demultiplex Craftsman.Echo Craftsman.Clock Craftsman.GameLoop
open Craftsman.Dlfn Craftsman.Execute Craftsman.Simulation Craftsman.Iteration
open Craftsman.Stream.Delimited Craftsman.Stream.Rounds

theorem waitClock_passes (loop : Loop) : ∃ readings later, waitClock readings loop = some later := by
  refine ⟨[loop.tscClock.tscClock + loop.tscClock.tscStep + 1],?_⟩
  have late : ¬ loop.tscClock.tscClock + loop.tscClock.tscStep -
      (loop.tscClock.tscClock + loop.tscClock.tscStep + 1) < loop.tscClock.tscStep := by
    generalize loop.tscClock.tscClock + loop.tscClock.tscStep = next
    have wrapped : next - (next + 1) = 0 - 1 := by grind
    rw [wrapped,UInt64.not_lt]
    exact UInt64.le_iff_toNat_le.mpr (Nat.le_of_lt_succ loop.tscClock.tscStep.toNat_lt)
  unfold waitClock clockSync
  simp only [if_neg late]
  split
  · exact ⟨_,rfl⟩
  · rename_i same
    split at same <;> cases same

section Gathering
variable {σ : Type}

theorem notify_input (names : List (List Byte)) (world : World σ) :
    (names.foldl notifyCallback world).input = world.input := by
  induction names generalizing world with
  | nil => rfl
  | cons name names ih =>
    rw [List.foldl_cons,ih]
    unfold notifyCallback
    split <;> rfl

theorem fill_possible (target fuel : Nat) (world : World σ) (lines : List (List Byte))
    (recorded : Recorded world.input lines) (room : (encode 0 lines).length + fuel ≤ 2^31) :
    ∃ input k, fillInput target fuel world = .ok {world with input := input} ∧
      Recorded input (lines ++ List.replicate k []) ∧ k ≤ fuel := by
  induction fuel generalizing world lines with
  | zero => exact ⟨world.input,0,rfl,by simpa using recorded,Nat.le_refl 0⟩
  | succ fuel ih =>
    unfold fillInput
    split
    · obtain ⟨record,present⟩ := Option.ne_none_iff_exists'.mp recorded.present
      obtain ⟨closed,write,append⟩ := append_succeeds record lines [] world.input.write
        (recorded.written.holds record present) recorded.written.cursor (by decide) (by simp; omega)
      have one : appendInput 0 [] world =
          .ok {world with input := {world.input with record := some closed, write := write}} := by
        rw [appendInput,present]
        dsimp only
        rw [show recordAppend 0 [] record world.input.write = .ok (closed,write) from append,ok_bind]
        rfl
      have recorded := append_recorded [] world _ lines List.not_mem_nil recorded one
      obtain ⟨input,k,filled,more,small⟩ := ih _ (lines ++ [[]]) recorded (by simp; omega)
      refine ⟨input,k + 1,?_,?_,by omega⟩
      · rw [one,ok_bind]
        exact filled
      · rw [List.append_assoc] at more
        exact more
    · exact ⟨world.input,0,rfl,by simpa using recorded,Nat.zero_le _⟩

theorem gather_possible (tick : Tick) (world : World σ) (lines : List (List Byte)) (idle : tick.poll = .revents 0)
    (recorded : Recorded world.input lines) (room : (encode 0 lines).length + loopWriteFrame world.loop ≤ 2^31) :
    ∃ input k, gather tick world = .ok {tick.changed.foldl notifyCallback world with input := input} ∧
      Recorded input (lines ++ List.replicate k []) ∧ k ≤ loopWriteFrame world.loop := by
  have target := (notify_gathered tick.changed world).writeFrame
  have polled : pollInput tick (tick.changed.foldl notifyCallback world) =
      .ok (tick.changed.foldl notifyCallback world) := by
    rw [pollInput,idle]
    rfl
  rw [← notify_input tick.changed world] at recorded
  obtain ⟨input,k,filled,more,small⟩ := fill_possible
    (loopWriteFrame (tick.changed.foldl notifyCallback world).loop)
    (loopWriteFrame (tick.changed.foldl notifyCallback world).loop -
      (tick.changed.foldl notifyCallback world).input.write.commandCount) _ lines recorded (by omega)
  refine ⟨input,k,?_,more,by omega⟩
  rw [gather,polled,ok_bind]
  exact filled

end Gathering

section Receiving

theorem round_opens (conn : Connection) (recording : Recordings) (incoming : List Byte) (done more : List Frame)
    (frame : Frame) (demux : Demux conn recording incoming done (frame::more))
    (complete : frame.size ≤ conn.usedReceiveBuffer) (absent : (recording frame.player).record = none) :
    processingRound conn recording = .ok (.done false conn
      (Function.update recording frame.player {recording frame.player with record := some recordAlloc})) := by
  have size : frame.size = frame.text.length + 9 := rfl
  obtain ⟨_,player,length⟩ := demux.header (by omega)
  have found : (⟨conn.clientId.toNat,by omega⟩ : Fin 4) = frame.player := Fin.ext (by simp only []; omega)
  unfold processingRound
  rw [if_neg (by omega),if_neg (by omega),if_neg (not_not.mpr (demux.printable complete)),if_neg (by omega),
    dif_pos (by omega)]
  dsimp only
  rw [found,absent]

theorem processing_takes (conn : Connection) (recording : Recordings) (done now later : List Frame)
    (demux : Demux conn recording (wire later) done (now ++ later)) (received : conn.received = wire now)
    (players : ∀ frame ∈ now, known recording frame.player = true)
    (room : ∀ i, (encode 0 (texts i (done ++ now))).length ≤ 2^31) :
    ∃ after stored, connectionProcessing conn recording = .ok (true,after,stored) ∧
      Demux after stored (wire later) (done ++ now) later ∧ known stored = known recording ∧
      after.clientEp = conn.clientEp := by
  have total := received_length conn demux.high
  induction now generalizing conn recording done with
  | nil =>
    rw [received] at total
    have low := demux.low
    have empty : conn.usedReceiveBuffer < 8 := by
      have none : (wire []).length = 0 := rfl
      omega
    refine ⟨conn,recording,processing_done _ _ _ _ _ ?_,by rwa [List.append_nil],rfl,rfl⟩
    rw [processingRound,if_pos empty]
  | cons frame more ih =>
    rw [received,wire_cons,List.length_append,bytes_length] at total
    have low := demux.low
    have fits : (encode 0 (texts frame.player done)).length + frame.text.length + 1 ≤ 2^31 := by
      have bound := room frame.player
      rw [texts_append,encode_append,List.length_append] at bound
      have one : texts frame.player (frame::more) = frame.text::texts frame.player more := by simp [texts]
      rw [one,encode_cons,List.length_append,List.length_cons] at bound
      omega
    obtain ⟨after,stored,round,moved,same,_,ep⟩ := round_progress conn recording _ done (more ++ later) frame demux
      (by omega) (players frame List.mem_cons_self) fits
    have left : after.received = wire more := by
      have unread := moved.unread
      rw [wire_append] at unread
      exact List.append_cancel_right unread
    obtain ⟨last,final,process,drained,kept,ends⟩ := ih after stored (done ++ [frame]) moved left
      (fun other member => by rw [same]; exact players other (List.mem_cons_of_mem _ member))
      (fun i => by rw [List.append_assoc]; exact room i) (received_length after moved.high)
    refine ⟨last,final,?_,?_,kept.trans same,ends.trans ep⟩
    · rw [processing_next _ _ _ _ round]
      exact process
    · rwa [List.append_assoc] at drained

def fullWrites (_ : Nat) : Write := .upto (2^31)

theorem sendLoop_possible (target : Nat) (writes : Nat → Write) (fuel k n : Nat) (conn : Connection) (input : RecordRW)
    (wire : List Byte) (lines : List (List Byte)) (recorded : Recorded input lines) (cursor : Cursor lines n input.read)
    (enough : target ≤ lines.length) :
    ∃ after sent left, sendLoop target writes fuel k conn input wire = .ok (.ok,after,sent,left) := by
  induction fuel generalizing k n conn input wire with
  | zero => exact ⟨conn,input,wire,rfl⟩
  | succ fuel ih =>
    unfold sendLoop
    split
    · next below =>
      rw [cursor.commands] at below
      obtain ⟨⟨next,input',wire'⟩,send⟩ := send_next conn input wire (writes k) lines n recorded cursor (by omega)
      obtain ⟨recorded',cursor',_⟩ := send_moves conn next input input' wire wire' _ lines n recorded cursor send
      obtain ⟨after,sent,left,rest⟩ := ih (k+1) (n+1) next input' wire' recorded' cursor'
      refine ⟨after,sent,left,?_⟩
      rw [send,ok_bind]
      exact rest
    · exact ⟨conn,input,wire,rfl⟩

theorem sync_sends (target : Nat) (conn polled after last : Connection) (wires : Wires) (incoming left : List Byte)
    (input sent : RecordRW) (recording stored : Recordings) (kernel : Kernel) (status : ConnStatus)
    (io : connectionIo conn wires.incoming kernel.poll kernel.read = .ok (true,polled,incoming))
    (process : connectionProcessing polled recording = .ok (true,after,stored))
    (sending : sendLoop target kernel.writes (target - input.read.commandCount) 0 after input wires.outgoing =
      .ok (status,last,sent,left)) :
    connectionSync target conn wires input recording kernel = .ok (status,last,⟨incoming,left⟩,sent,stored) := by
  rw [connectionSync,io,ok_bind]
  change (connectionProcessing polled recording >>= _) = _
  rw [process,ok_bind]
  change (sendLoop target kernel.writes (target - input.read.commandCount) 0 after input wires.outgoing >>= _) = _
  rw [sending,ok_bind]
  rfl

end Receiving

section Synchronizing
variable {σ : Type}

def quietTick (changed : List (List Byte)) (readings : List UInt64) : Tick where
  changed := changed
  poll := .revents 0
  read := .upto 0
  kernel := ⟨.revents pollOut,.upto 0,fullWrites⟩
  cycles := fun _ _ _ _ => 0
  unset := fun _ => 0
  readings := readings

theorem io_idle (conn : Connection) (incoming : List Byte) (read : Read) (up : conn.clientEp = endpointFromFd) :
    connectionIo conn incoming (.revents pollOut) read = .ok (true,conn,incoming) := by
  have same : {conn with clientEp := endpointFromFd} = conn := by rw [← up]
  unfold connectionIo
  rw [up]
  change Except.ok (true,{conn with clientEp := endpointFromFd},incoming) = _
  rw [same]

theorem syncStep_takes (changed : List (List Byte)) (readings : List UInt64) (world : World σ)
    (lines : List (List Byte)) (done now later : List Frame) (n : Nat) (recorded : Recorded world.input lines)
    (cursor : Cursor lines n world.input.read)
    (demux : Demux world.conn world.gameRecord (wire later) done (now ++ later))
    (arrives : world.wires.incoming = wire later) (received : world.conn.received = wire now)
    (up : world.conn.clientEp = endpointFromFd) (players : ∀ frame ∈ now, known world.gameRecord frame.player = true)
    (room : (encode 0 lines).length + loopWriteFrame world.loop ≤ 2^31)
    (space : ∀ i, (encode 0 (texts i (done ++ now))).length ≤ 2^31) :
    ∃ conn outgoing input gameRecord k m, syncStep (quietTick changed readings) world =
        .ok (.ok,{changed.foldl notifyCallback world with
          conn := conn, wires := ⟨wire later,outgoing⟩, input := input, gameRecord := gameRecord}) ∧
      Demux conn gameRecord (wire later) (done ++ now) later ∧ known gameRecord = known world.gameRecord ∧
      (∀ i, (gameRecord i).read = (world.gameRecord i).read) ∧ conn.clientEp = endpointFromFd ∧
      Recorded input (lines ++ List.replicate k []) ∧ k ≤ loopWriteFrame world.loop ∧
      Cursor (lines ++ List.replicate k []) m input.read := by
  obtain ⟨filled,k,gathering,more,small⟩ := gather_possible (quietTick changed readings) world lines rfl recorded room
  obtain ⟨gathered,target⟩ := gather_gathered _ world _ lines recorded gathering
  have read := gathered.read
  have cursor := cursor.append (List.replicate k [])
  rw [← read] at cursor
  obtain ⟨after,stored,process,drained,same,ends⟩ := processing_takes world.conn world.gameRecord done now later demux
    received players space
  rw [gathered.writeFrame] at target
  dsimp only at target
  rw [more.written.cursor.commands] at target
  obtain ⟨last,sent,left,sending⟩ := sendLoop_possible (loopWriteFrame world.loop) fullWrites
    (loopWriteFrame world.loop - filled.read.commandCount) 0 n after filled world.wires.outgoing _ more cursor target
  have kept := sendLoop_conn _ _ _ _ after last _ _ _ _ _ sending
  obtain ⟨m,moved⟩ := sendLoop_ok _ _ _ 0 n after last filled sent _ left .ok _ more cursor
    (by rw [cursor.commands]; omega) sending
  refine ⟨last,left,sent,stored,k,m,?_,?_,same,processing_reads _ _ _ _ _ process,?_,moved.recorded,small,moved.cursor⟩
  · have sync := sync_sends (loopWriteFrame world.loop) world.conn world.conn after last world.wires _ left filled sent
      world.gameRecord stored (quietTick changed readings).kernel .ok
      (by rw [arrives]; exact io_idle world.conn _ _ up) process sending
    have conn := gathered.conn
    have wires := gathered.wires
    have gameRecord := gathered.gameRecord
    have frame := gathered.writeFrame
    dsimp only at conn wires gameRecord frame
    rw [syncStep,gathering,ok_bind]
    dsimp only
    rw [frame,conn,wires,gameRecord,sync,ok_bind]
    rfl
  · rw [kept]
    exact ⟨drained.low,drained.high,drained.unread,drained.written,drained.messages,drained.bytes⟩
  · rw [kept]
    exact ends.trans up

theorem syncStep_possible (changed : List (List Byte)) (readings : List UInt64) (world : World σ)
    (lines : List (List Byte)) (done rest : List Frame) (n : Nat) (recorded : Recorded world.input lines)
    (cursor : Cursor lines n world.input.read)
    (demux : Demux world.conn world.gameRecord world.wires.incoming done rest) (arrived : world.wires.incoming = [])
    (up : world.conn.clientEp = endpointFromFd) (players : ∀ frame ∈ rest, known world.gameRecord frame.player = true)
    (room : (encode 0 lines).length + loopWriteFrame world.loop ≤ 2^31)
    (space : ∀ i, (encode 0 (texts i (done ++ rest))).length ≤ 2^31) :
    ∃ conn outgoing input gameRecord k m, syncStep (quietTick changed readings) world =
        .ok (.ok,{changed.foldl notifyCallback world with
          conn := conn, wires := ⟨[],outgoing⟩, input := input, gameRecord := gameRecord}) ∧
      Demux conn gameRecord [] (done ++ rest) [] ∧ known gameRecord = known world.gameRecord ∧
      (∀ i, (gameRecord i).read = (world.gameRecord i).read) ∧ conn.clientEp = endpointFromFd ∧
      Recorded input (lines ++ List.replicate k []) ∧ k ≤ loopWriteFrame world.loop ∧
      Cursor (lines ++ List.replicate k []) m input.read := by
  have received := demux.unread
  rw [arrived,List.append_nil] at received
  rw [arrived] at demux
  exact syncStep_takes changed readings world lines done rest [] n recorded cursor (by rwa [List.append_nil]) arrived
    received up players room space

/-- The socket gives the bytes of one frame. -/
def openingTick (frame : Frame) : Tick :=
  {quietTick [] [] with kernel := ⟨.revents (pollIn ||| pollOut),.upto frame.size,fullWrites⟩}

/-- The bytes of the next frame, and no more, are read while its player has no record. -/
theorem sync_opens (world : World σ) (lines : List (List Byte)) (done later : List Frame) (frame : Frame) (n : Nat)
    (recorded : Recorded world.input lines) (cursor : Cursor lines n world.input.read)
    (demux : Demux world.conn world.gameRecord (wire (frame::later)) done (frame::later))
    (arrives : world.wires.incoming = wire (frame::later)) (empty : world.conn.usedReceiveBuffer = 0)
    (small : frame.size ≤ 4096) (up : world.conn.clientEp = endpointFromFd)
    (absent : (world.gameRecord frame.player).record = none)
    (room : (encode 0 lines).length + loopWriteFrame world.loop ≤ 2^31) :
    ∃ conn input k, syncStep (openingTick frame) world = .ok (.change,{world with
        input := input
        conn := conn
        wires := ⟨wire later,world.wires.outgoing⟩
        gameRecord := Function.update world.gameRecord frame.player
          {world.gameRecord frame.player with record := some recordAlloc}}) ∧
      Demux conn (Function.update world.gameRecord frame.player
        {world.gameRecord frame.player with record := some recordAlloc}) (wire later) done (frame::later) ∧
      conn.clientEp = endpointFromFd ∧ Recorded input (lines ++ List.replicate k []) ∧
      k ≤ loopWriteFrame world.loop ∧ loopWriteFrame world.loop ≤ lines.length + k ∧
      Cursor (lines ++ List.replicate k []) n input.read := by
  obtain ⟨filled,k,gathering,more,few⟩ := gather_possible (openingTick frame) world lines rfl recorded room
  obtain ⟨gathered,enough⟩ := gather_gathered (openingTick frame) world _ lines recorded gathering
  rw [gathered.writeFrame] at enough
  dsimp only at enough
  rw [more.written.cursor.commands,List.length_append,List.length_replicate] at enough
  have moved := cursor.append (List.replicate k [])
  rw [← gathered.read] at moved
  obtain ⟨polled,io,used,ep⟩ := io_reads world.conn (wire (frame::later)) frame.size demux.low (by omega)
    (by rw [wire_cons,List.length_append,bytes_length]; omega) up
  have behind : (wire (frame::later)).drop frame.size = wire later := by
    rw [wire_cons,← bytes_length]
    exact List.drop_left
  rw [behind] at io
  have received := io_demux world.conn polled world.gameRecord (wire (frame::later)) (wire later) [] done (frame::later)
    _ _ true (by rwa [List.append_nil]) io
  rw [List.append_nil] at received
  have opens := round_opens polled world.gameRecord (wire later) done later frame received (by omega) absent
  have process := processing_done _ _ _ _ _ opens
  refine ⟨polled,filled,k,?_,received.opened frame.player absent,ep,more,few,enough,moved⟩
  rw [syncStep,gathering,ok_bind]
  change (connectionSync _ world.conn world.wires filled world.gameRecord (openingTick frame).kernel >>= _) = _
  rw [connectionSync,arrives]
  change ((connectionIo world.conn (wire (frame::later)) (.revents (pollIn ||| pollOut)) (.upto frame.size) >>= _) >>= _)
    = _
  rw [io,ok_bind]
  change ((connectionProcessing polled world.gameRecord >>= _) >>= _) = _
  rw [process,ok_bind]
  rfl

end Synchronizing

section Turns
variable {σ : Type}

theorem turn_taken (tick : Tick) (world : World σ) (game : Game σ) (lines : List (List Byte)) (t : Nat)
    (alone : world.playerCount = 1) (present : known world.gameRecord 0 = true)
    (written : Written (world.gameRecord 0) lines) (free : Free 0 lines) (cursor : Cursor lines t (world.gameRecord 0).read)
    (inside : t < lines.length) (short : lines[t].length < 4096) (queue : world.loop.inputQueueMax ≠ 0)
    (execute : executeAny world.library (tick.cycles 0) world.game lines[t] = .ok game) :
    ∃ read, (commandPreview world.loop.inputQueueMax world.playerCount world.gameRecord).turnNearest ≠ 0 ∧
      takeTurn tick world = .ok ({world with
        game := game
        gameRecord := Function.update world.gameRecord 0 {world.gameRecord 0 with read := read}},[lines[t]]) := by
  obtain ⟨record,found⟩ := Option.isSome_iff_exists.mp present
  have holds := written.holds record found
  obtain ⟨read,reads,_⟩ := read_next record lines t _ holds free cursor inside
  have one : players world.playerCount = [0] := by rw [alone]; rfl
  have waiting := ahead_count _ lines t written cursor
  refine ⟨read,?_,?_⟩
  · rw [commandPreview,one]
    change min (ahead (world.gameRecord 0)) world.loop.inputQueueMax ≠ 0
    omega
  have frame : commandFrame (players world.playerCount) 0 world.gameRecord =
      .ok (some [lines[t]],Function.update world.gameRecord 0 {world.gameRecord 0 with read := read}) := by
    rw [one,commandFrame,found]
    dsimp only
    rw [reads,ok_bind]
    dsimp only [Option.getD_some]
    rw [if_neg (by unfold frameBufLen; omega)]
    rfl
  rw [takeTurn,frame,ok_bind]
  change (executeAll world.library tick.cycles 0 [lines[t]] world.game >>= _) = _
  rw [executeAll,execute,ok_bind]
  rfl

theorem turn_possible (tick : Tick) (world : World σ) (game : Game σ) (lines : List (List Byte)) (t : Nat)
    (alone : world.playerCount = 1) (present : known world.gameRecord 0 = true)
    (written : Written (world.gameRecord 0) lines) (free : Free 0 lines) (cursor : Cursor lines t (world.gameRecord 0).read)
    (inside : t < lines.length) (short : lines[t].length < 4096) (queue : world.loop.inputQueueMax ≠ 0)
    (execute : executeAny world.library (tick.cycles 0) world.game lines[t] = .ok game)
    (paused : game.simulationGoal ≤ world.loop.frame) :
    ∃ readings read clock sleep, advance {tick with readings := readings} .ok world = .ok (some
      ({world with
          game := game
          gameRecord := Function.update world.gameRecord 0 {world.gameRecord 0 with read := read}
          loop := {world.loop with
            pauseFrame := u32 (world.loop.pauseFrame + 1), tscClock := clock, sleepUsec := sleep}},
        some ⟨world.loop.frame,world.loop.pauseFrame,[lines[t]],false⟩)) := by
  obtain ⟨readings,later,waited⟩ := waitClock_passes {world.loop with pauseFrame := u32 (world.loop.pauseFrame + 1)}
  obtain ⟨clock,sleep,rfl⟩ := waitClock_same _ _ _ waited
  obtain ⟨read,nearest,taken⟩ := turn_taken {tick with readings := readings} world game lines t alone present written free
    cursor inside short queue execute
  refine ⟨readings,read,clock,sleep,?_⟩
  unfold advance
  dsimp only
  rw [if_neg nearest,taken,ok_bind,finishTurn]
  dsimp only
  rw [if_pos paused,loopPause,waited]
  rfl

/-- A turn whose command leaves a goal ahead has a frame simulated. -/
theorem turn_simulates (tick : Tick) (world : World σ) (game after : Game σ) (stored : RecordRW)
    (lines : List (List Byte)) (t : Nat) (alone : world.playerCount = 1) (present : known world.gameRecord 0 = true)
    (written : Written (world.gameRecord 0) lines) (free : Free 0 lines) (cursor : Cursor lines t (world.gameRecord 0).read)
    (inside : t < lines.length) (short : lines[t].length < 4096) (queue : world.loop.inputQueueMax ≠ 0)
    (execute : executeAny world.library (tick.cycles 0) world.game lines[t] = .ok game)
    (ahead : world.loop.frame < game.simulationGoal)
    (simulate : simulateFrame world.library tick.unset game world.frameStore = .ok (after,stored)) :
    ∃ readings read clock sleep, advance {tick with readings := readings} .ok world = .ok (some
      ({world with
          game := after
          frameStore := stored
          gameRecord := Function.update world.gameRecord 0 {world.gameRecord 0 with read := read}
          loop := {world.loop with frame := u32 (world.loop.frame + 1), tscClock := clock, sleepUsec := sleep}},
        some ⟨world.loop.frame,world.loop.pauseFrame,[lines[t]],true⟩)) := by
  obtain ⟨readings,later,waited⟩ := waitClock_passes {world.loop with frame := u32 (world.loop.frame + 1)}
  obtain ⟨clock,sleep,rfl⟩ := waitClock_same _ _ _ waited
  obtain ⟨read,nearest,taken⟩ := turn_taken {tick with readings := readings} world game lines t alone present written free
    cursor inside short queue execute
  refine ⟨readings,read,clock,sleep,?_⟩
  unfold advance
  dsimp only
  rw [if_neg nearest,taken,ok_bind,finishTurn]
  dsimp only
  rw [if_neg (Nat.not_le_of_lt ahead),simulate,ok_bind]
  dsimp only
  rw [loopSync,waited]
  rfl

end Turns

/-! The sessions of a process whose peer sends one frame. -/
section Sessions
variable {σ : Type}

structure Connected (frame : Frame) (world : World σ) (lines : List (List Byte)) (done rest : List Frame) (sent : Nat) :
    Prop where
  demux : Demux world.conn world.gameRecord world.wires.incoming done rest
  whole : done ++ rest = [frame]
  arrived : world.wires.incoming = []
  up : world.conn.clientEp = endpointFromFd
  present : known world.gameRecord = Function.update (fun _ => false) frame.player true
  recorded : Recorded world.input lines
  cursor : Cursor lines sent world.input.read
  stays : world.exiting = false

structure Joined (frame : Frame) (world : World σ) (lines : List (List Byte)) (done rest : List Frame) (sent : Nat) : Prop
    extends Connected frame world lines done rest sent where
  rewound : ∀ i, (world.gameRecord i).read = .zero
  running : world.loop.running = true
  at_frame : world.loop.frame = 0
  at_pause : world.loop.pauseFrame = 0
  queue : world.loop.inputQueue = 1
  queueMax : world.loop.inputQueueMax = 1
  goal : world.game.simulationGoal = 0
  alone : world.playerCount = 1
  unstored : world.frameStore = {RecordRW.empty with record := some recordAlloc}

theorem known_one (player : Fin 4) (recording : Recordings)
    (present : known recording = Function.update (fun _ => false) player true) : gamePlayers recording = 1 := by
  have same : (fun i => (recording i).record.isSome) = Function.update (fun _ => false) player true := present
  unfold gamePlayers
  rw [same]
  clear same present
  revert player
  decide

theorem Connected.start {frame : Frame} {world : World σ} {lines : List (List Byte)} {done rest : List Frame} {sent : Nat}
    (connected : Connected frame world lines done rest sent) (calibration : Calibration) (library : Library σ) :
    Joined frame (startSession 1 calibration library (endSession world)) lines done rest sent where
  demux := {connected.demux with written := fun i => (connected.demux.written i).read .zero}
  whole := connected.whole
  arrived := connected.arrived
  up := connected.up
  present := connected.present
  recorded := connected.recorded
  cursor := connected.cursor
  stays := connected.stays
  rewound := fun _ => rfl
  running := rfl
  at_frame := rfl
  at_pause := rfl
  queue := rfl
  queueMax := rfl
  goal := rfl
  alone := known_one frame.player _ connected.present
  unstored := rfl

theorem change_possible (calibration : Calibration) (library : Library σ) (frame : Frame) (small : frame.size ≤ 4096) :
    ∃ tick synced, syncStep tick (startSession 1 calibration library (.boot library endpointFromFd (wire [frame]) [])) =
        .ok (.change,synced) ∧ Connected frame {synced with loop := loopHalt synced.loop} [[]] [] [frame] 0 ∧
      synced.library = library ∧ synced.game = ⟨openSession library .boot,library.init,0⟩ := by
  let opened := startSession 1 calibration library (World.boot library endpointFromFd (wire [frame]) [])
  have recorded : Recorded opened.input [] :=
    ⟨written_empty.alloc rfl,fun _ member => absurd member List.not_mem_nil,by simp [opened,startSession,World.boot]⟩
  have demux : Demux opened.conn opened.gameRecord (wire [frame]) [] [frame] :=
    ⟨Int.le_refl _,(by decide : (0 : Int) ≤ 4096),rfl,fun _ => written_empty,fun _ => rfl,fun _ => rfl⟩
  have target : loopWriteFrame opened.loop = 1 := rfl
  obtain ⟨conn,input,k,sync,received,up,more,few,enough,moved⟩ := sync_opens opened [] [] [] frame 0 recorded
    (cursor_zero []) demux rfl rfl small rfl rfl (by rw [target]; decide)
  refine ⟨openingTick frame,_,sync,?_,rfl,rfl⟩
  have one : k = 1 := by
    rw [target,List.length_nil,Nat.zero_add] at enough
    rw [target] at few
    omega
  subst one
  refine ⟨received,rfl,rfl,up,?_,more,moved,rfl⟩
  rw [known_update]
  rfl

theorem joined_process (calibration : Calibration) (library : Library σ) (frame : Frame) (small : frame.size ≤ 4096) :
    ∃ world past, Process 1 endpointFromFd (wire [frame]) [] world (.start world) past ∧
      Joined frame world [[]] [] [frame] 0 ∧ world.library = library ∧
      world.game = ⟨openSession library (openSession library .boot),library.init,0⟩ := by
  obtain ⟨tick,synced,sync,connected,same,game⟩ := change_possible calibration library frame small
  have first : Process 1 endpointFromFd (wire [frame]) [] _ _ _ := .boot library calibration _ rfl
  have ended := Process.iterate _ synced _ _ _ tick .change none first rfl sync rfl
  have second := Process.reload _ _ _ _ library calibration ended rfl connected.stays rfl
  refine ⟨_,_,second,connected.start calibration library,rfl,?_⟩
  change Game.mk (openSession library synced.game.engine) library.init 0 = _
  rw [game]

theorem joined_sync (changed : List (List Byte)) (frame : Frame) (world : World σ) (lines : List (List Byte))
    (done rest : List Frame) (sent : Nat) (joined : Joined frame world lines done rest sent)
    (room : (encode 0 lines).length ≤ 2^30) (short : frame.text.length < 4096) :
    ∃ conn outgoing input gameRecord k m, syncStep (quietTick changed []) world =
        .ok (.ok,{changed.foldl notifyCallback world with
          conn := conn, wires := ⟨[],outgoing⟩, input := input, gameRecord := gameRecord}) ∧
      Demux conn gameRecord [] [frame] [] ∧ known gameRecord = known world.gameRecord ∧
      (∀ i, (gameRecord i).read = .zero) ∧ conn.clientEp = endpointFromFd ∧
      Recorded input (lines ++ List.replicate k []) ∧ k ≤ 1 ∧ Cursor (lines ++ List.replicate k []) m input.read := by
  have target : loopWriteFrame world.loop = 1 := by
    rw [loopWriteFrame,joined.at_frame,joined.at_pause,joined.queue]
    rfl
  have mine : ∀ other ∈ rest, known world.gameRecord other.player = true := by
    intro other member
    have only_frame : other ∈ done ++ rest := List.mem_append_right _ member
    rw [joined.whole,List.mem_singleton] at only_frame
    rw [only_frame,joined.present,Function.update_self]
  have space (i : Fin 4) : (encode 0 (texts i (done ++ rest))).length ≤ 2^31 := by
    have bound : (encode 0 (texts i [frame])).length ≤ frame.text.length + 1 := by
      by_cases same : i = frame.player
      · rw [same,texts_same,encode_singleton,List.length_append]
        exact Nat.le_refl _
      · rw [texts_other frame i same]
        exact Nat.zero_le _
    rw [joined.whole]
    omega
  obtain ⟨conn,outgoing,input,gameRecord,k,m,sync,demux,same,reads,up,recorded,few,cursor⟩ :=
    syncStep_possible changed [] world lines done rest sent joined.recorded joined.cursor joined.demux joined.arrived
      joined.up mine (by omega) space
  rw [joined.whole] at demux
  rw [target] at few
  exact ⟨conn,outgoing,input,gameRecord,k,m,sync,demux,same,fun i => (reads i).trans (joined.rewound i),up,recorded,few,
    cursor⟩

/-- "feature.so" -/
def featureName : List Byte := [102,101,97,116,117,114,101,46,115,111]

theorem halting_notified (world : World σ) (halting : Bool) (running : world.loop.running = true)
    (goal : world.game.simulationGoal = 0) :
    (if halting then [featureName] else []).foldl notifyCallback world =
      {world with loop := {world.loop with running := !halting}} := by
  cases halting with
  | false =>
    change world = {world with loop := {world.loop with running := true}}
    rw [← running]
  | true =>
    have same : {world.game with simulationGoal := 0} = world.game := by rw [← goal]
    change {world with game := {world.game with simulationGoal := 0}, loop := loopHalt world.loop} = _
    rw [same]
    rfl

theorem joined_turn (frame : Frame) (first : frame.player = 0) (short : frame.text.length < 4096) (world : World σ)
    (lines : List (List Byte)) (done rest : List Frame) (sent : Nat) (joined : Joined frame world lines done rest sent)
    (room : (encode 0 lines).length ≤ 2^30) (game : Game σ)
    (execute : ∀ cycles, executeAny world.library cycles world.game frame.text = .ok game)
    (paused : game.simulationGoal = 0) (halting : Bool) :
    ∃ tick synced later more sent, syncStep tick world = .ok (.ok,synced) ∧
      advance tick .ok synced = .ok (some (later,some ⟨0,0,[frame.text],false⟩)) ∧
      Connected frame later (lines ++ more) [frame] [] sent ∧ later.library = world.library ∧ later.game = game ∧
      later.loop.running = !halting ∧ synced.loop.running = !halting ∧ synced.game = world.game ∧
      later.playerCount = 1 ∧ later.loop.frame = 0 ∧ later.loop.pauseFrame = 1 ∧
      (encode 0 (lines ++ more)).length ≤ (encode 0 lines).length + 1 := by
  obtain ⟨conn,outgoing,input,gameRecord,k,m,sync,demux,same,rewound,up,recorded,few,cursor⟩ :=
    joined_sync (if halting then [featureName] else []) frame world lines done rest sent joined room short
  rw [halting_notified world halting joined.running joined.goal] at sync
  have stored : texts 0 [frame] = [frame.text] := by rw [← first,texts_same]
  have written := demux.written 0
  rw [stored] at written
  have here : known gameRecord 0 = true := by
    rw [same,joined.present,first,Function.update_self]
  have free : Free 0 [frame.text] := by simpa [Free] using frame.nulFree
  have queue : world.loop.inputQueueMax ≠ 0 := by
    rw [joined.queueMax]
    decide
  obtain ⟨readings,read,clock,sleep,step⟩ := turn_possible (quietTick (if halting then [featureName] else []) [])
    {world with
      loop := {world.loop with running := !halting}
      conn := conn, wires := ⟨[],outgoing⟩, input := input, gameRecord := gameRecord} game [frame.text] 0
    joined.alone here written free (by rw [rewound 0]; exact cursor_zero _) Nat.one_pos short queue (execute _)
    (by rw [paused]; exact Nat.zero_le _)
  have turn : Turn.mk world.loop.frame world.loop.pauseFrame [frame.text] false = ⟨0,0,[frame.text],false⟩ := by
    rw [joined.at_frame,joined.at_pause]
  dsimp only [List.getElem_cons_zero] at step
  rw [turn] at step
  refine ⟨quietTick (if halting then [featureName] else []) readings,_,_,List.replicate k [],m,sync,step,?_,rfl,rfl,rfl,
    rfl,rfl,joined.alone,joined.at_frame,?_,?_⟩
  · have advanced := read_written gameRecord (fun i => texts i [frame]) 0 read demux.written
    refine ⟨{demux with written := advanced},List.append_nil _,rfl,up,?_,recorded,cursor,joined.stays⟩
    rw [known_update,← joined.present,← same]
    exact Function.update_eq_self_iff.mpr rfl
  · change u32 (world.loop.pauseFrame + 1) = 1
    rw [joined.at_pause]
    rfl
  · have padding : (encode 0 (List.replicate k ([] : List Byte))).length = k := encode_empty 0 k
    rw [encode_append,List.length_append]
    omega

/-- Two sessions of player 0 that run the same turn, the second after a reload. -/
theorem replayed_process (calibration : Calibration) (library : Library σ) (frame : Frame) (first : frame.player = 0)
    (small : frame.size ≤ 4096) (game replayed : Game σ)
    (execute : ∀ cycles, executeAny library cycles ⟨openSession library (openSession library .boot),library.init,0⟩
      frame.text = .ok game)
    (again : ∀ cycles, executeAny library cycles ⟨openSession library game.engine,library.init,0⟩ frame.text =
      .ok replayed)
    (paused : game.simulationGoal = 0) (paused' : replayed.simulationGoal = 0) :
    ∃ world log earlier past, Process 1 endpointFromFd (wire [frame]) [] world log past ∧ earlier ∈ past ∧
      earlier.library = library ∧ log.library = library ∧ earlier.playerCount = 1 ∧ log.playerCount = 1 ∧
      earlier.turns = [⟨0,0,[frame.text],false⟩] ∧ log.turns = [⟨0,0,[frame.text],false⟩] ∧
      earlier.calm = 1 ∧ log.calm = 1 ∧ log.interrupted = false ∧ world.playerCount = 1 ∧
      earlier.states = [⟨⟨openSession library (openSession library .boot),library.init,0⟩,0,0⟩,⟨game,0,1⟩] ∧
      log.states = [⟨⟨openSession library game.engine,library.init,0⟩,0,0⟩,⟨replayed,0,1⟩] ∧
      ∀ i, commands (world.gameRecord i) = .ok (texts i [frame]) := by
  have short : frame.text.length < 4096 := by
    unfold Frame.size at small
    omega
  obtain ⟨start,past,process,joined,sameLibrary,sameGame⟩ := joined_process calibration library frame small
  obtain ⟨tick,synced,later,more,sent,sync,step,connected,kept,played,halted,_,goal,alone,at_frame,at_pause,room⟩ :=
    joined_turn frame first short start [[]] [] [frame] 0 joined (by decide) game
      (by rw [sameLibrary,sameGame]; exact execute) paused true
  have run := Process.iterate _ _ _ _ _ tick .ok _ process joined.running sync step
  have reload := Process.reload _ _ _ _ library calibration run halted connected.stays rfl
  have joined' := connected.start calibration library
  obtain ⟨tick',synced',later',more',sent',sync',step',connected',kept',played',halted',going,goal',alone',at_frame',
      at_pause',_⟩ :=
    joined_turn frame first short _ _ _ _ _ joined' (room.trans (by decide)) replayed
      (by
        intro cycles
        change executeAny library cycles ⟨openSession library later.game.engine,library.init,0⟩ frame.text = _
        rw [played]
        exact again cycles) paused' false
  have run' := Process.iterate _ _ _ _ _ tick' .ok _ reload joined'.running sync' step'
  refine ⟨later',_,_,_,run',List.mem_append_right _ (List.mem_singleton_self _),sameLibrary,rfl,joined.alone,
    joined'.alone,rfl,rfl,?_,?_,?_,alone',?_,?_,?_⟩
  · unfold SessionLog.after
    dsimp only
    rw [if_pos (.inl (congrArg Game.simulationGoal goal))]
    rfl
  · unfold SessionLog.after
    dsimp only
    rw [if_pos (.inl (congrArg Game.simulationGoal goal'))]
    rfl
  · unfold SessionLog.after
    dsimp only
    rw [going]
    rfl
  · change [start.shared,later.shared] = _
    rw [World.shared,World.shared,sameGame,joined.at_frame,joined.at_pause,played,at_frame,at_pause]
  · change [Shared.mk ⟨openSession library later.game.engine,library.init,0⟩ 0 0,later'.shared] = _
    rw [World.shared,played',at_frame',at_pause',played]
  · intro i
    exact commands_written _ _ (connected'.demux.written i) (texts_free i [frame])

def letterFrame : Frame := ⟨0,[65],by decide,by decide⟩

theorem letter_process (calibration : Calibration) :
    ∃ (world : World Unit) (log earlier : SessionLog Unit) (past : List (SessionLog Unit)),
      Process 1 endpointFromFd (wire [letterFrame]) [] world log past ∧ earlier ∈ past ∧
      earlier.library = sumLibrary ∧ log.library = sumLibrary ∧ earlier.playerCount = 1 ∧ log.playerCount = 1 ∧
      earlier.turns = [⟨0,0,[[65]],false⟩] ∧ log.turns = [⟨0,0,[[65]],false⟩] ∧
      earlier.calm = 1 ∧ log.calm = 1 ∧ log.interrupted = false ∧ world.playerCount = 1 ∧
      earlier.states = [⟨⟨openSession sumLibrary (openSession sumLibrary .boot),(),0⟩,0,0⟩,
        ⟨⟨openSession sumLibrary (openSession sumLibrary .boot),(),0⟩,0,1⟩] ∧
      log.states = [⟨⟨openSession sumLibrary (openSession sumLibrary (openSession sumLibrary .boot)),(),0⟩,0,0⟩,
        ⟨⟨openSession sumLibrary (openSession sumLibrary (openSession sumLibrary .boot)),(),0⟩,0,1⟩] ∧
      ∀ i, commands (world.gameRecord i) = .ok (texts i [letterFrame]) :=
  replayed_process calibration sumLibrary letterFrame rfl (by decide) _ _ (fun _ => rfl) (fun _ => rfl) rfl rfl

/-- "s 5" -/
def goalFrame : Frame := ⟨0,[115,32,53],by decide,by decide⟩

/-- The only function is called once, and the image of the object is appended. -/
theorem counter_simulates (unset : Nat → Text.Word) :
    ∃ after stored, simulateFrame counterLibrary unset
        ⟨openSession counterLibrary (openSession counterLibrary .boot),0,5⟩
        {RecordRW.empty with record := some recordAlloc} = .ok (after,stored) ∧ after.memory = 1 ∧
      after.engine.objects = [⟨[111],8192,2⟩] := by
  obtain ⟨record,write,append⟩ : ∃ record write, recordAppend 2 [1,1] recordAlloc .zero = .ok (record,write) :=
    append_succeeds recordAlloc [] [1,1] .zero holds_alloc (cursor_zero _) (by decide) (by decide)
  have body : ∃ engine call, frameBody counterLibrary unset (openSession counterLibrary (openSession counterLibrary .boot)) 0 =
      .ok (engine,1,[call]) ∧ engine.objects = [⟨[111],8192,2⟩] := by
    simp only [openSession,counterLibrary_open]
    exact ⟨_,_,rfl,rfl⟩
  obtain ⟨engine,call,body,objects⟩ := body
  refine ⟨⟨engine,1,5⟩,⟨some record,.zero,write⟩,?_,rfl,objects⟩
  rw [simulateFrame,body,ok_bind]
  dsimp only
  rw [objects,appendObjects]
  dsimp only
  have pixels : image counterLibrary 1 ⟨[111],8192,2⟩ = [1,1] := rfl
  rw [pixels]
  change (recordAppend 2 [1,1] recordAlloc .zero >>= _) >>= _ = _
  rw [append,ok_bind]
  rfl

/-- A session of player 0 at its head, and the iteration whose turn has a frame simulated. -/
theorem goal_turn (calibration : Calibration) :
    ∃ (world : World Nat) (past : List (SessionLog Nat)) (tick : Tick) (synced later : World Nat),
      Process 1 endpointFromFd (wire [goalFrame]) [] world (.start world) past ∧
      Joined goalFrame world [[]] [] [goalFrame] 0 ∧ world.library = counterLibrary ∧
      world.game = ⟨openSession counterLibrary (openSession counterLibrary .boot),0,0⟩ ∧
      syncStep tick world = .ok (.ok,synced) ∧
      advance tick .ok synced = .ok (some (later,some ⟨0,0,[goalFrame.text],true⟩)) ∧ later.game.memory = 1 ∧
      later.game.engine.objects = [⟨[111],8192,2⟩] ∧ later.loop.pauseFrame = 0 ∧ later.playerCount = 1 := by
  obtain ⟨world,past,process,joined,library,game⟩ := joined_process calibration counterLibrary goalFrame (by decide)
  obtain ⟨conn,outgoing,input,gameRecord,k,m,sync,demux,same,rewound,up,recorded,few,cursor⟩ :=
    joined_sync [] goalFrame world _ _ _ _ joined (by decide) (by decide)
  have written := demux.written 0
  have here : known gameRecord 0 = true := by
    rw [same,joined.present]
    exact Function.update_self _ _ _
  have queue : world.loop.inputQueueMax ≠ 0 := by
    rw [joined.queueMax]
    decide
  obtain ⟨after,stored,simulate,memory,objects⟩ := counter_simulates fun _ => 0
  obtain ⟨readings,read,clock,sleep,step⟩ := turn_simulates (quietTick [] [])
    {world with conn := conn, wires := ⟨[],outgoing⟩, input := input, gameRecord := gameRecord}
    {world.game with simulationGoal := 5} after stored [goalFrame.text] 0 joined.alone here written (by simp [Free,goalFrame])
    (by rw [rewound 0]; exact cursor_zero _) Nat.one_pos (by decide) queue rfl
    (by
      dsimp only
      rw [joined.at_frame]
      decide)
    (by
      dsimp only
      rw [library,game,joined.unstored]
      exact simulate)
  have turn : Turn.mk world.loop.frame world.loop.pauseFrame [goalFrame.text] true = ⟨0,0,[goalFrame.text],true⟩ := by
    rw [joined.at_frame,joined.at_pause]
  dsimp only [List.getElem_cons_zero] at step
  rw [turn] at step
  exact ⟨world,past,quietTick [] readings,_,_,process,joined,library,game,sync,step,memory,objects,joined.at_pause,
    joined.alone⟩

end Sessions

end Craftsman.Progress
