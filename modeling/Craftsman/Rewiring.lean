import Craftsman.Simulation

/-! The process apart from its wires. What the peer has already taken, and what is
still to come from it, changes no step of the process. -/
namespace Craftsman.Rewiring
open Craftsman.Memory Craftsman.Recording Craftsman.Network Craftsman.Client
open Craftsman.StandardInput Craftsman.Execute Craftsman.GameLoop Craftsman.Simulation

section Wires
variable (taken more : List Byte)

/-- A read that does not reach behind the bytes that have arrived. -/
def arrivedOnly (arrived : Nat) : Read → Read
  | .failed errno => .failed errno
  | .upto count => .upto (min count arrived)

theorem read_arrived (wire : List Byte) (n : Nat) (read : Read) :
    networkRead (wire ++ more) n (arrivedOnly wire.length read) =
      ((networkRead wire n read).1,(networkRead wire n read).2 ++ more) := by
  cases read with
  | failed errno => rfl
  | upto count =>
    have short : min (min count wire.length) n ≤ wire.length := by omega
    simp only [arrivedOnly,networkRead,List.take_append_of_le_length short,List.drop_append_of_le_length short]
    rcases Nat.le_total count wire.length with inside | beyond
    · rw [Nat.min_eq_left inside]
    · rw [Nat.min_eq_right beyond]
      rcases Nat.le_total n wire.length with fits | large
      · rw [Nat.min_eq_right fits,Nat.min_eq_right (fits.trans beyond)]
      · rw [Nat.min_eq_left large,List.take_of_length_le (Nat.le_refl _),List.drop_of_length_le (Nat.le_refl _),
          List.take_of_length_le (by omega),List.drop_of_length_le (by omega)]

theorem io_arrived (conn : Connection) (wire : List Byte) (poll : Poll) (read : Read) :
    connectionIo conn (wire ++ more) poll (arrivedOnly wire.length read) =
      (connectionIo conn wire poll read).map fun (up,after,left) => (up,after,left ++ more) := by
  unfold connectionIo
  split
  · rfl
  · dsimp only
    split
    · rfl
    · split
      · rw [read_arrived]
        cases (networkRead wire (size (4096 - conn.usedReceiveBuffer)) read) with
        | mk got left =>
          cases got with
          | none => rfl
          | some bytes =>
            dsimp only
            cases ({conn with clientEp := (networkPoll conn.clientEp poll).1} : Connection).deliver bytes with
            | error stop => rfl
            | ok received =>
              simp only [ok_bind]
              split <;> rfl
      · rfl

theorem write_behind (wire bytes : List Byte) (write : Write) :
    networkWrite (taken ++ wire) bytes write = ((networkWrite wire bytes write).1,taken ++ (networkWrite wire bytes write).2) := by
  cases write with
  | failed errno => rfl
  | upto count => simp [networkWrite]

theorem send_behind (conn : Connection) (input : RecordRW) (wire : List Byte) (write : Write) :
    connectionSend conn input (taken ++ wire) write =
      (connectionSend conn input wire write).map (Option.map fun (after,sent,left) => (after,sent,taken ++ left)) := by
  unfold connectionSend
  cases input.record with
  | none => rfl
  | some record =>
    dsimp only
    cases recordRead record input.read with
    | error stop => rfl
    | ok found =>
      obtain ⟨cmd,next⟩ := found
      cases cmd with
      | none => rfl
      | some cmd =>
        simp only [ok_bind,write_behind]
        rfl

theorem sendLoop_behind (target : Nat) (writes : Nat → Write) (fuel k : Nat) (conn : Connection) (input : RecordRW)
    (wire : List Byte) :
    sendLoop target writes fuel k conn input (taken ++ wire) =
      (sendLoop target writes fuel k conn input wire).map fun (status,after,sent,left) =>
        (status,after,sent,taken ++ left) := by
  induction fuel generalizing k conn input wire with
  | zero => rfl
  | succ fuel ih =>
    unfold sendLoop
    split
    · rw [send_behind]
      cases connectionSend conn input wire (writes k) with
      | error stop => rfl
      | ok result =>
        cases result with
        | none => rfl
        | some moved => exact ih (k + 1) moved.1 moved.2.1 moved.2.2
    · rfl

def rewired (wires : Wires) : Wires := ⟨wires.incoming ++ more,taken ++ wires.outgoing⟩

theorem sync_rewired (target : Nat) (conn : Connection) (wires : Wires) (input : RecordRW) (recording : Recordings)
    (kernel : Kernel) :
    connectionSync target conn (rewired taken more wires) input recording
        {kernel with read := arrivedOnly wires.incoming.length kernel.read} =
      (connectionSync target conn wires input recording kernel).map fun (status,after,left,sent,stored) =>
        (status,after,rewired taken more left,sent,stored) := by
  unfold connectionSync
  dsimp only [rewired]
  rw [io_arrived]
  cases connectionIo conn wires.incoming kernel.poll kernel.read with
  | error stop => rfl
  | ok polled =>
    obtain ⟨up,polled,left⟩ := polled
    cases up with
    | false => rfl
    | true =>
      simp only [Except.map,ok_bind]
      cases connectionProcessing polled recording with
      | error stop => rfl
      | ok processed =>
        obtain ⟨same,processed,stored⟩ := processed
        cases same with
        | false => rfl
        | true =>
          simp only [ok_bind,Bool.not_true,Bool.false_eq_true,if_false,sendLoop_behind]
          cases sendLoop target kernel.writes (target - input.read.commandCount) 0 processed input wires.outgoing with
          | error stop => rfl
          | ok sent => rfl

end Wires

section Worlds
variable {σ : Type}

def onWires (wires : Wires) (world : World σ) : World σ := {world with wires := wires}

def rewire (taken more : List Byte) (world : World σ) : World σ := onWires (rewired taken more world.wires) world

section Gathering
variable (wires : Wires)

theorem notify_wires (names : List (List Byte)) (world : World σ) :
    names.foldl notifyCallback (onWires wires world) = onWires wires (names.foldl notifyCallback world) := by
  induction names generalizing world with
  | nil => rfl
  | cons name names ih =>
    rw [List.foldl_cons,List.foldl_cons,← ih]
    congr 1
    unfold notifyCallback
    split <;> rfl

theorem append_wires (len : Nat) (bytes : List Byte) (world : World σ) :
    appendInput len bytes (onWires wires world) = (appendInput len bytes world).map (onWires wires) := by
  unfold appendInput
  cases present : world.input.record with
  | none => simp [onWires,present,Except.map]
  | some record =>
    simp only [onWires,present]
    cases recordAppend len bytes record world.input.write with
    | error stop => rfl
    | ok closed => rfl

theorem callback_wires (event : Event) (world : World σ) :
    inputCallback (onWires wires world) event = (inputCallback world event).map (onWires wires) := by
  unfold inputCallback
  split
  · exact append_wires wires event.1 event.2 world
  · split
    · rfl
    · split <;> rfl

theorem events_wires (events : List Event) (world : World σ) :
    events.foldlM inputCallback (onWires wires world) = (events.foldlM inputCallback world).map (onWires wires) := by
  induction events generalizing world with
  | nil => rfl
  | cons event events ih =>
    rw [List.foldlM_cons,List.foldlM_cons,callback_wires]
    cases inputCallback world event with
    | error stop => rfl
    | ok middle => exact ih middle

theorem fill_wires (target fuel : Nat) (world : World σ) :
    fillInput target fuel (onWires wires world) = (fillInput target fuel world).map (onWires wires) := by
  induction fuel generalizing world with
  | zero => rfl
  | succ fuel ih =>
    unfold fillInput
    have same : (onWires wires world).input = world.input := rfl
    rw [same]
    split
    · rw [append_wires]
      cases appendInput 0 [] world with
      | error stop => rfl
      | ok middle => exact ih middle
    · rfl

theorem gather_wires (tick : Tick) (world : World σ) :
    gather tick (onWires wires world) = (gather tick world).map (onWires wires) := by
  unfold gather pollInput
  rw [notify_wires]
  generalize tick.changed.foldl notifyCallback world = heard
  have stdin : (onWires wires heard).stdin = heard.stdin := rfl
  have keyboard : (onWires wires heard).keyboard = heard.keyboard := rfl
  rw [stdin,keyboard]
  cases inputPoll heard.stdin heard.keyboard tick.poll tick.read with
  | error stop => rfl
  | ok polled =>
    obtain ⟨up,stdin,keyboard,events⟩ := polled
    simp only [ok_bind]
    have typed := events_wires wires events {heard with stdin := stdin, keyboard := keyboard}
    change (events.foldlM inputCallback (onWires wires {heard with stdin := stdin, keyboard := keyboard}) >>= _) = _
    rw [typed]
    cases events.foldlM inputCallback {heard with stdin := stdin, keyboard := keyboard} with
    | error stop => rfl
    | ok middle => exact fill_wires wires _ _ middle

end Gathering

theorem gather_keeps (tick : Tick) (world later : World σ) (ok : gather tick world = .ok later) :
    later.wires = world.wires := by
  have same : gather tick world = (gather tick world).map (onWires world.wires) := gather_wires world.wires tick world
  rw [ok] at same
  have same : later = onWires world.wires later := Except.ok.inj same
  rw [same]
  rfl

variable (taken more : List Byte)

/-- The tick in which the socket gives no more than has arrived on the given wires. -/
def arrivedTick (tick : Tick) (wires : Wires) : Tick :=
  {tick with kernel := {tick.kernel with read := arrivedOnly wires.incoming.length tick.kernel.read}}

theorem syncStep_rewire (tick : Tick) (world synced : World σ) (status : ConnStatus)
    (ok : syncStep tick world = .ok (status,synced)) :
    syncStep (arrivedTick tick world.wires) (rewire taken more world) = .ok (status,rewire taken more synced) := by
  unfold syncStep at ok
  obtain ⟨middle,gathering,ok⟩ := (bind_ok _ _ _).mp ok
  have kept := gather_keeps tick world middle gathering
  obtain ⟨⟨status',conn,wires,input,gameRecord⟩,sync,same⟩ := (bind_ok _ _ _).mp ok
  cases same
  have gathered : gather (arrivedTick tick world.wires) (rewire taken more world) = .ok (rewire taken more middle) := by
    calc gather (arrivedTick tick world.wires) (rewire taken more world)
        = (gather tick world).map (onWires (rewired taken more world.wires)) := gather_wires _ tick world
      _ = .ok (rewire taken more middle) := by rw [gathering,rewire,kept]; rfl
  have synchronized := sync_rewired taken more (loopWriteFrame middle.loop) middle.conn middle.wires middle.input
    middle.gameRecord tick.kernel
  rw [sync,kept] at synchronized
  unfold syncStep
  rw [gathered,ok_bind]
  dsimp only [rewire,onWires]
  rw [kept]
  dsimp only [arrivedTick]
  rw [synchronized]
  rfl

section Advancing
variable (tick : Tick) (wires : Wires)

theorem stall_rewire (world : World σ) :
    stall (arrivedTick tick wires) (rewire taken more world) =
      (stall tick world).map fun (later,turn) => (rewire taken more later,turn) := by
  unfold stall
  rw [Option.map_map]
  rfl

theorem takeTurn_rewire (world : World σ) :
    takeTurn (arrivedTick tick wires) (rewire taken more world) =
      (takeTurn tick world).map fun (later,texts) => (rewire taken more later,texts) := by
  unfold takeTurn
  dsimp only [rewire,onWires,arrivedTick]
  cases commandFrame (players world.playerCount) 0 world.gameRecord with
  | error stop => rfl
  | ok framed =>
    obtain ⟨found,moved⟩ := framed
    cases found with
    | none => rfl
    | some texts =>
      simp only [ok_bind]
      cases executeAll world.library tick.cycles 0 texts world.game with
      | error stop => rfl
      | ok game => rfl

theorem finishTurn_rewire (world : World σ) (texts : List (List Byte)) :
    finishTurn (arrivedTick tick wires) (rewire taken more world) texts =
      (finishTurn tick world texts).map (Option.map fun (later,turn) => (rewire taken more later,turn)) := by
  by_cases reached : world.game.simulationGoal ≤ world.loop.frame
  · have paused (tick : Tick) (world : World σ) (reached : world.game.simulationGoal ≤ world.loop.frame) :
        finishTurn tick world texts = .ok ((loopPause tick.readings world.loop).map fun loop =>
          ({world with loop := loop},some ⟨world.loop.frame,world.loop.pauseFrame,texts,false⟩)) := if_pos reached
    rw [paused tick world reached,paused (arrivedTick tick wires) (rewire taken more world) reached]
    dsimp only [rewire,onWires,arrivedTick]
    cases loopPause tick.readings world.loop with
    | none => rfl
    | some loop => rfl
  · have synced (tick : Tick) (world : World σ) (below : ¬ world.game.simulationGoal ≤ world.loop.frame) :
        finishTurn tick world texts =
          (simulateFrame world.library tick.unset world.game world.frameStore >>= fun simulated =>
            .ok ((loopSync tick.readings world.loop).map fun loop =>
              ({world with game := simulated.1, frameStore := simulated.2, loop := loop},
                some ⟨world.loop.frame,world.loop.pauseFrame,texts,true⟩))) := if_neg below
    rw [synced tick world reached,synced (arrivedTick tick wires) (rewire taken more world) reached]
    dsimp only [rewire,onWires,arrivedTick]
    cases simulateFrame world.library tick.unset world.game world.frameStore with
    | error stop => rfl
    | ok simulated =>
      simp only [ok_bind]
      cases loopSync tick.readings world.loop with
      | none => rfl
      | some loop => rfl

theorem advance_rewire (status : ConnStatus) (world : World σ) :
    advance (arrivedTick tick wires) status (rewire taken more world) =
      (advance tick status world).map (Option.map fun (later,turn) => (rewire taken more later,turn)) := by
  cases status with
  | corrupt => rfl
  | term => rfl
  | change => rfl
  | ok =>
    have preview : commandPreview (rewire taken more world).loop.inputQueueMax (rewire taken more world).playerCount
        (rewire taken more world).gameRecord =
      commandPreview world.loop.inputQueueMax world.playerCount world.gameRecord := rfl
    unfold advance
    dsimp only
    rw [preview]
    by_cases stalls : (commandPreview world.loop.inputQueueMax world.playerCount world.gameRecord).turnNearest = 0
    · rw [if_pos stalls,if_pos stalls,stall_rewire]
      rfl
    · rw [if_neg stalls,if_neg stalls,takeTurn_rewire]
      cases takeTurn tick world with
      | error stop => rfl
      | ok taken => exact finishTurn_rewire _ _ tick wires taken.1 taken.2

end Advancing

theorem after_rewire (log : SessionLog σ) (status : ConnStatus) (world synced later : World σ) (turn : Option Turn) :
    log.after status (rewire taken more world) (rewire taken more synced) (rewire taken more later) turn =
      log.after status world synced later turn := rfl

end Worlds

end Craftsman.Rewiring
