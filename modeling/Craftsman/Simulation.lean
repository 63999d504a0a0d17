import Craftsman.Client
import Craftsman.Execute
import Craftsman.GameLoop
import Craftsman.StandardInput

/-! The game's loop and the sessions of a process. One iteration gathers the local
commands, synchronizes with the network and, when every player's next command
is there, executes one turn. -/
namespace Craftsman.Simulation
open Craftsman.Memory Craftsman.Recording Craftsman.Network Craftsman.Client
open Craftsman.StandardInput Craftsman.Text Craftsman.Dlfn Craftsman.Execute Craftsman.GameLoop

structure World (σ : Type) where
  library : Library σ
  game : Game σ
  exiting : Bool
  input : RecordRW
  conn : Connection
  wires : Wires
  gameRecord : Recordings
  loop : Loop
  frameStore : RecordRW
  playerCount : Nat
  stdin : Input
  keyboard : List Byte

/-- What the outside does in one iteration: the files that changed, the answers of
the terminal and of the socket, the counters of benchmarks, what an unwritten
result holds, and the readings of the clock. -/
structure Tick where
  changed : List (List Byte)
  poll : Poll
  read : Read
  kernel : Kernel
  cycles : Nat → Nat → Nat → Nat → UInt64
  unset : Nat → Word
  readings : List UInt64

structure Turn where
  frame : Nat
  pauseFrame : Nat
  commands : List (List Byte)
  simulated : Bool
  deriving DecidableEq

/-- "code/feature.so" -/
def dlpath : List Byte := [99,111,100,101,47,102,101,97,116,117,114,101,46,115,111]

def strstr (text word : List Byte) : Bool := text.tails.any word.isPrefixOf

section Iteration
variable {σ : Type}

/-- A file change and the meta commands end the session with no goal left. -/
def World.halt (world : World σ) : World σ :=
  {world with game := {world.game with simulationGoal := 0}, loop := loopHalt world.loop}

def notifyCallback (world : World σ) (name : List Byte) : World σ :=
  if strstr dlpath name then world.halt else world

def appendInput (len : Nat) (bytes : List Byte) (world : World σ) : Except Stop (World σ) :=
  match world.input.record with
  | none => .error .fault
  | some record => do
    let (record,write) ← recordAppend len bytes record world.input.write
    return {world with input := {world.input with record := some record, write := write}}

def inputCallback (world : World σ) (event : Event) : Except Stop (World σ) :=
  if firstByte event.2 ≠ 33 then appendInput event.1 event.2 world
  else if firstByte event.2.tail = 113 then .ok {world.halt with exiting := true}
  else if firstByte event.2.tail = 114 then .ok world.halt
  else .ok world

def pollInput (tick : Tick) (world : World σ) : Except Stop (World σ) := do
  let (_,stdin,keyboard,events) ← inputPoll world.stdin world.keyboard tick.poll tick.read
  events.foldlM inputCallback {world with stdin := stdin, keyboard := keyboard}

/-- Empty commands up to the target. Each advances the count, so the difference bounds the rounds. -/
def fillInput (target : Nat) : Nat → World σ → Except Stop (World σ)
  | 0,world => .ok world
  | fuel+1,world =>
    if target > world.input.write.commandCount then do
      let world ← appendInput 0 [] world
      fillInput target fuel world
    else .ok world

def gather (tick : Tick) (world : World σ) : Except Stop (World σ) := do
  let world ← pollInput tick (tick.changed.foldl notifyCallback world)
  let target := loopWriteFrame world.loop
  fillInput target (target - world.input.write.commandCount) world

/-- An iteration up to the answer of the network. -/
def syncStep (tick : Tick) (world : World σ) : Except Stop (ConnStatus × World σ) := do
  let world ← gather tick world
  let (status,conn,wires,input,gameRecord) ← connectionSync (loopWriteFrame world.loop)
    world.conn world.wires world.input world.gameRecord tick.kernel
  return (status,{world with conn := conn, wires := wires, input := input, gameRecord := gameRecord})

def players (playerCount : Nat) : List (Fin 4) := (List.finRange 4).take playerCount

structure CommandPreview where
  turnNearest : Nat
  turnFarthest : Nat

def ahead (rw : RecordRW) : Nat := u32 (rw.write.commandCount + 2^32 - rw.read.commandCount)

def commandPreview (inputQueueMax playerCount : Nat) (recording : Recordings) : CommandPreview :=
  (players playerCount).foldl (fun preview i =>
    ⟨min (ahead (recording i)) preview.turnNearest,
      max (ahead (recording i)) preview.turnFarthest⟩) ⟨inputQueueMax,0⟩

def frameBufLen : Nat := 4096

def commandFrame : List (Fin 4) → Nat → Recordings → Except Stop (Option (List (List Byte)) × Recordings)
  | [],_,recording => .ok (some [],recording)
  | i::later,used,recording =>
    match (recording i).record with
    | none => .error .fault
    | some record => do
      let (cmd,read) ← recordRead record (recording i).read
      let text := cmd.getD []
      let moved := Function.update recording i {recording i with read := read}
      if frameBufLen ≤ used + text.length then return (none,moved)
      else
        let (texts,moved) ← commandFrame later (used + text.length + 1) moved
        return (texts.map (text :: ·),moved)

def executeAll (library : Library σ) (cycles : Nat → Nat → Nat → Nat → UInt64) :
    Nat → List (List Byte) → Game σ → Except Stop (Game σ)
  | _,[],game => .ok game
  | i,text::later,game => do
    let game ← executeAny library (cycles i) game text
    executeAll library cycles (i+1) later game

def image (library : Library σ) (memory : σ) (object : Object) : List Byte :=
  (List.range object.bytes).map fun k => library.byte memory (object.address + k)

def appendObjects (library : Library σ) (memory : σ) : List Object → RecordRW → Except Stop RecordRW
  | [],store => .ok store
  | object::later,store =>
    match store.record with
    | none => .error .fault
    | some record => do
      let (record,write) ← recordAppend object.bytes (image library memory object) record store.write
      appendObjects library memory later {store with record := some record, write := write}

def simulateFrame (library : Library σ) (unset : Nat → Word) (game : Game σ) (store : RecordRW) :
    Except Stop (Game σ × RecordRW) := do
  let (engine,memory,_) ← frameBody library unset game.engine game.memory
  let store ← appendObjects library memory engine.objects store
  return ({game with engine := engine, memory := memory},store)

def takeTurn (tick : Tick) (world : World σ) : Except Stop (World σ × List (List Byte)) := do
  match ← commandFrame (players world.playerCount) 0 world.gameRecord with
  | (none,_) => .error .crash
  | (some texts,gameRecord) => do
    let game ← executeAll world.library tick.cycles 0 texts world.game
    return ({world with game := game, gameRecord := gameRecord},texts)

/-- What an iteration comes to, once the clock lets it pass: the world at the next
head of the loop, and the turn, if one was executed. -/
abbrev Passed (σ : Type) := Option (World σ × Option Turn)

def stall (tick : Tick) (world : World σ) : Passed σ :=
  (loopStall tick.readings {world.loop with
    inputQueue := min (u32 (world.loop.inputQueue + 1)) world.loop.inputQueueMax}).map fun loop =>
      ({world with loop := loop},none)

def finishTurn (tick : Tick) (world : World σ) (texts : List (List Byte)) : Except Stop (Passed σ) := do
  let turn := Turn.mk world.loop.frame world.loop.pauseFrame texts
  if world.game.simulationGoal ≤ world.loop.frame then
    return (loopPause tick.readings world.loop).map fun loop => ({world with loop := loop},some (turn false))
  else
    let (game,store) ← simulateFrame world.library tick.unset world.game world.frameStore
    return (loopSync tick.readings world.loop).map fun loop =>
      ({world with game := game, frameStore := store, loop := loop},some (turn true))

/-- The iteration behind the network's answer. -/
def advance (tick : Tick) (status : ConnStatus) (world : World σ) : Except Stop (Passed σ) :=
  match status with
  | .corrupt => .ok (some ({world with loop := loopHalt world.loop, exiting := true},none))
  | .term => .ok (some ({world with loop := loopHalt world.loop, exiting := true},none))
  | .change => .ok (some ({world with loop := loopHalt world.loop},none))
  | .ok =>
    if (commandPreview world.loop.inputQueueMax world.playerCount world.gameRecord).turnNearest = 0 then
      .ok (stall tick world)
    else do
      let (world,texts) ← takeTurn tick world
      finishTurn tick world texts

def gamePlayers (recording : Recordings) : Nat :=
  ((List.finRange 4).filter fun i => (recording i).record.isSome).length

def startSession (framerate : UInt8) (calibration : Calibration) (library : Library σ) (world : World σ) :
    World σ :=
  {world with
    library := library
    game := ⟨openSession library world.game.engine,library.init,0⟩
    loop := loopInit framerate calibration world.loop
    frameStore := {RecordRW.empty with record := some recordAlloc}
    playerCount := gamePlayers world.gameRecord}

/-- The loop and the input are shut down, and the records are rewound. -/
def endSession (world : World σ) : World σ :=
  {world with
    loop := loopShutdown world.loop
    stdin := inputShutdown world.stdin
    gameRecord := fun i => {world.gameRecord i with read := .zero}}

/-- A process before its first session; `incoming` is all that its peer will ever send. -/
def World.boot (library : Library σ) (ep : EndPoint) (incoming keyboard : List Byte) : World σ where
  library := library
  game := ⟨.boot,library.init,0⟩
  exiting := false
  input := {RecordRW.empty with record := some recordAlloc}
  conn := {Connection.initial with clientEp := ep}
  wires := ⟨incoming,[]⟩
  gameRecord := fun _ => .empty
  loop := .boot
  frameStore := .empty
  playerCount := 0
  stdin := .init
  keyboard := keyboard

structure Shared (σ : Type) where
  game : Game σ
  frame : Nat
  pauseFrame : Nat

def World.shared (world : World σ) : Shared σ := ⟨world.game,world.loop.frame,world.loop.pauseFrame⟩

/-- What happened in a session: the turns, the shared state at its start and after
each turn, how many turns ran on the goal that the turns before them left, and
whether anything but the schedule reached it: a meta command, a file change or a
network failure. -/
structure SessionLog (σ : Type) where
  library : Library σ
  playerCount : Nat
  inputRead : Nat
  turns : List Turn
  states : List (Shared σ)
  calm : Nat
  interrupted : Bool

def SessionLog.start (world : World σ) : SessionLog σ where
  library := world.library
  playerCount := world.playerCount
  inputRead := world.input.read.commandCount
  turns := []
  states := [world.shared]
  calm := 0
  interrupted := false

/-- A halt takes the goal away before the turn, unless the turn itself sets one. -/
def SessionLog.after (log : SessionLog σ) (status : ConnStatus) (world synced later : World σ)
    (turn : Option Turn) : SessionLog σ :=
  let turns := log.turns ++ turn.toList
  {log with
    turns := turns
    states := log.states ++ turn.toList.map fun _ => later.shared
    calm := if synced.game.simulationGoal = world.game.simulationGoal ∨
        turn.toList.any (fun turn => turn.commands.any setsGoal) then turns.length else log.calm
    interrupted := log.interrupted || !synced.loop.running || status = .term || status = .corrupt}

/-- The runs of a process, up to a test at the head of the loop: the world, what
happened in its session, and what happened in the earlier ones. -/
inductive Process (framerate : UInt8) (ep : EndPoint) (incoming keyboard : List Byte) :
    World σ → SessionLog σ → List (SessionLog σ) → Prop
  | boot (library : Library σ) (calibration : Calibration) (world : World σ)
      (opened : world = startSession framerate calibration library (.boot library ep incoming keyboard)) :
      Process framerate ep incoming keyboard world (.start world) []
  | iterate (world synced later : World σ) (log : SessionLog σ) (past : List (SessionLog σ)) (tick : Tick)
      (status : ConnStatus) (turn : Option Turn) (process : Process framerate ep incoming keyboard world log past)
      (running : world.loop.running = true) (sync : syncStep tick world = .ok (status,synced))
      (step : advance tick status synced = .ok (some (later,turn))) :
      Process framerate ep incoming keyboard later (log.after status world synced later turn) past
  | reload (world opened : World σ) (log : SessionLog σ) (past : List (SessionLog σ)) (library : Library σ)
      (calibration : Calibration) (process : Process framerate ep incoming keyboard world log past)
      (stopped : world.loop.running = false) (stays : world.exiting = false)
      (started : opened = startSession framerate calibration library (endSession world)) :
      Process framerate ep incoming keyboard opened (.start opened) (past ++ [log])

end Iteration

end Craftsman.Simulation
