import Craftsman.Arrivals
import Craftsman.Completion
import Craftsman.Numbering
import Craftsman.Singleplayer

/-! The networked game. Every player runs the process. The host that the processes are
connected to is no part of the repository, so it is a parameter here: of what it sends is
assumed only what the server of a single player does, and that it is the same for all. -/
namespace Craftsman.Multiplayer
open Craftsman.Memory Craftsman.Recording Craftsman.CommandLog Craftsman.Network Craftsman.Client
open Craftsman.NetworkServer Craftsman.Frames Craftsman.StandardInput Craftsman.Dlfn Craftsman.Execute Craftsman.GameLoop
open Craftsman.Simulation Craftsman.Iteration Craftsman.Lockstep Craftsman.Replay Craftsman.Numbering Craftsman.Rewiring
open Craftsman.Demultiplex Craftsman.Echo Craftsman.Singleplayer Craftsman.Stream.Delimited Craftsman.Stream.Rounds

/-! What a process has recorded of its player's lines, and how much of that it has sent. -/
section Seats
variable {σ : Type} {framerate : UInt8} {ep : EndPoint} {incoming keyboard : List Byte} {world : World σ}
  {log : SessionLog σ} {past : List (SessionLog σ)} {heard : List Event}

structure Said (world : World σ) (heard : List Event) (lines : List (List Byte)) (sent : Nat) : Prop where
  recorded : Recorded world.input lines
  cursor : Cursor lines sent world.input.read
  upstream : world.wires.outgoing = encode 0 (lines.take sent)
  heard : lines.filter (· ≠ []) = (typed heard).filter (· ≠ [])

/-- A process whose writes have completed has put the bytes of its first lines on the wire, and
the lines are those that were typed, with fillers between them. -/
theorem playing_said (playing : Playing framerate ep incoming keyboard world log past heard)
    (whole : world.conn.buffering = false) : ∃ lines sent, Said world heard lines sent := by
  induction playing with
  | boot library calibration world opened =>
    subst opened
    exact ⟨[],0,⟨written_empty.alloc rfl,fun _ member => absurd member List.not_mem_nil,
      by simp [startSession,World.boot]⟩,cursor_zero [],rfl,rfl⟩
  | iterate world synced later log past heard tick status turn playing running sync step ih =>
    obtain ⟨input,wires,conn⟩ := advance_keeps tick status synced later turn step
    rw [conn] at whole
    obtain ⟨lines,_,run⟩ := Sending.process_run framerate ep incoming keyboard world log past playing.process
    obtain ⟨recorded,_⟩ := Sending.run_sends lines _ _ _ run
    obtain ⟨lines,sent,said⟩ := ih (syncStep_whole tick world synced status lines recorded sync whole)
    obtain ⟨blank,m,recorded,cursor,upstream⟩ := syncStep_upstream [] tick world synced status sent lines said.recorded
      said.cursor said.upstream sync whole
    rw [← input] at recorded cursor
    refine ⟨_,m,recorded,cursor,by rw [wires]; exact upstream,?_⟩
    have blanks : (List.replicate blank ([] : List Byte)).filter (· ≠ []) = [] := by simp
    rw [gatheredIn,typed_append,List.filter_append,List.filter_append,List.filter_append,said.heard,blanks,List.append_nil]
  | reload world opened log past heard library calibration playing stopped stays started ih =>
    subst started
    obtain ⟨lines,sent,said⟩ := ih whole
    exact ⟨lines,sent,said.recorded,said.cursor,said.upstream,said.heard⟩

end Seats

/-- Who plays at a seat, and how its process was started. -/
structure Place where
  player : Fin 4
  framerate : UInt8
  ep : EndPoint
  keyboard : List Byte

/-- The process at a seat, its sessions, and the lines that its standard input has delivered. -/
structure Seat (σ : Type) where
  world : World σ
  log : SessionLog σ
  past : List (SessionLog σ)
  heard : List Event

section Hosts
variable {σ ι : Type}

def Seat.sessions (seat : Seat σ) : List (SessionLog σ) := seat.past ++ [seat.log]

/-- What is assumed of a host that has sent `frames` and of the seats it serves: each seat runs
the process and is sent these frames, of which it may have read a part; every write of the
seats completed; and the texts of a seat's player come whole from what the seat has
sent, in order. -/
structure Host (place : ι → Place) (seats : ι → Seat σ) (frames : List Frame) : Prop where
  playing : ∀ i, Playing (place i).framerate (place i).ep (wire frames) (place i).keyboard (seats i).world (seats i).log
    (seats i).past (seats i).heard
  whole : ∀ i, (seats i).world.conn.buffering = false
  echoes : ∀ i, encode 0 (texts (place i).player frames) <+: (seats i).world.wires.outgoing

variable {place : ι → Place} {seats : ι → Seat σ} {frames : List Frame}

theorem Host.logged (host : Host place seats frames) (i : ι) : ∀ session ∈ (seats i).sessions, Logged session frames := by
  obtain ⟨_,done,rest,_,_,head⟩ := process_head (place i).framerate (place i).ep frames (place i).keyboard _ _ _
    (host.playing i).process
  intro session member
  rw [head.split]
  rcases List.mem_append.mp member with earlier | last
  · exact (head.past session earlier).grow rest
  · rw [List.mem_singleton.mp last]
    exact head.logged.grow rest

/-- The commands of a player that the host has sent are the first lines recorded at its seat. -/
theorem Host.said (host : Host place seats frames) (i : ι) :
    ∃ lines sent, Said (seats i).world (seats i).heard lines sent ∧ texts (place i).player frames <+: lines := by
  obtain ⟨lines,sent,said⟩ := playing_said (host.playing i) (host.whole i)
  obtain ⟨rest,taken⟩ := host.echoes i
  rw [said.upstream] at taken
  exact ⟨lines,sent,said,(prefix_of_encode 0 _ _ _ (texts_free (place i).player frames) (said.recorded.free.take sent)
    taken).trans (List.take_prefix sent lines)⟩

end Hosts

/-! The server thread of a game on its own is a host with one player. -/
section Alone
variable {σ : Type}

/-- The place of the only player. -/
def alone (framerate : UInt8) (keyboard : List Byte) (_ : Unit) : Place := ⟨0,framerate,endpointFromFd,keyboard⟩

/-- A game on its own, with the bytes that the server has taken and those it still has to
write put back on the wires. -/
def localSeat (taken : List Byte) (game : LocalGame σ) (log : SessionLog σ) (past : List (SessionLog σ))
    (heard : List Event) (_ : Unit) : Seat σ :=
  ⟨rewire taken game.pending.flatten game.world,log,past,heard⟩

theorem run_whole (framerate : UInt8) (keyboard : List Byte) (game : LocalGame σ) (log : SessionLog σ)
    (past : List (SessionLog σ)) (heard : List Event) (run : LocalRun framerate keyboard game log past heard) :
    game.world.conn.buffering = false := by
  induction run with
  | boot library calibration world opened =>
    subst opened
    rfl
  | iterate game synced later log past heard tick status turn run running sync complete step ih =>
    obtain ⟨_,_,conn⟩ := advance_keeps tick status synced later turn step
    dsimp only
    rw [conn]
    exact complete
  | reload game opened log past heard library calibration run stopped stays started ih =>
    subst started
    exact ih
  | serverRead game log past heard writes server toServer poll count run idle step ih => exact ih
  | serverWrite game log past heard bytes more toClient write run next step ih => exact ih

/-- In every run of a game on its own the server is a host: what it has taken are the texts
of its frames and its partial command. -/
theorem local_host (framerate : UInt8) (keyboard : List Byte) (game : LocalGame σ) (log : SessionLog σ)
    (past : List (SessionLog σ)) (heard : List Event) (run : LocalRun framerate keyboard game log past heard) :
    ∃ taken frames, encode 0 (texts 0 frames) ++ game.server.received = taken ∧
      Host (alone framerate keyboard) (localSeat taken game log past heard) frames := by
  obtain ⟨taken,frames,lines,sent,served⟩ := run_served framerate keyboard game log past heard run
  have echoed := served.echoed
  rw [← texts_all frames served.mine] at echoed
  refine ⟨taken,frames,echoed,fun _ => served.playing,fun _ => run_whole framerate keyboard game log past heard run,?_⟩
  intro _
  refine ⟨game.server.received ++ game.world.wires.outgoing,?_⟩
  change encode 0 (texts 0 frames) ++ _ = taken ++ game.world.wires.outgoing
  rw [← List.append_assoc,echoed]

end Alone

/-! Two players, whose fillers make the first turn of a session. -/
section Two
variable {σ : Type}

def blankFrame (player : Fin 4) : Frame := {emptyFrame with player := player}

/-- The texts of the turn are two fillers, which every library executes to no effect. -/
theorem blanks_safe (tick : Tick) (synced : World σ) (goal : synced.game.simulationGoal = 0)
    (blanks : Completion.due synced = [[],[]]) : Completion.TurnSafe tick synced := by
  have paused (game : Game σ) : ¬ Completion.Simulates tick synced game := by
    rintro ⟨execute,below⟩
    rw [blanks] at execute
    obtain rfl : synced.game = game := Except.ok.inj execute
    omega
  refine ⟨?_,?_,fun game simulates => absurd simulates (paused game),fun game simulates => absurd simulates (paused game)⟩
  · rw [blanks]
    decide
  · rw [blanks]
    intro text member names
    obtain rfl : text = [] := by simpa using member
    exact absurd names.1 (by decide)

/-- Two fillers that wait are executed in one turn. -/
theorem blanks_executed (synced : World σ) (logs : Fin 4 → List (List Byte)) (images : List (List Byte)) (record : Record)
    (provided : Completion.Provided synced logs 0 images record)
    (nearest : (commandPreview synced.loop.inputQueueMax synced.playerCount synced.gameRecord).turnNearest ≠ 0)
    (blanks : Completion.due synced = [[],[]]) (goal : synced.game.simulationGoal = 0) (at_frame : synced.loop.frame = 0)
    (at_pause : synced.loop.pauseFrame = 0) :
    ∃ readings later, advance (Progress.quietTick [] readings) .ok synced =
      .ok (some (later,some ⟨0,0,[[],[]],false⟩)) := by
  obtain ⟨readings,waited,passes⟩ := Progress.waitClock_passes synced.loop
  have late := (Completion.waitClock_some readings synced.loop).mp ⟨waited,passes⟩
  obtain ⟨passed,advances⟩ := (Completion.advance_total (Progress.quietTick [] readings) provided).mpr fun _ =>
    blanks_safe _ synced goal blanks
  obtain ⟨⟨later,turn⟩,rfl⟩ := (Completion.advance_passes (Progress.quietTick [] readings) synced passed advances).mpr late
  obtain ⟨turn,rfl,turned⟩ := advance_turned _ synced later turn nearest advances
  have texts : turn.commands = [[],[]] := by
    obtain ⟨takes,_⟩ := provided.takes nearest
    obtain ⟨moved,frame⟩ := takes (by rw [blanks]; decide)
    have same := frame.symm.trans turned.commands
    rw [blanks] at same
    exact (Option.some.inj (Prod.mk.inj (Except.ok.inj same)).1).symm
  have quiet : turn.simulated = false := by
    obtain ⟨game,execute,⟨_,paused,_⟩ | ⟨below,_⟩⟩ := turned.executed
    · exact paused
    · rw [texts] at execute
      obtain rfl : synced.game = game := Except.ok.inj execute
      rw [goal] at below
      omega
  have first : turn = ⟨0,0,[[],[]],false⟩ := by
    have frame := turned.at_frame.trans at_frame
    have pause := turned.at_pause.trans at_pause
    cases turn
    cases frame
    cases pause
    cases texts
    cases quiet
    rfl
  exact ⟨readings,later,by rw [advances,first]⟩

/-- The first byte of a process that has recorded fillers and sent some is a NUL. -/
theorem blank_first (world : World σ) (heard : List Event) (lines : List (List Byte)) (m blank sent : Nat)
    (said : Said world heard lines m) (recorded : Recorded world.input (List.replicate blank []))
    (cursor : Cursor (List.replicate blank []) sent world.input.read) (sends : 1 ≤ sent) : [0] <+: world.wires.outgoing := by
  have same := (commands_written _ _ said.recorded.written said.recorded.free).symm.trans
    (commands_written _ _ recorded.written recorded.free)
  obtain rfl := Except.ok.inj same
  have count : m = sent := said.cursor.commands.symm.trans cursor.commands
  have inside := cursor.inside
  rw [List.length_replicate] at inside
  obtain ⟨more,rfl⟩ := Nat.exists_eq_add_of_le' (sends.trans inside)
  obtain ⟨rest,rfl⟩ := Nat.exists_eq_add_of_le' sends
  rw [said.upstream,count,List.replicate_succ,List.take_succ_cons,encode_cons]
  exact List.prefix_append [0] _

/-- A process that was sent two fillers executes them in one turn. -/
theorem two_executed (calibration : Calibration) (library : Library σ)
    (small : FrameStore.totalBytes ((dlfnOpen library).2.map Object.bytes) < 2^31) :
    ∃ seat : Seat σ, Playing 1 endpointFromFd (wire [blankFrame 1,blankFrame 0]) [] seat.world seat.log seat.past
        seat.heard ∧ seat.world.conn.buffering = false ∧ [0] <+: seat.world.wires.outgoing ∧ seat.log.library = library ∧
      seat.log.playerCount = 2 ∧ seat.log.turns = [⟨0,0,[[],[]],false⟩] ∧ tables seat.log = some ([],fun _ => 0) ∧
      seat.log.calm = 1 := by
  obtain ⟨world,synced,past,heard,blank,sent,joined,playing,running,named,globals,handles,goal,sync,loop,alone,two,kept,sends,
    stored,nearest,waits_zero,waits_one⟩ :=
    Arrivals.two_begun calibration library (blankFrame 1) (blankFrame 0) rfl rfl (by decide) (by decide)
  have written := written_empty.alloc rfl
  rw [← stored.unstored] at written
  have provided : Completion.Provided synced (fun i => texts i [blankFrame 1,blankFrame 0]) 0 [] recordAlloc := by
    refine ⟨stored.demux.written,fun i => texts_free i _,?_,written,by rw [stored.unstored],?_⟩
    · intro i _
      rw [stored.rewound i]
      exact cursor_zero _
    · rw [stored.unstored,stored.objects,kept]
      exact (Nat.zero_add _).trans_lt small
  have blanks : Completion.due synced = [[],[]] := by
    have both : players 2 = [0,1] := rfl
    rw [Completion.due,two,both,List.map_cons,List.map_cons,waits_zero,waits_one]
    rfl
  obtain ⟨readings,after,advances⟩ := blanks_executed synced _ _ _ provided nearest blanks stored.goal stored.loop.at_frame
    stored.loop.at_pause
  have run := Playing.iterate _ synced after _ _ _ (Progress.quietTick [] readings) .ok _ playing running sync advances
  obtain ⟨input,wires,conn⟩ := advance_keeps _ .ok synced after _ advances
  have whole : after.conn.buffering = false := by
    rw [conn]
    exact stored.whole
  refine ⟨⟨after,_,past,_⟩,run,whole,?_,named,alone,rfl,?_,?_⟩
  · obtain ⟨lines,m,said⟩ := playing_said run whole
    exact blank_first after _ lines m blank sent said (by rw [input]; exact stored.recorded) (by rw [input]; exact stored.cursor)
      sends
  · change some (world.game.engine.globals,world.game.engine.saveResultHandle) = _
    rw [globals,handles]
  · dsimp only
    rw [if_pos (.inl (stored.goal.trans goal.symm))]
    rfl

def twoPlaces (second : Bool) : Place := ⟨if second then 1 else 0,1,endpointFromFd,[]⟩

/-- Two seats that a host has sent the fillers of both, each with its own build. -/
theorem two_host (library library' : Library σ)
    (small : FrameStore.totalBytes ((dlfnOpen library).2.map Object.bytes) < 2^31)
    (small' : FrameStore.totalBytes ((dlfnOpen library').2.map Object.bytes) < 2^31) :
    ∃ seats : Bool → Seat σ, Host twoPlaces seats [blankFrame 1,blankFrame 0] ∧
      (seats false).log.library = library ∧ (seats true).log.library = library' ∧
      ∀ i, (seats i).log.playerCount = 2 ∧ (seats i).log.turns = [⟨0,0,[[],[]],false⟩] ∧
        tables (seats i).log = some ([],fun _ => 0) ∧ (seats i).log.calm = 1 := by
  obtain ⟨seat,playing,whole,echoes,named,players,turns,same,calm⟩ := two_executed ⟨1,0,0⟩ library small
  obtain ⟨seat',playing',whole',echoes',named',players',turns',same',calm'⟩ := two_executed ⟨3,7,9⟩ library' small'
  refine ⟨fun second => if second then seat' else seat,⟨?_,?_,?_⟩,named,named',?_⟩
  · exact Bool.forall_bool.mpr ⟨playing,playing'⟩
  · exact Bool.forall_bool.mpr ⟨whole,whole'⟩
  · exact Bool.forall_bool.mpr ⟨echoes,echoes'⟩
  · exact Bool.forall_bool.mpr ⟨⟨players,turns,same,calm⟩,players',turns',same',calm'⟩

theorem blanks_benign (library : Library σ) (before : Shared σ) : Benign library ⟨0,0,[[],[]],false⟩ before where
  timeless := ⟨fun benchmark => absurd benchmark (by decide),fun _ _ _ =>
    ⟨fun benchmark => absurd benchmark (by decide),fun _ _ _ => trivial⟩⟩
  defined := fun simulated => absurd simulated Bool.false_ne_true

/-- Two functions, listed in both orders. -/
def pairLibrary : Library Unit where
  symbols := [⟨[102],.func,true,4096,64⟩,⟨[103],.func,true,8192,64⟩]
  init := ()
  call := fun _ _ args => ((),args 0)
  byte := fun _ _ => 0

def pairSwapped : List Symbol := [⟨[103],.func,true,8192,64⟩,⟨[102],.func,true,4096,64⟩]

theorem pair_small (symbols : List Symbol) (none : symbols.filter (exported .object) = []) :
    FrameStore.totalBytes ((dlfnOpen (rebuilt pairLibrary symbols)).2.map Object.bytes) < 2^31 := by
  have empty : (dlfnOpen (rebuilt pairLibrary symbols)).2 = [] := by
    simp [dlfnOpen,rebuilt,parseObjects,sortObjects,none]
  rw [empty]
  decide

end Two

section Agreement
variable {σ ι : Type}

theorem players_entry (playerCount : Nat) (player : Fin 4) (inside : player.val < playerCount) :
    (players playerCount)[player.val]? = some player := by
  have place : player.val < (List.finRange 4).length := by rw [List.length_finRange]; exact player.isLt
  rw [players,List.getElem?_take_of_lt inside,List.getElem?_eq_getElem place,List.getElem_finRange]
  rfl

/-- A turn of a logged session holds, for each of its players, the entry of the
player's texts that has the turn's number. -/
theorem logged_entry (session : SessionLog σ) (frames : List Frame) (logged : Logged session frames) (j : Nat)
    (turn : Turn) (found : session.turns[j]? = some turn) :
    turn.commands.length = min session.playerCount 4 ∧ ∀ player : Fin 4, player.val < session.playerCount →
      ∃ text, turn.commands[player.val]? = some text ∧ (texts player frames)[j]? = some text := by
  obtain ⟨inside,_⟩ := List.getElem?_eq_some_iff.mp found
  have covers : Covers (players session.playerCount) (fun i => texts i frames) (j + 1) :=
    fun i member => inside.trans_le (logged.covers i member)
  obtain ⟨length,entries⟩ := row_entry _ _ j covers
  rw [logged.rows j turn found]
  refine ⟨by rw [length,players,List.length_take,List.length_finRange],?_⟩
  intro player here
  have long : j < (texts player frames).length := covers player ((players_mem _ player).mpr here)
  refine ⟨(texts player frames)[j],?_,List.getElem?_eq_getElem long⟩
  rw [entries player.val player (players_entry _ player here),List.getElem?_eq_getElem long]

/-- All processes play one game: in any of their sessions the turn with number `j` holds,
for each player, the line with number `j` that was recorded at the player's own seat,
and these are the lines typed there with fillers between them. -/
theorem turns_shared (place : ι → Place) (seats : ι → Seat σ) (frames : List Frame) (host : Host place seats frames) :
    ∃ lines : ι → List (List Byte),
      (∀ i, commands (seats i).world.input = .ok (lines i) ∧
        (lines i).filter (· ≠ []) = (typed (seats i).heard).filter (· ≠ [])) ∧
      ∀ i, ∀ session ∈ (seats i).sessions, ∀ (j : Nat) (turn : Turn), session.turns[j]? = some turn →
        turn.commands.length = min session.playerCount 4 ∧ ∀ k, (place k).player.val < session.playerCount →
          ∃ text, turn.commands[(place k).player.val]? = some text ∧ (lines k)[j]? = some text := by
  choose lines sent said echoes using host.said
  refine ⟨lines,?_,?_⟩
  · intro i
    have recorded := (said i).recorded
    exact ⟨commands_written _ _ recorded.written recorded.free,(said i).heard⟩
  · intro i session member j turn found
    obtain ⟨length,entries⟩ := logged_entry session frames (host.logged i session member) j turn found
    refine ⟨length,?_⟩
    intro k here
    obtain ⟨text,entry,item⟩ := entries (place k).player here
    exact ⟨text,entry,prefix_item _ _ j text (echoes k) item⟩

theorem turns_shared_two :
    ∃ seats : Bool → Seat Unit, Host twoPlaces seats [blankFrame 1,blankFrame 0] ∧
      (∀ i, (seats i).log.turns = [⟨0,0,[[],[]],false⟩]) ∧
      ∃ lines : Bool → List (List Byte),
        (∀ i, commands (seats i).world.input = .ok (lines i) ∧
          (lines i).filter (· ≠ []) = (typed (seats i).heard).filter (· ≠ [])) ∧
        ∀ i, ∀ session ∈ (seats i).sessions, ∀ (j : Nat) (turn : Turn), session.turns[j]? = some turn →
          turn.commands.length = min session.playerCount 4 ∧ ∀ k, (twoPlaces k).player.val < session.playerCount →
            ∃ text, turn.commands[(twoPlaces k).player.val]? = some text ∧ (lines k)[j]? = some text := by
  obtain ⟨seats,host,_,_,all⟩ := two_host pairLibrary (rebuilt pairLibrary pairSwapped) (pair_small _ (by decide))
    (pair_small _ (by decide))
  exact ⟨seats,host,fun i => (all i).2.1,turns_shared twoPlaces seats _ host⟩

/-- Replicas converge: wherever two sessions with as many players run builds of one
feature from the same tables, they go through the same states, whatever came between
the host and the two processes and whatever the order of the symbols in the builds is. -/
theorem replicas_converge (place : ι → Place) (seats : ι → Seat σ) (frames : List Frame) (host : Host place seats frames)
    (i i' : ι) (session session' : SessionLog σ) (member : session ∈ (seats i).sessions)
    (member' : session' ∈ (seats i').sessions) (others : List Symbol)
    (builds : session'.library = rebuilt session.library others) (same : session.library.symbols.Perm others)
    (apart : Distinct session.library.symbols) (functions : exportedCount .func session.library.symbols ≤ maxSymbols)
    (objects : exportedCount .object session.library.symbols ≤ maxSymbols)
    (players : session'.playerCount = session.playerCount) (alike : tables session = tables session') (n : Nat)
    (calm : n ≤ session.calm) (calm' : n ≤ session'.calm)
    (benign : ∀ j < n, ∀ turn before, session.turns[j]? = some turn → session.states[j]? = some before →
      Benign session.library turn before) :
    ∀ k ≤ n, session.states[k]? = session'.states[k]? := by
  have logged := host.logged i session member
  have logged' := host.logged i' session' member'
  refine rebuilt_agree others session session' frames frames logged logged' builds same apart functions objects alike n
    calm calm' ?_ benign
  intro j early
  have entry := List.getElem?_eq_getElem (early.trans_le (calm.trans logged.calm))
  have entry' := List.getElem?_eq_getElem (early.trans_le (calm'.trans logged'.calm))
  rw [entry,entry',Option.map_some,Option.map_some,logged.rows j _ entry,logged'.rows j _ entry',players]

theorem replicas_converge_two :
    ∃ seats : Bool → Seat Unit, Host twoPlaces seats [blankFrame 1,blankFrame 0] ∧
      (seats false).log.library.symbols ≠ (seats true).log.library.symbols ∧
      (∀ i, (seats i).log.turns = [⟨0,0,[[],[]],false⟩]) ∧
      ∀ k ≤ 1, (seats false).log.states[k]? = (seats true).log.states[k]? := by
  obtain ⟨seats,host,library,library',all⟩ := two_host pairLibrary (rebuilt pairLibrary pairSwapped)
    (pair_small _ (by decide)) (pair_small _ (by decide))
  have here (i : Bool) : (seats i).log ∈ (seats i).sessions := List.mem_append_right _ List.mem_cons_self
  refine ⟨seats,host,?_,fun i => (all i).2.1,?_⟩
  · rw [library,library']
    simp [pairLibrary,rebuilt,pairSwapped]
  refine replicas_converge twoPlaces seats _ host false true _ _ (here false) (here true) pairSwapped
    (by rw [library,library']) ?_ ?_ ?_ ?_ ((all true).1.trans (all false).1.symm)
    ((all false).2.2.1.trans (all true).2.2.1.symm) 1 (by rw [(all false).2.2.2]) (by rw [(all true).2.2.2]) ?_
  · rw [library]
    exact List.Perm.swap _ _ _
  · rw [library]
    exact ⟨by decide,by decide⟩
  · rw [library]
    decide
  · rw [library]
    decide
  · intro j _ turn before entry _
    rw [(all false).2.1] at entry
    have found := List.mem_of_getElem? entry
    rw [List.mem_singleton] at found
    rw [found]
    exact blanks_benign _ before

end Agreement

end Craftsman.Multiplayer
