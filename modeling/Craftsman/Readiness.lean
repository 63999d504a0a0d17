import Craftsman.CommandSafety
import Craftsman.Lockstep

/-! When a turn runs. The players are counted by their records, but the loops
that look for commands walk as many records from the front: the two agree as
long as the connected players have the lowest numbers. -/
namespace Craftsman.Readiness
open Craftsman.Memory Craftsman.Recording Craftsman.CommandLog Craftsman.Network Craftsman.Client
open Craftsman.Frames Craftsman.Demultiplex Craftsman.Dlfn Craftsman.Execute Craftsman.GameLoop
open Craftsman.Simulation Craftsman.Iteration Craftsman.Progress Craftsman.Lockstep
open Craftsman.CommandSafety (NamesNoObject executeAny_finishes)
open Craftsman.Stream.Delimited Craftsman.Stream.Rounds

def waiting (rw : RecordRW) : List (List Byte) :=
  match commands rw with
  | .ok texts => texts.drop rw.read.commandCount
  | .error _ => []

def connected (recording : Recordings) : List (Fin 4) := (List.finRange 4).filter (known recording)

def Ready (recording : Recordings) : Prop := ∀ i, known recording i = true → waiting (recording i) ≠ []

section Choice
variable {σ : Type}

/-- The commands that an iteration goes on to execute, with the records behind them;
none when it stalls. -/
def chosen (world : World σ) : Except Stop (Option (List (List Byte) × Recordings)) :=
  if (commandPreview world.loop.inputQueueMax world.playerCount world.gameRecord).turnNearest = 0 then .ok none
  else
    match commandFrame (players world.playerCount) 0 world.gameRecord with
    | .error stop => .error stop
    | .ok (none,_) => .error .crash
    | .ok (some texts,moved) => .ok (some (texts,moved))

/-- The iteration does not stall: it takes the turn's commands out of the records and
executes them, which leaves `later` for the simulation of the frame. -/
def Executes (tick : Tick) (world later : World σ) (texts : List (List Byte)) : Prop :=
  (commandPreview world.loop.inputQueueMax world.playerCount world.gameRecord).turnNearest ≠ 0 ∧
    takeTurn tick world = .ok (later,texts)

theorem executes_iff (tick : Tick) (world later : World σ) (texts : List (List Byte)) :
    Executes tick world later texts ↔ ∃ moved game, chosen world = .ok (some (texts,moved)) ∧
      executeAll world.library tick.cycles 0 texts world.game = .ok game ∧
      later = {world with game := game, gameRecord := moved} := by
  unfold Executes chosen
  by_cases nearest : (commandPreview world.loop.inputQueueMax world.playerCount world.gameRecord).turnNearest = 0
  · rw [if_pos nearest]
    refine iff_of_false (fun executes => executes.1 nearest) ?_
    rintro ⟨_,_,choice,_⟩
    cases choice
  rw [if_neg nearest,and_iff_right nearest,takeTurn]
  cases commandFrame (players world.playerCount) 0 world.gameRecord with
  | error stop =>
    constructor
    · intro taken
      cases taken
    · rintro ⟨_,_,choice,_⟩
      cases choice
  | ok found =>
    rw [ok_bind]
    rcases found with ⟨_ | commands,moved⟩
    · constructor
      · intro taken
        cases taken
      · rintro ⟨_,_,choice,_⟩
        cases choice
    · dsimp only
      constructor
      · intro taken
        obtain ⟨game,execute,same⟩ := (bind_ok _ _ _).mp taken
        cases same
        exact ⟨moved,game,rfl,execute,rfl⟩
      · rintro ⟨moved',game,choice,execute,rfl⟩
        cases choice
        rw [execute,ok_bind]
        rfl

structure OneEach (tick : Tick) (world later : World σ) (texts : List (List Byte)) : Prop where
  commands : texts = (connected world.gameRecord).filterMap fun i => (waiting (world.gameRecord i)).head?
  taken : ∀ i, known world.gameRecord i = true → waiting (later.gameRecord i) = (waiting (world.gameRecord i)).tail
  executed : executeAll world.library tick.cycles 0 texts world.game = .ok later.game

/-- A turn is executed exactly when every connected player has a command, and executes one of each. -/
structure ExactTurn (tick : Tick) (world : World σ) : Prop where
  turns : (∃ later texts, Executes tick world later texts) ↔ Ready world.gameRecord
  stalls : (commandPreview world.loop.inputQueueMax world.playerCount world.gameRecord).turnNearest = 0 ↔
    ¬ Ready world.gameRecord
  one : ∀ later texts, Executes tick world later texts → OneEach tick world later texts

def nextCommand (recording : Recordings) (i : Fin 4) : List Byte := (waiting (recording i)).headD []

/-- No number below a connected player's is free, the next commands with their
terminators fit the frame's buffer, and none asks for an object that is missing. -/
structure Packed (world : World σ) : Prop where
  front : ∀ i j, known world.gameRecord i = true → j < i → known world.gameRecord j = true
  fits : ((connected world.gameRecord).map fun i => (nextCommand world.gameRecord i).length + 1).sum ≤ frameBufLen
  objects : ∀ i ∈ connected world.gameRecord, ¬ NamesNoObject world.game.engine (nextCommand world.gameRecord i)

/-- No command changes the objects, so each is looked up in the same table. -/
theorem executeAll_total (library : Library σ) (cycles : Nat → Nat → Nat → Nat → UInt64) (i : Nat) (texts : List (List Byte)) (game : Game σ) :
    (∃ later, executeAll library cycles i texts game = .ok later) ↔ ∀ text ∈ texts, ¬ NamesNoObject game.engine text := by
  induction texts generalizing i game with
  | nil => exact iff_of_true ⟨game,rfl⟩ fun text member => absurd member List.not_mem_nil
  | cons text texts ih =>
    rw [List.forall_mem_cons,← executeAny_finishes library (cycles i) game text]
    have kept (next : Game σ) (execute : executeAny library (cycles i) game text = .ok next) (other : List Byte) :
        NamesNoObject next.engine other ↔ NamesNoObject game.engine other := by
      unfold NamesNoObject
      rw [(executeAny_goal library (cycles i) game next text execute).2]
    constructor
    · rintro ⟨later,ok⟩
      obtain ⟨next,execute,rest⟩ := (bind_ok _ _ _).mp ok
      refine ⟨⟨next,execute⟩,?_⟩
      intro other member
      rw [← kept next execute]
      exact (ih (i + 1) next).mp ⟨later,rest⟩ other member
    · rintro ⟨⟨next,execute⟩,others⟩
      obtain ⟨later,rest⟩ := (ih (i + 1) next).mpr fun other member => by
        rw [kept next execute]
        exact others other member
      refine ⟨later,?_⟩
      rw [executeAll,execute,ok_bind]
      exact rest

end Choice

section Records

theorem waiting_written (rw : RecordRW) (lines : List (List Byte)) (t : Nat) (written : Written rw lines)
    (free : Free 0 lines) (cursor : Cursor lines t rw.read) : waiting rw = lines.drop t := by
  rw [waiting,commands_written rw lines written free,cursor.commands]

theorem round_known (conn after : Connection) (recording stored : Recordings)
    (ok : processingRound conn recording = .ok (.next after stored)) : known stored = known recording := by
  rcases round_ok _ _ _ ok with ⟨_,same⟩ | ⟨_,_,player,_,⟨_,same⟩ | ⟨record,_,_,present,store,same⟩⟩
  · cases same
  · cases same
  · cases same
    obtain ⟨_,_,_,_,_,_,_,_,_,_,_,rfl⟩ := storeMessage_ok _ _ _ _ _ _ store
    rw [known_update]
    apply Function.update_eq_self_iff.mpr
    rw [known,present]
    rfl

theorem processing_known (conn after : Connection) (recording stored : Recordings)
    (ok : connectionProcessing conn recording = .ok (true,after,stored)) : known stored = known recording := by
  induction conn, recording using connectionProcessing.induct with
  | case1 conn recording stop round =>
    rw [processing_stops _ _ _ round] at ok
    cases ok
  | case2 conn recording ended last kept round =>
    rw [processing_done _ _ _ _ _ round] at ok
    cases ok
    rcases round_ok _ _ _ round with ⟨_,same⟩ | ⟨_,_,_,_,⟨_,same⟩ | ⟨_,_,_,_,_,same⟩⟩
    · cases same
      rfl
    · cases same
    · cases same
  | case3 conn recording next moved round ih =>
    rw [processing_next _ _ _ _ round] at ok
    exact (ih ok).trans (round_known conn next recording moved round)

theorem sync_known (target : Nat) (conn after : Connection) (wires wires' : Wires) (input sent : RecordRW)
    (recording stored : Recordings) (kernel : Kernel)
    (ok : connectionSync target conn wires input recording kernel = .ok (.ok,after,wires',sent,stored)) :
    known stored = known recording := by
  unfold connectionSync at ok
  obtain ⟨⟨up,polled,incoming⟩,io,ok⟩ := (bind_ok _ _ _).mp ok
  dsimp only at ok
  split at ok
  · cases ok
  · obtain ⟨⟨same,processed,stored'⟩,processing,ok⟩ := (bind_ok _ _ _).mp ok
    dsimp only at ok
    split at ok
    · cases ok
    · next kept =>
      obtain ⟨⟨status,last,sent',outgoing⟩,sending,equal⟩ := (bind_ok _ _ _).mp ok
      cases equal
      obtain rfl : same = true := by simpa using kept
      exact processing_known polled processed recording stored processing

theorem commandFrame_known (order : List (Fin 4)) (used : Nat) (recording moved : Recordings)
    (found : Option (List (List Byte))) (ok : commandFrame order used recording = .ok (found,moved)) :
    known moved = known recording := by
  induction order generalizing used recording found with
  | nil =>
    cases ok
    rfl
  | cons i order ih =>
    rw [commandFrame] at ok
    split at ok
    · cases ok
    · next record present =>
      have kept (read : RecordOffset) :
          known (Function.update recording i {recording i with read := read}) = known recording := by
        rw [known_update]
        exact Function.update_eq_self_iff.mpr rfl
      obtain ⟨⟨cmd,read⟩,_,ok⟩ := (bind_ok _ _ _).mp ok
      dsimp only at ok
      split at ok
      · cases ok
        exact kept read
      · obtain ⟨⟨texts,final⟩,rest,same⟩ := (bind_ok _ _ _).mp ok
        cases same
        exact (ih _ _ texts rest).trans (kept read)

end Records

section Numbers

theorem four_values (Holds : (Fin 4 → Bool) → Prop)
    (all : ∀ a b c d : Bool, Holds fun | 0 => a | 1 => b | 2 => c | 3 => d) (present : Fin 4 → Bool) : Holds present := by
  have same : present = fun | 0 => present 0 | 1 => present 1 | 2 => present 2 | 3 => present 3 := by
    funext i
    match i with
    | 0 | 1 | 2 | 3 => rfl
  rw [same]
  exact all _ _ _ _

/-- As many records as players, counted from the front, are the connected ones when
no number below a connected player's is free. -/
theorem front_players (present : Fin 4 → Bool) (front : ∀ i j, present i = true → j < i → present j = true) :
    players ((List.finRange 4).filter present).length = (List.finRange 4).filter present := by
  revert front
  apply four_values (fun present => (∀ i j, present i = true → j < i → present j = true) →
    players ((List.finRange 4).filter present).length = (List.finRange 4).filter present)
  decide

theorem gap_player (present : Fin 4 → Bool)
    (all : ∀ i ∈ players ((List.finRange 4).filter present).length, present i = true) (i j : Fin 4)
    (higher : present i = true) (below : j < i) : present j = true := by
  revert i j
  revert all
  apply four_values (fun present => (∀ i ∈ players ((List.finRange 4).filter present).length, present i = true) →
    ∀ i j, present i = true → j < i → present j = true)
  decide

end Numbers

section Sessions
variable {σ : Type}

theorem advance_runs (tick : Tick) (status : ConnStatus) (world later : World σ) (turn : Option Turn)
    (ok : advance tick status world = .ok (some (later,turn))) (running : later.loop.running = true) : status = .ok := by
  cases status with
  | ok => rfl
  | corrupt =>
    cases ok
    cases running
  | term =>
    cases ok
    cases running
  | change =>
    cases ok
    cases running

theorem advance_known (tick : Tick) (status : ConnStatus) (world later : World σ) (turn : Option Turn)
    (ok : advance tick status world = .ok (some (later,turn))) :
    later.playerCount = world.playerCount ∧ known later.gameRecord = known world.gameRecord := by
  rcases advance_cases tick status world later turn ok with ⟨_,idle⟩ | ⟨taken,_,_,turned⟩
  · exact ⟨idle.playerCount,by rw [idle.gameRecord]⟩
  · exact ⟨turned.playerCount,commandFrame_known _ 0 _ _ _ turned.commands⟩

theorem syncStep_known (tick : Tick) (world synced : World σ) (lines : List (List Byte))
    (recorded : Recorded world.input lines) (ok : syncStep tick world = .ok (.ok,synced)) :
    synced.playerCount = world.playerCount ∧ known synced.gameRecord = known world.gameRecord := by
  unfold syncStep at ok
  obtain ⟨middle,gathering,ok⟩ := (bind_ok _ _ _).mp ok
  obtain ⟨gathered,_⟩ := gather_gathered tick world middle lines recorded gathering
  obtain ⟨⟨status,conn,wires,input,gameRecord⟩,sync,same⟩ := (bind_ok _ _ _).mp ok
  cases same
  refine ⟨gathered.playerCount,?_⟩
  rw [← gathered.gameRecord]
  exact sync_known _ _ _ _ _ _ _ _ _ _ sync

theorem counted (framerate : UInt8) (ep : EndPoint) (frames : List Frame) (keyboard : List Byte) (world : World σ)
    (log : SessionLog σ) (past : List (SessionLog σ))
    (process : Process framerate ep (wire frames) keyboard world log past) (running : world.loop.running = true) :
    world.playerCount = (connected world.gameRecord).length := by
  induction process with
  | boot library calibration world opened =>
    subst opened
    rfl
  | iterate world synced later log past tick status turn process before sync step ih =>
    obtain rfl := advance_runs tick status synced later turn step running
    obtain ⟨lines,_,_,_,_,head⟩ := process_head framerate ep frames keyboard world log past process
    obtain ⟨count,same⟩ := syncStep_known tick world synced lines head.accounted.recorded sync
    obtain ⟨count',same'⟩ := advance_known tick .ok synced later turn step
    rw [count',count,ih before,connected,connected,same',same]
  | reload world opened log past library calibration process stopped stays started ih =>
    subst started
    rfl

theorem preview_waiting (world : World σ) (logs : Fin 4 → List (List Byte)) (t : Nat)
    (queue : world.loop.inputQueueMax ≠ 0) (written : ∀ i, Written (world.gameRecord i) (logs i))
    (free : ∀ i, Free 0 (logs i)) (reads : ∀ i ∈ players world.playerCount, Cursor (logs i) t (world.gameRecord i).read) :
    (commandPreview world.loop.inputQueueMax world.playerCount world.gameRecord).turnNearest ≠ 0 ↔
      ∀ i ∈ players world.playerCount, waiting (world.gameRecord i) ≠ [] := by
  rw [preview_positive,and_iff_right queue]
  have each (i : Fin 4) (member : i ∈ players world.playerCount) :
      ahead (world.gameRecord i) ≠ 0 ↔ waiting (world.gameRecord i) ≠ [] := by
    rw [ahead_count _ _ t (written i) (reads i member),waiting_written _ _ t (written i) (free i) (reads i member),
      ← List.length_drop,Ne,List.length_eq_zero_iff]
  exact forall₂_congr each

theorem stalled_exact (tick : Tick) (world : World σ)
    (stalls : (commandPreview world.loop.inputQueueMax world.playerCount world.gameRecord).turnNearest = 0) :
    ExactTurn tick world ↔ ¬ Ready world.gameRecord := by
  constructor
  · intro exact_turn
    exact exact_turn.stalls.mp stalls
  · intro not_ready
    refine ⟨⟨?_,fun ready => absurd ready not_ready⟩,⟨fun _ => not_ready,fun _ => stalls⟩,?_⟩
    · rintro ⟨later,texts,nearest,_⟩
      exact absurd stalls nearest
    · rintro later texts ⟨nearest,_⟩
      exact absurd stalls nearest

theorem taken_exact (tick : Tick) (world later : World σ) (texts : List (List Byte))
    (executes : Executes tick world later texts) (ready : Ready world.gameRecord)
    (one : OneEach tick world later texts) : ExactTurn tick world := by
  refine ⟨⟨fun _ => ready,fun _ => ⟨later,texts,executes⟩⟩,?_,?_⟩
  · exact ⟨fun stalls => absurd stalls executes.1,fun not_ready => absurd ready not_ready⟩
  · rintro later' texts' ⟨_,taken⟩
    cases executes.2.symm.trans taken
    exact one

theorem ready_exact (tick : Tick) (world : World σ) (logs : Fin 4 → List (List Byte)) (t : Nat)
    (written : ∀ i, Written (world.gameRecord i) (logs i)) (free : ∀ i, Free 0 (logs i))
    (same : players world.playerCount = connected world.gameRecord)
    (reads : ∀ i ∈ players world.playerCount, Cursor (logs i) t (world.gameRecord i).read)
    (nearest : (commandPreview world.loop.inputQueueMax world.playerCount world.gameRecord).turnNearest ≠ 0)
    (ready : Ready world.gameRecord) :
    ExactTurn tick world ↔
      ((connected world.gameRecord).map fun i => (nextCommand world.gameRecord i).length + 1).sum ≤ frameBufLen ∧
        ∀ i ∈ connected world.gameRecord, ¬ NamesNoObject world.game.engine (nextCommand world.gameRecord i) := by
  rw [same] at reads
  have present (i : Fin 4) (member : i ∈ connected world.gameRecord) : known world.gameRecord i = true :=
    (List.mem_filter.mp member).2
  have listed (i : Fin 4) (here : known world.gameRecord i = true) : i ∈ connected world.gameRecord :=
    List.mem_filter.mpr ⟨List.mem_finRange i,here⟩
  have wait (i : Fin 4) (member : i ∈ connected world.gameRecord) : waiting (world.gameRecord i) = (logs i).drop t :=
    waiting_written _ _ t (written i) (free i) (reads i member)
  have more : Covers (connected world.gameRecord) logs (t + 1) := by
    intro i member
    have some_command := ready i (present i member)
    rw [wait i member,Ne,List.drop_eq_nil_iff] at some_command
    omega
  have due : (connected world.gameRecord).map (fun i => (logs i)[t]?.getD []) =
      (connected world.gameRecord).map (nextCommand world.gameRecord) := by
    apply List.map_congr_left
    intro i member
    rw [nextCommand,wait i member,List.headD_eq_head?_getD,List.head?_drop]
  have lengths : ((connected world.gameRecord).map fun i => ((logs i)[t]?.getD []).length + 1) =
      (connected world.gameRecord).map fun i => (nextCommand world.gameRecord i).length + 1 := by
    have counted := congrArg (List.map fun text => text.length + 1) due
    rwa [List.map_map,List.map_map] at counted
  have once : (connected world.gameRecord).Nodup := (List.nodup_finRange 4).filter _
  obtain ⟨takes,ends⟩ := commandFrame_takes (connected world.gameRecord) 0 world.gameRecord
    (fun i => (logs i)[t]?.getD []) once (Nat.zero_le _) fun i member =>
      (next_written _ _ t (written i) (free i) (reads i member) (more i member)).1
  rw [lengths,Nat.zero_add] at takes ends
  have finishes := executeAll_total world.library tick.cycles 0 ((connected world.gameRecord).map (nextCommand world.gameRecord))
    world.game
  rw [List.forall_mem_map] at finishes
  rcases Nat.lt_or_ge frameBufLen ((connected world.gameRecord).map fun i =>
      (nextCommand world.gameRecord i).length + 1).sum with full | fits
  · obtain ⟨moved,frame⟩ := ends full
    have choice : chosen world = .error .crash := by rw [chosen,if_neg nearest,same,frame]
    refine iff_of_false ?_ fun safe => absurd safe.1 (Nat.not_le_of_lt full)
    intro exact_turn
    obtain ⟨later,texts,executes⟩ := exact_turn.turns.mpr ready
    obtain ⟨_,_,taken,_⟩ := (executes_iff tick world later texts).mp executes
    cases choice.symm.trans taken
  · have frame := takes fits
    rw [due] at frame
    generalize passed (connected world.gameRecord) (fun i => (logs i)[t]?.getD []) world.gameRecord = moved at frame
    have choice : chosen world = .ok (some ((connected world.gameRecord).map (nextCommand world.gameRecord),moved)) := by
      rw [chosen,if_neg nearest,same,frame]
    obtain ⟨rows,written',next',_⟩ := commandFrame_ok _ 0 t world.gameRecord moved logs _ once (Nat.zero_le _) written
      free reads more frame
    rw [and_iff_right fits,← finishes]
    constructor
    · intro exact_turn
      obtain ⟨later,texts,executes⟩ := exact_turn.turns.mpr ready
      obtain ⟨_,game,taken,execute,_⟩ := (executes_iff tick world later texts).mp executes
      cases choice.symm.trans taken
      exact ⟨game,execute⟩
    · rintro ⟨game,execute⟩
      apply taken_exact tick world _ _ ((executes_iff tick world _ _).mpr ⟨moved,game,choice,execute,rfl⟩) ready
      refine ⟨?_,?_,execute⟩
      · rw [rows,row]
        apply List.filterMap_congr
        intro i member
        rw [wait i member,List.head?_drop]
      · intro i here
        have member := listed i here
        rw [wait i member]
        dsimp only
        rw [waiting_written _ _ (t + 1) (written' i) (free i) (next' i member),List.tail_drop]

/-- Behind a successful synchronization a turn is executed exactly when every
connected player has a command, if and only if, when they all have one, their
numbers are the lowest, the commands fit the buffer and none asks for a missing object. -/
theorem exact_turn_iff (framerate : UInt8) (ep : EndPoint) (frames : List Frame) (keyboard : List Byte)
    (world synced : World σ) (log : SessionLog σ) (past : List (SessionLog σ)) (tick : Tick)
    (process : Process framerate ep (wire frames) keyboard world log past) (positive : 1 ≤ framerate.toNat)
    (running : world.loop.running = true) (sync : syncStep tick world = .ok (.ok,synced)) :
    ExactTurn tick synced ↔ (Ready synced.gameRecord → Packed synced) := by
  obtain ⟨lines,done,rest,sent,images,head⟩ := process_head framerate ep frames keyboard world log past process
  obtain ⟨more,now,later,m,_,reached⟩ := syncStep_ok tick .ok world synced lines done rest sent
    head.accounted.recorded head.accounted.cursor head.accounted.demux sync
  obtain ⟨accounted,_⟩ := synced_accounted .ok world synced more now later m head.accounted reached
  obtain ⟨count,same⟩ := syncStep_known tick world synced lines head.accounted.recorded sync
  have players_count : synced.playerCount = (connected synced.gameRecord).length := by
    rw [count,counted framerate ep frames keyboard world log past process running,connected,connected,same]
  have queue : synced.loop.inputQueueMax ≠ 0 := by
    rw [accounted.queueMax]
    omega
  have reads (i : Fin 4) (member : i ∈ players synced.playerCount) :
      Cursor (texts i (done ++ now)) (synced.loop.frame + synced.loop.pauseFrame) (synced.gameRecord i).read := by
    have cursor := accounted.reads i
    rwa [if_pos ((players_mem _ i).mp member)] at cursor
  have written := accounted.demux.written
  have free (i : Fin 4) := texts_free i (done ++ now)
  have preview := preview_waiting synced _ _ queue written free reads
  by_cases front : ∀ i j, known synced.gameRecord i = true → j < i → known synced.gameRecord j = true
  · have order : players synced.playerCount = connected synced.gameRecord := by
      rw [players_count]
      exact front_players _ front
    have preview_ready : (commandPreview synced.loop.inputQueueMax synced.playerCount synced.gameRecord).turnNearest ≠ 0 ↔
        Ready synced.gameRecord := by
      rw [preview,order,Ready]
      simp [connected]
    by_cases ready : Ready synced.gameRecord
    · rw [ready_exact tick synced _ _ written free order reads (preview_ready.mpr ready) ready]
      exact ⟨fun safe _ => ⟨front,safe.1,safe.2⟩,fun packed => ⟨(packed ready).fits,(packed ready).objects⟩⟩
    · rw [stalled_exact tick synced (not_not.mp fun nearest => ready (preview_ready.mp nearest))]
      exact ⟨fun _ again => absurd again ready,fun _ => ready⟩
  · have nearest : ¬ (commandPreview synced.loop.inputQueueMax synced.playerCount synced.gameRecord).turnNearest ≠ 0 := by
      intro nearest
      apply front
      apply gap_player (known synced.gameRecord)
      intro i member
      rw [← connected,← players_count] at member
      have some_command := preview.mp nearest i member
      cases present : (synced.gameRecord i).record with
      | some record => rw [known,present,Option.isSome_some]
      | none =>
        rw [waiting_written _ _ _ (written i) (free i) (reads i member),(written i).absent present,List.drop_nil]
          at some_command
        exact absurd rfl some_command
    rw [stalled_exact tick synced (not_not.mp nearest)]
    exact ⟨fun not_ready ready => absurd ready not_ready,fun packed ready => front (packed ready).front⟩

theorem joined_waiting (library : Library σ) (frame : Frame) (small : frame.size ≤ 4096) :
    ∃ (world synced : World σ) (past : List (SessionLog σ)) (tick : Tick),
      Process 1 endpointFromFd (wire [frame]) [] world (.start world) past ∧ world.loop.running = true ∧
      syncStep tick world = .ok (.ok,synced) ∧ connected synced.gameRecord = [frame.player] ∧
      waiting (synced.gameRecord frame.player) = [frame.text] ∧ synced.playerCount = 1 ∧
      ∀ i ≠ frame.player, ahead (synced.gameRecord i) = 0 := by
  have short : frame.text.length < 4096 := by
    unfold Frame.size at small
    omega
  obtain ⟨world,past,process,joined,_⟩ := joined_process ⟨1,0,0⟩ library frame small
  obtain ⟨conn,outgoing,input,gameRecord,k,m,sync,demux,same,rewound,_⟩ :=
    joined_sync [] frame world _ _ _ _ joined (by decide) short
  refine ⟨world,_,past,_,process,joined.running,sync,?_,?_,joined.alone,?_⟩
  · rw [connected]
    dsimp only
    rw [same,joined.present]
    generalize frame.player = player
    revert player
    decide
  · have written := demux.written frame.player
    rw [texts_same] at written
    have free : Free 0 [frame.text] := by simpa [Free] using frame.nulFree
    exact waiting_written _ _ 0 written free (by rw [rewound]; exact cursor_zero _)
  · intro i other
    have written := demux.written i
    rw [texts_other frame i other] at written
    exact ahead_count _ [] 0 written (by rw [rewound]; exact cursor_zero _)

theorem exact_turn_letter : ∃ (world synced : World Unit) (past : List (SessionLog Unit)) (tick : Tick),
    Process 1 endpointFromFd (wire [letterFrame]) [] world (.start world) past ∧
      syncStep tick world = .ok (.ok,synced) ∧ ExactTurn tick synced ∧ Ready synced.gameRecord := by
  obtain ⟨world,synced,past,tick,process,running,sync,one,wait,_⟩ := joined_waiting sumLibrary letterFrame (by decide)
  have only (i : Fin 4) (here : known synced.gameRecord i = true) : i = 0 := by
    have member : i ∈ connected synced.gameRecord := List.mem_filter.mpr ⟨List.mem_finRange i,here⟩
    rw [one] at member
    exact List.mem_singleton.mp member
  refine ⟨world,synced,past,tick,process,sync,?_,?_⟩
  · apply (exact_turn_iff 1 endpointFromFd [letterFrame] [] world synced _ past tick process (by decide) running sync).mpr
    intro _
    refine ⟨?_,?_,?_⟩
    · intro i j here lower
      rw [only i here] at lower
      exact absurd lower (Fin.not_lt_zero j)
    · rw [one,List.map_singleton,nextCommand,wait]
      decide
    · intro i member
      rw [one,List.mem_singleton] at member
      rw [member,nextCommand,wait]
      exact fun named => absurd named.1 (by decide)
  · intro i here
    have zero := only i here
    subst zero
    change waiting (synced.gameRecord letterFrame.player) ≠ []
    rw [wait]
    exact List.cons_ne_nil _ _

def gapFrame : Frame := {letterFrame with player := 2}

/-- Player 2 alone has a command, and the iteration stalls. -/
theorem gap_stalls : ∃ (world synced : World Unit) (past : List (SessionLog Unit)) (tick : Tick),
    Process 1 endpointFromFd (wire [gapFrame]) [] world (.start world) past ∧ world.loop.running = true ∧
      syncStep tick world = .ok (.ok,synced) ∧ Ready synced.gameRecord ∧
      (commandPreview synced.loop.inputQueueMax synced.playerCount synced.gameRecord).turnNearest = 0 ∧
      ¬ ExactTurn tick synced := by
  obtain ⟨world,synced,past,tick,process,running,sync,one,wait,alone,others⟩ :=
    joined_waiting sumLibrary gapFrame (by decide)
  have only (i : Fin 4) : known synced.gameRecord i = true ↔ i = 2 := by
    have member : i ∈ connected synced.gameRecord ↔ known synced.gameRecord i = true := by
      rw [connected,List.mem_filter]
      exact and_iff_right (List.mem_finRange i)
    rw [← member,one]
    exact List.mem_singleton
  have ready : Ready synced.gameRecord := by
    intro i here
    rw [(only i).mp here]
    change waiting (synced.gameRecord gapFrame.player) ≠ []
    rw [wait]
    exact List.cons_ne_nil _ _
  have stalls : (commandPreview synced.loop.inputQueueMax synced.playerCount synced.gameRecord).turnNearest = 0 := by
    apply not_not.mp
    rw [← Ne,preview_positive,alone]
    rintro ⟨_,some_ahead⟩
    exact some_ahead 0 (by decide) (others 0 (by decide))
  exact ⟨world,synced,past,tick,process,running,sync,ready,stalls,fun exact_turn => exact_turn.stalls.mp stalls ready⟩

end Sessions

end Craftsman.Readiness
