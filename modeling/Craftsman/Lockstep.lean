import Craftsman.Progress

/-! The accounting of the loop. Every turn takes one command of every player and
advances exactly one of two counters, whatever stalls, file changes, meta
commands and earlier sessions come in between. -/
namespace Craftsman.Lockstep
open Craftsman.Memory Craftsman.Recording Craftsman.CommandLog Craftsman.Network Craftsman.Client
open Craftsman.Frames Craftsman.Demultiplex Craftsman.Text Craftsman.Dlfn Craftsman.Execute
open Craftsman.GameLoop Craftsman.Simulation Craftsman.Iteration Craftsman.Progress Craftsman.Stream.Rounds

section Goals

def goals (texts : List (List Byte)) : List Nat := (texts.filter setsGoal).map executeSimulation

def largestGoal (turns : List Turn) : Nat := (goals (turns.flatMap Turn.commands)).foldl max 0

theorem largestGoal_snoc (turns : List Turn) (turn : Turn) :
    largestGoal (turns ++ [turn]) = (goals turn.commands).foldl max (largestGoal turns) := by
  simp [largestGoal,goals]

theorem le_foldl_max (top : Nat) (values : List Nat) : top ≤ values.foldl max top := by
  induction values generalizing top with
  | nil => exact Nat.le_refl top
  | cons value values ih => exact (Nat.le_max_left top value).trans (ih _)

theorem goalAfter_le (texts : List (List Byte)) (goal top : Nat) (below : goal ≤ top) :
    texts.foldl goalAfter goal ≤ (goals texts).foldl max top := by
  induction texts generalizing goal top with
  | nil => exact below
  | cons text texts ih =>
    by_cases sets : setsGoal text = true
    · rw [List.foldl_cons,goalAfter,if_pos sets,goals,List.filter_cons_of_pos sets]
      exact ih _ _ (Nat.le_max_right top _)
    · rw [List.foldl_cons,goalAfter,if_neg sets,goals,List.filter_cons_of_neg sets]
      exact ih _ _ below

end Goals

section Accounting
variable {σ : Type}

/-- The turns of a session account for every counter: `lines` local commands are
recorded and `sent` of them sent, the frames `done` are stored, and the store of
the simulated frames holds `images`. -/
structure Accounted (framerate : UInt8) (inputRead : Nat) (turns : List Turn) (world : World σ)
    (lines : List (List Byte)) (done rest : List Frame) (sent : Nat) (images : List (List Byte)) : Prop where
  demux : Demux world.conn world.gameRecord world.wires.incoming done rest
  recorded : Recorded world.input lines
  cursor : Cursor lines sent world.input.read
  low : inputRead ≤ sent
  high : sent ≤ max inputRead (world.loop.frame + world.loop.pauseFrame + framerate.toNat)
  queue : world.loop.inputQueue = framerate.toNat
  queueMax : world.loop.inputQueueMax = framerate.toNat
  bounded : world.loop.frame + world.loop.pauseFrame ≤ 2^31
  reads : ∀ i, Cursor (texts i done) (if i.val < world.playerCount then world.loop.frame + world.loop.pauseFrame else 0)
    (world.gameRecord i).read
  simulated : turns.countP Turn.simulated = world.loop.frame
  total : turns.length = world.loop.frame + world.loop.pauseFrame
  store : Written world.frameStore images
  stored : images.length = world.loop.frame * world.game.engine.objects.length
  objects : world.game.engine.objects = (dlfnOpen world.library).2
  goal : world.game.simulationGoal ≤ largestGoal turns
  below : world.loop.frame ≤ largestGoal turns

variable {framerate : UInt8} {inputRead : Nat} {turns : List Turn} {lines : List (List Byte)}
  {done rest : List Frame} {sent : Nat} {images : List (List Byte)}

theorem Accounted.target {world : World σ} (accounted : Accounted framerate inputRead turns world lines done rest sent images) :
    loopWriteFrame world.loop = world.loop.frame + world.loop.pauseFrame + framerate.toNat := by
  have bounded := accounted.bounded
  have small := framerate.toNat_lt
  rw [loopWriteFrame,accounted.queue,u32_of_lt (by omega)]

theorem synced_accounted (status : ConnStatus) (world synced : World σ) (more : List (List Byte)) (now later : List Frame)
    (m : Nat) (accounted : Accounted framerate inputRead turns world lines done rest sent images)
    (step : Synchronized status world synced lines more done now later sent m) :
    Accounted framerate inputRead turns synced (lines ++ more) (done ++ now) later m images ∧
      world.loop.frame + world.loop.pauseFrame + framerate.toNat ≤ 2^31 ∧
      (status = .ok → m = max inputRead (world.loop.frame + world.loop.pauseFrame + framerate.toNat)) := by
  have low := accounted.low
  have high := accounted.high
  have room : world.loop.frame + world.loop.pauseFrame + framerate.toNat ≤ 2^31 := by
    obtain ⟨record,present⟩ := Option.ne_none_iff_exists'.mp step.recorded.present
    have count := (step.recorded.written.holds record present).count_le
    have filled := step.filled
    rw [accounted.target] at filled
    exact filled.trans count
  have same_frame : synced.loop.frame = world.loop.frame := by rw [step.counters]
  have same_pause : synced.loop.pauseFrame = world.loop.pauseFrame := by rw [step.counters]
  refine ⟨?_,room,?_⟩
  · constructor
    case demux => exact step.demux
    case recorded => exact step.recorded
    case cursor => exact step.cursor
    case low => exact low.trans step.low
    case high =>
      have upper := step.high
      rw [accounted.target] at upper
      rw [same_frame,same_pause]
      omega
    case queue => rw [step.counters]; exact accounted.queue
    case queueMax => rw [step.counters]; exact accounted.queueMax
    case bounded => rw [same_frame,same_pause]; exact accounted.bounded
    case reads =>
      intro i
      rw [step.reads,step.playerCount,same_frame,same_pause,texts_append]
      exact (accounted.reads i).append _
    case simulated => rw [same_frame]; exact accounted.simulated
    case total => rw [same_frame,same_pause]; exact accounted.total
    case store => rw [step.frameStore]; exact accounted.store
    case stored => rw [same_frame,step.engine]; exact accounted.stored
    case objects => rw [step.engine,step.library]; exact accounted.objects
    case goal =>
      rcases step.goal with ⟨goal,_⟩ | ⟨goal,_⟩
      · rw [goal]
        exact accounted.goal
      · rw [goal]
        exact Nat.zero_le _
    case below => rw [same_frame]; exact accounted.below
  · intro succeeded
    have complete := step.sent succeeded
    rw [accounted.target] at complete
    omega

theorem idle_accounted (world later : World σ) (accounted : Accounted framerate inputRead turns world lines done rest sent images)
    (idle : Idle world later) : Accounted framerate inputRead turns later lines done rest sent images := by
  have small := framerate.toNat_lt
  constructor
  case demux => rw [idle.conn,idle.gameRecord,idle.wires]; exact accounted.demux
  case recorded => rw [idle.input]; exact accounted.recorded
  case cursor => rw [idle.input]; exact accounted.cursor
  case low => exact accounted.low
  case high => rw [idle.frame,idle.pauseFrame]; exact accounted.high
  case queue =>
    rcases idle.queue with same | raised
    · rw [same]
      exact accounted.queue
    · rw [raised,accounted.queue,accounted.queueMax,u32_of_lt (by omega)]
      omega
  case queueMax => rw [idle.queueMax]; exact accounted.queueMax
  case bounded => rw [idle.frame,idle.pauseFrame]; exact accounted.bounded
  case reads =>
    intro i
    rw [idle.gameRecord,idle.playerCount,idle.frame,idle.pauseFrame]
    exact accounted.reads i
  case simulated => rw [idle.frame]; exact accounted.simulated
  case total => rw [idle.frame,idle.pauseFrame]; exact accounted.total
  case store => rw [idle.frameStore]; exact accounted.store
  case stored => rw [idle.frame,idle.game]; exact accounted.stored
  case objects => rw [idle.game,idle.library]; exact accounted.objects
  case goal => rw [idle.game]; exact accounted.goal
  case below => rw [idle.frame]; exact accounted.below

theorem turned_row (tick : Tick) (world later : World σ) (turn : Turn)
    (accounted : Accounted framerate inputRead turns world lines done rest sent images)
    (turned : Turned tick world later turn) :
    Covers (players world.playerCount) (fun i => texts i done) (turns.length + 1) ∧
      turn.commands = row (players world.playerCount) (fun i => texts i done) turns.length ∧
      (∀ i, Written (later.gameRecord i) (texts i done)) ∧
      (∀ i, Cursor (texts i done) (if i.val < world.playerCount then turns.length + 1 else 0) (later.gameRecord i).read) ∧
      framerate.toNat ≠ 0 := by
  obtain ⟨queue,some_ahead⟩ := (preview_positive _ _ _).mp turned.nearest
  rw [accounted.queueMax] at queue
  have reads (i : Fin 4) (member : i ∈ players world.playerCount) :
      Cursor (texts i done) turns.length (world.gameRecord i).read := by
    have cursor := accounted.reads i
    rwa [if_pos ((players_mem _ i).mp member),← accounted.total] at cursor
  have covers : Covers (players world.playerCount) (fun i => texts i done) (turns.length + 1) := by
    intro i member
    have count := ahead_count _ _ _ (accounted.demux.written i) (reads i member)
    have more := some_ahead i member
    dsimp only
    omega
  obtain ⟨found,written,moved,others⟩ := commandFrame_ok _ 0 turns.length _ _ (fun i => texts i done) _
    (players_nodup _) (Nat.zero_le _) accounted.demux.written (fun i => texts_free i done) reads covers turned.commands
  refine ⟨covers,found,written,?_,queue⟩
  intro i
  by_cases inside : i.val < world.playerCount
  · rw [if_pos inside]
    exact moved i ((players_mem _ i).mpr inside)
  · have cursor := accounted.reads i
    rw [if_neg inside] at cursor ⊢
    rwa [others i (fun member => inside ((players_mem _ i).mp member))]

/-- A turn keeps the account of the wires, the records and the queue; what it does to
the game and to the frame store is accounted for apart. -/
theorem Accounted.turn {tick : Tick} {world later : World σ} {turn : Turn} {images' : List (List Byte)}
    (accounted : Accounted framerate inputRead turns world lines done rest sent images)
    (turned : Turned tick world later turn)
    (room : later.loop.frame + later.loop.pauseFrame ≤ 2^31)
    (moved : later.loop.frame + later.loop.pauseFrame = world.loop.frame + world.loop.pauseFrame + 1)
    (simulated : (turns ++ [turn]).countP Turn.simulated = later.loop.frame) (store : Written later.frameStore images')
    (stored : images'.length = later.loop.frame * later.game.engine.objects.length)
    (objects : later.game.engine.objects = (dlfnOpen later.library).2)
    (goal : later.game.simulationGoal ≤ largestGoal (turns ++ [turn]))
    (below : later.loop.frame ≤ largestGoal (turns ++ [turn])) :
    Accounted framerate inputRead (turns ++ [turn]) later lines done rest sent images' := by
  obtain ⟨_,_,written,reads,_⟩ := turned_row tick world later turn accounted turned
  have total := accounted.total
  have high := accounted.high
  constructor
  case demux =>
    rw [turned.conn,turned.wires]
    exact {accounted.demux with written := written}
  case recorded => rw [turned.input]; exact accounted.recorded
  case cursor => rw [turned.input]; exact accounted.cursor
  case low => exact accounted.low
  case high => omega
  case queue => rw [turned.queue]; exact accounted.queue
  case queueMax => rw [turned.queueMax]; exact accounted.queueMax
  case bounded => exact room
  case reads =>
    intro i
    rw [turned.playerCount,moved,← total]
    exact reads i
  case simulated => exact simulated
  case total =>
    rw [List.length_append,List.length_singleton,moved,total]
  case store => exact store
  case stored => exact stored
  case objects => exact objects
  case goal => exact goal
  case below => exact below

theorem turned_accounted (tick : Tick) (world later : World σ) (turn : Turn)
    (accounted : Accounted framerate inputRead turns world lines done rest sent images)
    (room : world.loop.frame + world.loop.pauseFrame + framerate.toNat ≤ 2^31) (turned : Turned tick world later turn) :
    ∃ images, Accounted framerate inputRead (turns ++ [turn]) later lines done rest sent images := by
  obtain ⟨_,_,_,_,queue⟩ := turned_row tick world later turn accounted turned
  obtain ⟨game,execute,outcome⟩ := turned.executed
  obtain ⟨goal,objects⟩ := executeAll_goal _ _ _ _ _ _ execute
  have top : game.simulationGoal ≤ largestGoal (turns ++ [turn]) := by
    rw [goal,largestGoal_snoc]
    exact goalAfter_le _ _ _ accounted.goal
  have grown : largestGoal turns ≤ largestGoal (turns ++ [turn]) := by
    rw [largestGoal_snoc]
    exact le_foldl_max _ _
  have counted : (turns ++ [turn]).countP Turn.simulated = world.loop.frame + if turn.simulated then 1 else 0 := by
    rw [List.countP_append,accounted.simulated,List.countP_singleton]
  rcases outcome with ⟨_,kind,same,store,frame,pause⟩ | ⟨below,kind,simulate,frame,pause⟩
  · rw [u32_of_lt (by omega)] at pause
    rw [kind] at counted
    refine ⟨images,accounted.turn turned (by omega) (by omega) (by rw [counted,frame]; rfl)
      (by rw [store]; exact accounted.store) ?_ ?_ ?_ ?_⟩
    · rw [frame,same,objects]
      exact accounted.stored
    · rw [same,objects,turned.library]
      exact accounted.objects
    · rw [same]
      exact top
    · rw [frame]
      exact accounted.below.trans grown
  · rw [u32_of_lt (by omega)] at frame
    rw [kind] at counted
    obtain ⟨engine,memory,calls,_,same,kept,written⟩ := simulateFrame_ok _ _ _ _ _ _ images accounted.store simulate
    rw [objects] at kept
    refine ⟨_,accounted.turn turned (by omega) (by omega) (by rw [counted,frame]; rfl) written ?_ ?_ ?_ ?_⟩
    · rw [frame,same,List.length_append,List.length_map,accounted.stored,objects,Nat.add_mul,Nat.one_mul]
      dsimp only
      rw [kept]
    · rw [same,turned.library]
      dsimp only
      rw [kept]
      exact accounted.objects
    · rw [same]
      exact top
    · rw [frame]
      omega

end Accounting

section Sessions
variable {σ : Type}

def Played (library : Library σ) (turn : Turn) (before after : Shared σ) : Prop :=
  before.frame = turn.frame ∧ before.pauseFrame = turn.pauseFrame ∧
    ∃ cycles game, executeAll library cycles 0 turn.commands before.game = .ok game ∧
      (game.simulationGoal ≤ turn.frame ∧ turn.simulated = false ∧
          after = ⟨game,turn.frame,u32 (turn.pauseFrame + 1)⟩ ∨
        turn.frame < game.simulationGoal ∧ turn.simulated = true ∧ ∃ unset engine memory calls,
          frameBody library unset game.engine game.memory = .ok (engine,memory,calls) ∧
            after = ⟨{game with engine := engine, memory := memory},u32 (turn.frame + 1),turn.pauseFrame⟩)

theorem turned_played (tick : Tick) (world later : World σ) (turn : Turn) (before : Shared σ)
    (engine : world.game.engine = before.game.engine) (memory : world.game.memory = before.game.memory)
    (frame : world.loop.frame = before.frame) (pause : world.loop.pauseFrame = before.pauseFrame)
    (hidden : world.game.simulationGoal = before.game.simulationGoal ∨ turn.commands.any setsGoal = true)
    (turned : Turned tick world later turn) : Played world.library turn before later.shared := by
  obtain ⟨game,execute,outcome⟩ := turned.executed
  have goal := goalAfter_hides turn.commands _ _ hidden
  rw [← (executeAll_goal _ _ _ _ _ _ execute).1] at goal
  have again := executeAll_regoal world.library tick.cycles 0 before.game.simulationGoal _ _ _ execute
  rw [← goal,engine,memory] at again
  refine ⟨frame.symm.trans turned.at_frame.symm,pause.symm.trans turned.at_pause.symm,tick.cycles,game,again,?_⟩
  rw [turned.at_frame,turned.at_pause]
  rcases outcome with ⟨reached,kind,same,_,frame,pause⟩ | ⟨below,kind,simulate,frame,pause⟩
  · refine .inl ⟨reached,kind,?_⟩
    rw [World.shared,same,frame,pause]
  · refine .inr ⟨below,kind,tick.unset,?_⟩
    unfold simulateFrame at simulate
    obtain ⟨⟨engine,memory,calls⟩,body,simulate⟩ := (bind_ok _ _ _).mp simulate
    obtain ⟨store,_,same⟩ := (bind_ok _ _ _).mp simulate
    refine ⟨engine,memory,calls,body,?_⟩
    rw [World.shared,frame,pause,← (Prod.mk.inj (Except.ok.inj same)).1]

/-- A session's log beside the frames stored so far: each turn took the next round
of the players' commands, and the calm turns lead from state to state. -/
structure Logged (log : SessionLog σ) (done : List Frame) : Prop where
  sizes : log.states.length = log.turns.length + 1
  start : ∃ engine, log.states[0]? = some ⟨⟨openSession log.library engine,log.library.init,0⟩,0,0⟩
  calm : log.calm ≤ log.turns.length
  covers : Covers (players log.playerCount) (fun i => texts i done) log.turns.length
  rows : ∀ j turn, log.turns[j]? = some turn →
    turn.commands = row (players log.playerCount) (fun i => texts i done) j
  chain : Chain (Played log.library) log.turns log.states log.calm

theorem Logged.grow {log : SessionLog σ} {done : List Frame} (logged : Logged log done) (now : List Frame) :
    Logged log (done ++ now) := by
  have longer (i : Fin 4) : texts i done <+: texts i (done ++ now) := by
    rw [texts_append]
    exact List.prefix_append _ _
  refine {logged with covers := logged.covers.grow longer, rows := ?_}
  intro j turn found
  obtain ⟨inside,_⟩ := List.getElem?_eq_some_iff.mp found
  have early : Covers (players log.playerCount) (fun i => texts i done) (j + 1) :=
    fun i member => inside.trans_le (logged.covers i member)
  rw [logged.rows j turn found]
  exact row_agree _ _ _ j (fun i _ => .inl (longer i)) early (early.grow longer)

theorem Logged.idle {log : SessionLog σ} {done : List Frame} (logged : Logged log done) (status : ConnStatus)
    (world synced later : World σ) (calm : log.calm = log.turns.length) :
    Logged (log.after status world synced later none) done := by
  have same : (log.after status world synced later none).calm = log.calm := by
    simp [SessionLog.after,calm]
  have turns : (log.after status world synced later none).turns = log.turns := List.append_nil _
  have states : (log.after status world synced later none).states = log.states := List.append_nil _
  exact ⟨by rw [turns,states]; exact logged.sizes,by rw [states]; exact logged.start,by rw [turns,same]; exact logged.calm,
    by rw [turns]; exact logged.covers,by rw [turns]; exact logged.rows,by rw [turns,states,same]; exact logged.chain⟩

theorem Logged.turn {log : SessionLog σ} {done : List Frame} (logged : Logged log done) (status : ConnStatus)
    (world synced later : World σ) (turn : Turn) (calm : log.calm = log.turns.length)
    (covers : Covers (players log.playerCount) (fun i => texts i done) (log.turns.length + 1))
    (commands : turn.commands = row (players log.playerCount) (fun i => texts i done) log.turns.length)
    (last : log.states[log.turns.length]? = some world.shared)
    (played : synced.game.simulationGoal = world.game.simulationGoal ∨ turn.commands.any setsGoal = true →
      Played log.library turn world.shared later.shared) :
    Logged (log.after status world synced later (some turn)) done := by
  have turns : (log.after status world synced later (some turn)).turns = log.turns ++ [turn] := rfl
  have states : (log.after status world synced later (some turn)).states = log.states ++ [later.shared] := rfl
  have sizes := logged.sizes
  refine ⟨?_,?_,?_,?_,?_,?_⟩
  · rw [turns,states,List.length_append,List.length_append,sizes]
    rfl
  · obtain ⟨engine,start⟩ := logged.start
    refine ⟨engine,?_⟩
    rw [states,List.getElem?_append_left (by omega)]
    exact start
  · unfold SessionLog.after
    dsimp only
    have before := logged.calm
    split
    · exact Nat.le_refl _
    · rw [List.length_append]
      omega
  · rw [turns,List.length_append]
    exact covers
  · intro j entry found
    rw [turns] at found
    rcases Nat.lt_or_ge j log.turns.length with early | late
    · rw [List.getElem?_append_left early] at found
      exact logged.rows j entry found
    · rw [List.getElem?_append_right late] at found
      obtain ⟨inside,entry_is⟩ := List.getElem?_eq_some_iff.mp found
      rw [List.length_singleton] at inside
      have here : j = log.turns.length := by omega
      rw [List.getElem_singleton] at entry_is
      rw [← entry_is,here]
      exact commands
  · rw [turns,states]
    have chain := logged.chain
    rw [calm] at chain
    unfold SessionLog.after
    dsimp only
    split
    · next kept =>
      rw [Option.toList_some,List.any_cons,List.any_nil,Bool.or_false] at kept
      rw [List.length_append]
      exact chain.snoc sizes turn _ _ last (played kept)
    · rw [calm]
      exact chain.extend _ _

end Sessions

section Runs
variable {σ : Type}

structure Head (framerate : UInt8) (frames : List Frame) (world : World σ) (log : SessionLog σ)
    (past : List (SessionLog σ)) (lines : List (List Byte)) (done rest : List Frame) (sent : Nat)
    (images : List (List Byte)) : Prop where
  split : frames = done ++ rest
  accounted : Accounted framerate log.inputRead log.turns world lines done rest sent images
  library : log.library = world.library
  playerCount : log.playerCount = world.playerCount
  logged : Logged log done
  current : world.loop.running = true →
    log.calm = log.turns.length ∧ log.states[log.turns.length]? = some world.shared
  whole : log.interrupted = false → log.calm = log.turns.length
  past : ∀ earlier ∈ past, Logged earlier done

theorem head_start (framerate : UInt8) (calibration : Calibration) (library : Library σ) (world : World σ)
    (frames : List Frame) (past : List (SessionLog σ)) (lines : List (List Byte)) (done rest : List Frame) (sent : Nat)
    (split : frames = done ++ rest) (demux : Demux world.conn world.gameRecord world.wires.incoming done rest)
    (recorded : Recorded world.input lines) (cursor : Cursor lines sent world.input.read)
    (rewound : ∀ i, (world.gameRecord i).read = .zero) (logged : ∀ earlier ∈ past, Logged earlier done) :
    Head framerate frames (startSession framerate calibration library world)
      (.start (startSession framerate calibration library world)) past lines done rest sent [] := by
  have accounted : Accounted framerate world.input.read.commandCount []
      (startSession framerate calibration library world) lines done rest sent [] := by
    refine ⟨demux,recorded,cursor,?_,?_,rfl,rfl,Nat.zero_le _,?_,rfl,rfl,written_empty.alloc rfl,?_,rfl,
      Nat.zero_le _,Nat.zero_le _⟩
    · rw [cursor.commands]
    · rw [cursor.commands]
      exact Nat.le_max_left _ _
    · intro i
      have zero := cursor_zero (texts i done)
      rw [← rewound i] at zero
      split <;> exact zero
    · exact (Nat.zero_mul _).symm
  have logged_start : Logged (.start (startSession framerate calibration library world)) done := by
    refine ⟨rfl,⟨world.game.engine,rfl⟩,Nat.le_refl 0,fun _ _ => Nat.zero_le _,?_,?_⟩
    · intro j turn found
      cases found
    · intro j inside
      exact absurd inside (Nat.not_lt_zero j)
  exact ⟨split,accounted,rfl,rfl,logged_start,fun _ => ⟨rfl,rfl⟩,fun _ => rfl,logged⟩

variable {framerate : UInt8} {frames : List Frame} {world synced later : World σ} {log : SessionLog σ}
  {past : List (SessionLog σ)} {lines : List (List Byte)} {done rest : List Frame} {sent : Nat}
  {images : List (List Byte)}

theorem Head.goal {status : ConnStatus} {more : List (List Byte)} {now rest' : List Frame} {m : Nat}
    (step : Synchronized status world synced lines more done now rest' sent m) (running : synced.loop.running = true) :
    synced.game = world.game := by
  rcases step.goal with ⟨goal,_⟩ | ⟨_,halted⟩
  · calc synced.game = ⟨synced.game.engine,synced.game.memory,synced.game.simulationGoal⟩ := rfl
      _ = ⟨world.game.engine,world.game.memory,world.game.simulationGoal⟩ := by rw [step.engine,step.memory,goal]
      _ = world.game := rfl
  · rw [running] at halted
    cases halted

theorem head_iterate (tick : Tick) (status : ConnStatus) (turn : Option Turn)
    (head : Head framerate frames world log past lines done rest sent images) (running : world.loop.running = true)
    (sync : syncStep tick world = .ok (status,synced)) (step : advance tick status synced = .ok (some (later,turn))) :
    ∃ lines done rest sent images,
      Head framerate frames later (log.after status world synced later turn) past lines done rest sent images := by
  obtain ⟨calm,last⟩ := head.current running
  obtain ⟨more,now,rest',m,cut,reached⟩ := syncStep_ok tick status world synced lines done rest sent
    head.accounted.recorded head.accounted.cursor head.accounted.demux sync
  obtain ⟨accounted,room,_⟩ := synced_accounted status world synced more now rest' m head.accounted reached
  have split : frames = done ++ now ++ rest' := by rw [head.split,cut,List.append_assoc]
  have past : ∀ earlier ∈ past, Logged earlier (done ++ now) := fun earlier member => (head.past earlier member).grow now
  have logged := head.logged.grow now
  have same_frame : synced.loop.frame = world.loop.frame := by rw [reached.counters]
  have same_pause : synced.loop.pauseFrame = world.loop.pauseFrame := by rw [reached.counters]
  have all (again : synced.loop.running = true) : (log.after status world synced later turn).calm =
      (log.after status world synced later turn).turns.length := by
    unfold SessionLog.after
    dsimp only
    rw [if_pos (.inl (congrArg Game.simulationGoal (Head.goal reached again)))]
  have whole (quiet : (log.after status world synced later turn).interrupted = false) :
      (log.after status world synced later turn).calm = (log.after status world synced later turn).turns.length := by
    apply all
    unfold SessionLog.after at quiet
    simp only [Bool.or_eq_false_iff,Bool.not_eq_false'] at quiet
    exact quiet.1.1.2
  rcases advance_cases tick status synced later turn step with ⟨rfl,idle⟩ | ⟨taken,rfl,rfl,turned⟩
  · have current (again : later.loop.running = true) :
        (log.after status world synced later none).states[(log.after status world synced later none).turns.length]? =
          some later.shared := by
      have kept := Head.goal reached (idle.running again)
      have states : (log.after status world synced later none).states = log.states := List.append_nil _
      have turns : (log.after status world synced later none).turns = log.turns := List.append_nil _
      rw [states,turns,last,World.shared,World.shared,idle.game,idle.frame,idle.pauseFrame,kept,same_frame,same_pause]
    have turns : (log.after status world synced later none).turns = log.turns := List.append_nil _
    refine ⟨lines ++ more,done ++ now,rest',m,images,split,?_,?_,?_,logged.idle status world synced later calm,
      fun again => ⟨all (idle.running again),current again⟩,whole,past⟩
    · rw [turns]
      exact idle_accounted synced later accounted idle
    · exact head.library.trans (reached.library.symm.trans idle.library.symm)
    · exact head.playerCount.trans (reached.playerCount.symm.trans idle.playerCount.symm)
  · obtain ⟨covers,commands,_⟩ := turned_row tick synced later taken accounted turned
    obtain ⟨images',accounted'⟩ := turned_accounted tick synced later taken accounted
      (by rwa [same_frame,same_pause]) turned
    rw [reached.playerCount,← head.playerCount] at covers commands
    have played (hidden : synced.game.simulationGoal = world.game.simulationGoal ∨ taken.commands.any setsGoal = true) :
        Played log.library taken world.shared later.shared := by
      rw [head.library,← reached.library]
      exact turned_played tick synced later taken world.shared reached.engine reached.memory same_frame same_pause
        hidden turned
    have sizes := head.logged.sizes
    refine ⟨lines ++ more,done ++ now,rest',m,images',split,accounted',?_,?_,
      logged.turn _ world synced later taken calm covers commands last played,
      fun again => ⟨all (turned.running ▸ again),?_⟩,whole,past⟩
    · exact head.library.trans (reached.library.symm.trans turned.library.symm)
    · exact head.playerCount.trans (reached.playerCount.symm.trans turned.playerCount.symm)
    · have turns : (log.after .ok world synced later (some taken)).turns.length = log.states.length := by
        rw [sizes]
        exact List.length_append
      rw [turns]
      exact List.getElem?_concat_length ..

theorem process_head (framerate : UInt8) (ep : EndPoint) (frames : List Frame) (keyboard : List Byte) (world : World σ)
    (log : SessionLog σ) (past : List (SessionLog σ))
    (process : Process framerate ep (wire frames) keyboard world log past) :
    ∃ lines done rest sent images, Head framerate frames world log past lines done rest sent images := by
  induction process with
  | boot library calibration world opened =>
    subst opened
    refine ⟨[],[],frames,0,[],head_start framerate calibration library _ frames [] [] [] frames 0 rfl ?_ ?_
      (cursor_zero []) (fun _ => rfl) (fun _ member => absurd member List.not_mem_nil)⟩
    · exact ⟨Int.le_refl _,(by decide : (0 : Int) ≤ 4096),rfl,fun _ => written_empty,fun _ => rfl,fun _ => rfl⟩
    · exact ⟨written_empty.alloc rfl,fun _ member => absurd member List.not_mem_nil,by simp [World.boot]⟩
  | iterate world synced later log past tick status turn process running sync step head =>
    obtain ⟨lines,done,rest,sent,images,head⟩ := head
    exact head_iterate tick status turn head running sync step
  | reload world opened log past library calibration process stopped stays started head =>
    obtain ⟨lines,done,rest,sent,images,head⟩ := head
    subst started
    have demux := head.accounted.demux
    refine ⟨lines,done,rest,sent,[],head_start framerate calibration library _ frames _ lines done rest sent head.split ?_
      head.accounted.recorded head.accounted.cursor (fun _ => rfl) ?_⟩
    · exact {demux with written := fun i => (demux.written i).read .zero}
    · intro earlier member
      rcases List.mem_append.mp member with member | member
      · exact head.past earlier member
      · rw [List.mem_singleton.mp member]
        exact head.logged

/-- What a turn says of itself is what it did: its commands are executed, and the frame
is simulated where it says so and nowhere else. -/
theorem turned_simulates (tick : Tick) (synced later : World σ) (turn : Turn) (turned : Turned tick synced later turn) :
    ∃ game, executeAll synced.library tick.cycles 0 turn.commands synced.game = .ok game ∧
      if turn.simulated then
        simulateFrame synced.library tick.unset game synced.frameStore = .ok (later.game,later.frameStore)
      else later.game = game ∧ later.frameStore = synced.frameStore := by
  obtain ⟨game,execute,ends⟩ := turned.executed
  refine ⟨game,execute,?_⟩
  rcases ends with ⟨_,paused,ended,kept,_⟩ | ⟨_,simulated,simulate,_⟩
  · rw [paused,if_neg Bool.false_ne_true]
    exact ⟨ended,kept⟩
  · rw [simulated,if_pos rfl]
    exact simulate

/-- Lockstep: at every head of the loop the turns account for the read offsets,
the simulated frames and their images, and a synchronization that succeeds has
sent the local commands up to the target. The turn behind it counts as simulated
exactly when it has the frame simulated. -/
theorem lockstep (framerate : UInt8) (ep : EndPoint) (frames : List Frame) (keyboard : List Byte) (world : World σ)
    (log : SessionLog σ) (past : List (SessionLog σ))
    (process : Process framerate ep (wire frames) keyboard world log past) :
    (∀ i : Fin 4, i.val < world.playerCount →
        (world.gameRecord i).read.commandCount = u32 (world.loop.frame + world.loop.pauseFrame)) ∧
      log.turns.countP Turn.simulated = world.loop.frame ∧
      world.frameStore.write.commandCount = world.loop.frame * world.game.engine.objects.length ∧
      world.loop.frame ≤ largestGoal log.turns ∧
      ∀ tick synced, world.loop.running = true → syncStep tick world = .ok (.ok,synced) →
        synced.input.read.commandCount =
          max log.inputRead (synced.loop.frame + synced.loop.pauseFrame + framerate.toNat) ∧
        ∀ later turn, advance tick .ok synced = .ok (some (later,some turn)) →
          ∃ game, executeAll synced.library tick.cycles 0 turn.commands synced.game = .ok game ∧
            if turn.simulated then
              simulateFrame synced.library tick.unset game synced.frameStore = .ok (later.game,later.frameStore)
            else later.game = game ∧ later.frameStore = synced.frameStore := by
  obtain ⟨lines,done,rest,sent,images,head⟩ := process_head framerate ep frames keyboard world log past process
  have accounted := head.accounted
  have bounded := accounted.bounded
  refine ⟨?_,accounted.simulated,?_,accounted.below,?_⟩
  · intro i inside
    have cursor := accounted.reads i
    rw [if_pos inside] at cursor
    rw [cursor.commands,u32_of_lt (by omega)]
  · rw [accounted.store.cursor.commands,accounted.stored]
  · intro tick synced running sync
    obtain ⟨more,now,rest',m,_,reached⟩ := syncStep_ok tick .ok world synced lines done rest sent
      accounted.recorded accounted.cursor accounted.demux sync
    obtain ⟨_,_,sent_all⟩ := synced_accounted .ok world synced more now rest' m accounted reached
    refine ⟨by rw [reached.cursor.commands,sent_all rfl,reached.counters],?_⟩
    intro later turn step
    rcases advance_cases tick .ok synced later (some turn) step with ⟨none,_⟩ | ⟨taken,_,same,turned⟩
    · cases none
    · cases same
      exact turned_simulates tick synced later turn turned

theorem lockstep_goal : ∃ (world : World Nat) (log : SessionLog Nat) (past : List (SessionLog Nat)),
    Process 1 endpointFromFd (wire [goalFrame]) [] world log past ∧ log.turns = [⟨0,0,[goalFrame.text],true⟩] ∧
      world.game.memory = 1 ∧ world.loop.frame = 1 ∧ world.frameStore.write.commandCount = 1 ∧
      (world.gameRecord 0).read.commandCount = 1 := by
  obtain ⟨start,past,tick,synced,later,process,joined,_,_,sync,step,memory,objects,paused,alone⟩ := goal_turn ⟨1,0,0⟩
  have run := Process.iterate _ synced later _ _ tick .ok _ process joined.running sync step
  obtain ⟨reads,simulated,stored,_⟩ := lockstep 1 endpointFromFd [goalFrame] [] later _ past run
  have frame : later.loop.frame = 1 := simulated.symm
  refine ⟨later,_,past,run,rfl,memory,frame,?_,?_⟩
  · rw [stored,frame,objects]
    rfl
  · rw [reads 0 (by rw [alone]; exact Nat.one_pos),frame,paused]
    rfl

end Runs

end Craftsman.Lockstep
