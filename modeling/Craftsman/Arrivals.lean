import Craftsman.Readiness
import Craftsman.Singleplayer

/-! Sessions whose peer sends its frames one at a time: every new player ends a
session, and a player who has not sent a command holds the turns back. -/
namespace Craftsman.Arrivals
open Craftsman.Memory Craftsman.Recording Craftsman.CommandLog Craftsman.Network Craftsman.Client
open Craftsman.Frames Craftsman.Demultiplex Craftsman.Dlfn Craftsman.Execute Craftsman.GameLoop
open Craftsman.Simulation Craftsman.Iteration Craftsman.Progress Craftsman.Readiness
open Craftsman.Singleplayer (Playing syncStep_quiet)
open Craftsman.Stream.Delimited

variable {σ : Type}

/-- A loop at framerate 1 before its first turn. -/
structure Fresh (loop : Loop) : Prop where
  running : loop.running = true
  target : loopWriteFrame loop = 1
  queue : loop.inputQueue = 1
  queueMax : loop.inputQueueMax = 1
  at_frame : loop.frame = 0
  at_pause : loop.pauseFrame = 0

theorem Fresh.stall {loop : Loop} (fresh : Fresh loop) :
    ∃ readings after, loopStall readings {loop with inputQueue := min (u32 (loop.inputQueue + 1)) loop.inputQueueMax} =
      some after ∧ Fresh after := by
  have queue : min (u32 (loop.inputQueue + 1)) loop.inputQueueMax = 1 := by
    rw [fresh.queue,fresh.queueMax]
    rfl
  have target := fresh.target
  rw [loopWriteFrame,fresh.queue] at target
  rw [queue]
  obtain ⟨readings,after,waited⟩ := waitClock_passes
    {loop with inputQueue := 1, stallFrame := u32 (loop.stallFrame + 1)}
  obtain ⟨clock,sleep,rfl⟩ := waitClock_same _ _ _ waited
  exact ⟨readings,_,waited,fresh.running,target,rfl,fresh.queueMax,fresh.at_frame,fresh.at_pause⟩

/-- `done` is stored, `now` is in the receive buffer and `later` is on its way. -/
structure Parked (world : World σ) (blank sent : Nat) (done now later : List Frame) (joined : Fin 4 → Bool) : Prop where
  demux : Demux world.conn world.gameRecord (wire later) done (now ++ later)
  arrives : world.wires.incoming = wire later
  up : world.conn.clientEp = endpointFromFd
  present : known world.gameRecord = joined
  recorded : Recorded world.input (List.replicate blank [])
  cursor : Cursor (List.replicate blank []) sent world.input.read
  stays : world.exiting = false
  whole : world.conn.buffering = false
  globals : world.game.engine.globals = []
  handles : world.game.engine.saveResultHandle = fun _ => 0

structure Begun (world : World σ) (blank sent : Nat) (done now later : List Frame) (joined : Fin 4 → Bool) : Prop
    extends Parked world blank sent done now later joined where
  loop : Fresh world.loop
  rewound : ∀ i, (world.gameRecord i).read = .zero
  counted : world.playerCount = ((List.finRange 4).filter joined).length
  goal : world.game.simulationGoal = 0
  objects : world.game.engine.objects = (dlfnOpen world.library).2
  unstored : world.frameStore = {RecordRW.empty with record := some recordAlloc}

variable {world : World σ} {blank sent : Nat} {done now later : List Frame} {joined : Fin 4 → Bool}

theorem Parked.start (parked : Parked world blank sent done now later joined) (calibration : Calibration)
    (library : Library σ) :
    Begun (startSession 1 calibration library (endSession world)) blank sent done now later joined where
  demux := {parked.demux with written := fun i => (parked.demux.written i).read .zero}
  arrives := parked.arrives
  up := parked.up
  present := parked.present
  recorded := parked.recorded
  cursor := parked.cursor
  stays := parked.stays
  whole := parked.whole
  globals := parked.globals
  handles := parked.handles
  loop := ⟨rfl,rfl,rfl,rfl,rfl,rfl⟩
  rewound := fun _ => rfl
  counted := by
    rw [← parked.present]
    rfl
  goal := rfl
  objects := rfl
  unstored := rfl

theorem begun_boot (calibration : Calibration) (library : Library σ) (frames : List Frame) :
    Begun (startSession 1 calibration library (.boot library endpointFromFd (wire frames) [])) 0 0 [] [] frames
      fun _ => false where
  demux := ⟨Int.le_refl _,(by decide : (0 : Int) ≤ 4096),rfl,fun _ => written_empty,fun _ => rfl,fun _ => rfl⟩
  arrives := rfl
  up := rfl
  present := rfl
  recorded := ⟨written_empty.alloc rfl,fun _ member => absurd member List.not_mem_nil,by simp [startSession,World.boot]⟩
  cursor := cursor_zero []
  stays := rfl
  whole := rfl
  globals := rfl
  handles := rfl
  loop := ⟨rfl,rfl,rfl,rfl,rfl,rfl⟩
  rewound := fun _ => rfl
  counted := rfl
  goal := rfl
  objects := rfl
  unstored := rfl

theorem blank_room (blank : Nat) (few : blank < 2^31) (loop : Loop) (fresh : Fresh loop) :
    (encode 0 (List.replicate blank ([] : List Byte))).length + loopWriteFrame loop ≤ 2^31 := by
  rw [encode_empty,fresh.target]
  omega

theorem blank_short (blank : Nat) : ∀ text ∈ List.replicate blank ([] : List Byte), text.length < 4096 := by
  intro text member
  rw [List.eq_of_mem_replicate member]
  decide

/-- The next frame is received; its player is new, and the session ends. -/
theorem Begun.opens {frame : Frame} (begun : Begun world blank sent done [] (frame::later) joined) (few : blank < 2^31)
    (small : frame.size ≤ 4096) (absent : joined frame.player = false) :
    ∃ tick synced blank', syncStep tick world = .ok (.change,synced) ∧ blank' ≤ blank + 1 ∧
      Parked {synced with loop := loopHalt synced.loop} blank' sent done [frame] later
        (Function.update joined frame.player true) := by
  have none : (world.gameRecord frame.player).record = none := by
    rw [← begun.present,known,Option.isSome_eq_false_iff,Option.isNone_iff_eq_none] at absent
    exact absent
  have empty : world.conn.usedReceiveBuffer = 0 := by
    have total := received_length world.conn begun.demux.high
    have low := begun.demux.low
    rw [List.append_cancel_right (begun.demux.unread.trans (List.nil_append _).symm),List.length_nil] at total
    omega
  obtain ⟨conn,input,k,sync,demux,up,recorded,one,_,cursor⟩ := sync_opens world _ done later frame sent begun.recorded
    begun.cursor begun.demux begun.arrives empty small begun.up none (blank_room blank few _ begun.loop)
  have quiet := syncStep_quiet (openingTick frame) world _ .change sent _ (.inl rfl) (blank_short blank) begun.recorded begun.cursor sync
  rw [begun.loop.target] at one
  rw [← List.replicate_add] at recorded cursor
  refine ⟨openingTick frame,_,blank + k,sync,by omega,demux,rfl,up,?_,recorded,cursor,begun.stays,quiet.trans begun.whole,begun.globals,
    begun.handles⟩
  rw [known_update,begun.present]
  rfl

/-- A new player ends the session, and the next one begins with its frame received. -/
theorem Begun.joins {frame : Frame} {frames : List Frame} {log : SessionLog σ} {past : List (SessionLog σ)}
    {heard : List StandardInput.Event} (begun : Begun world blank sent done [] (frame::later) joined)
    (playing : Playing 1 endpointFromFd (wire frames) [] world log past heard) (few : blank < 2^31)
    (small : frame.size ≤ 4096) (absent : joined frame.player = false) (calibration : Calibration) (library : Library σ) :
    ∃ (next : World σ) (past : List (SessionLog σ)) (heard : List StandardInput.Event) (blank' : Nat),
      Playing 1 endpointFromFd (wire frames) [] next (.start next) past heard ∧ next.library = library ∧
      blank' ≤ blank + 1 ∧ Begun next blank' sent done [frame] later (Function.update joined frame.player true) := by
  obtain ⟨_,_,blank',sync,one,parked⟩ := begun.opens few small absent
  have ended := Playing.iterate _ _ _ _ _ _ _ _ none playing begun.loop.running sync rfl
  exact ⟨_,_,_,blank',.reload _ _ _ _ _ library calibration ended rfl parked.stays rfl,rfl,one,
    parked.start calibration library⟩

/-- With nothing new on the wire the received frames are stored. -/
theorem Begun.takes (begun : Begun world blank sent done now later joined) (few : blank < 2^31) (readings : List UInt64)
    (players : ∀ frame ∈ now, joined frame.player = true)
    (space : ∀ i, (encode 0 (texts i (done ++ now))).length ≤ 2^31) :
    ∃ synced blank' sent', syncStep (quietTick [] readings) world = .ok (.ok,synced) ∧ blank' ≤ blank + 1 ∧ 1 ≤ sent' ∧
      synced.loop = world.loop ∧ synced.playerCount = world.playerCount ∧ synced.library = world.library ∧
      Begun synced blank' sent' (done ++ now) [] later joined := by
  have unread := begun.demux.unread
  rw [wire_append] at unread
  obtain ⟨conn,outgoing,input,gameRecord,k,m,sync,demux,same,reads,up,recorded,one,cursor⟩ :=
    syncStep_takes [] readings world _ done now later sent begun.recorded begun.cursor begun.demux begun.arrives
      (List.append_cancel_right unread) begun.up (by rw [begun.present]; exact players)
      (blank_room blank few _ begun.loop) space
  have quiet := syncStep_quiet _ world _ .ok sent _ (.inr rfl) (blank_short blank) begun.recorded begun.cursor sync
  have arrives := begun.demux
  rw [← begun.arrives] at arrives
  obtain ⟨_,_,_,_,_,reached⟩ := syncStep_ok _ .ok world _ _ done _ sent begun.recorded begun.cursor arrives sync
  have sends : 1 ≤ m := by
    rw [← cursor.commands,reached.cursor.commands,reached.sent rfl,begun.loop.target]
    exact Nat.le_max_right _ _
  rw [begun.loop.target] at one
  rw [← List.replicate_add] at recorded cursor
  exact ⟨_,blank + k,m,sync,by omega,sends,rfl,rfl,rfl,⟨demux,rfl,up,same.trans begun.present,recorded,cursor,begun.stays,
    quiet.trans begun.whole,begun.globals,begun.handles⟩,begun.loop,fun i => (reads i).trans (begun.rewound i),
    begun.counted,begun.goal,begun.objects,begun.unstored⟩

theorem Begun.waiting (begun : Begun world blank sent done now later joined) (i : Fin 4) :
    waiting (world.gameRecord i) = texts i done ∧ ahead (world.gameRecord i) = (texts i done).length := by
  have cursor := cursor_zero (texts i done)
  rw [← begun.rewound i] at cursor
  have written := begun.demux.written i
  exact ⟨waiting_written _ _ 0 written (texts_free i done) cursor,ahead_count _ _ 0 written cursor⟩

/-- A player without a command holds the turn back. -/
theorem Begun.stalls (begun : Begun world blank sent done now later joined) (few : blank < 2^31)
    (players : ∀ frame ∈ now, joined frame.player = true)
    (space : ∀ i, (encode 0 (texts i (done ++ now))).length ≤ 2^31) (i : Fin 4) (counted : i.val < world.playerCount)
    (silent : texts i (done ++ now) = []) :
    ∃ tick synced after blank' sent', syncStep tick world = .ok (.ok,synced) ∧
      advance tick .ok synced = .ok (some (after,none)) ∧ blank' ≤ blank + 1 ∧
      Begun after blank' sent' (done ++ now) [] later joined := by
  obtain ⟨readings,loop,waited,fresh⟩ := begun.loop.stall
  obtain ⟨synced,blank',sent',sync,small,_,same,count,_,stored⟩ := begun.takes few readings players space
  have nearest : (commandPreview synced.loop.inputQueueMax synced.playerCount synced.gameRecord).turnNearest = 0 := by
    by_contra nearest
    obtain ⟨_,due⟩ := (preview_positive _ _ _).mp nearest
    apply due i
    · rw [players_mem,count]
      exact counted
    · rw [(stored.waiting i).2,silent]
      rfl
  have step : advance (quietTick [] readings) .ok synced = .ok (some ({synced with loop := loop},none)) := by
    unfold advance
    dsimp only
    rw [if_pos nearest,stall,same]
    dsimp only [quietTick]
    rw [waited]
    rfl
  exact ⟨_,synced,_,blank',sent',sync,step,small,
    ⟨stored.demux,stored.arrives,stored.up,stored.present,stored.recorded,stored.cursor,stored.stays,stored.whole,
      stored.globals,stored.handles⟩,fresh,stored.rewound,stored.counted,stored.goal,stored.objects,stored.unstored⟩

theorem texts_wire (i : Fin 4) (frames : List Frame) : (encode 0 (texts i frames)).length ≤ (wire frames).length := by
  induction frames with
  | nil => exact Nat.le_refl 0
  | cons frame frames ih =>
    have split : texts i (frame::frames) = texts i [frame] ++ texts i frames := texts_append i [frame] frames
    rw [split,encode_append,List.length_append,wire_cons,List.length_append,bytes_length,Frame.size]
    by_cases mine : i = frame.player
    · rw [mine,texts_same,encode_singleton,List.length_append,List.length_singleton,← mine]
      omega
    · rw [texts_other frame i mine,encode_nil,List.length_nil]
      omega

/-- Player 1 joins and sends a command, then player 0: both commands are stored when the
third session is synchronized for the first time. -/
theorem two_begun (calibration : Calibration) (library : Library σ) (first second : Frame) (one : first.player = 1)
    (zero : second.player = 0) (small : first.size ≤ 4096) (small' : second.size ≤ 4096) :
    ∃ (world synced : World σ) (past : List (SessionLog σ)) (heard : List StandardInput.Event) (blank sent : Nat)
      (joined : Fin 4 → Bool), Playing 1 endpointFromFd (wire [first,second]) [] world (.start world) past heard ∧
      world.loop.running = true ∧ world.library = library ∧ world.game.engine.globals = [] ∧
      (world.game.engine.saveResultHandle = fun _ => 0) ∧ world.game.simulationGoal = 0 ∧
      syncStep (quietTick [] []) world = .ok (.ok,synced) ∧ synced.loop = world.loop ∧ world.playerCount = 2 ∧
      synced.playerCount = 2 ∧ synced.library = library ∧ 1 ≤ sent ∧
      Begun synced blank sent [first,second] [] [] joined ∧
      (commandPreview synced.loop.inputQueueMax synced.playerCount synced.gameRecord).turnNearest ≠ 0 ∧
      waiting (synced.gameRecord 0) = [second.text] ∧ waiting (synced.gameRecord 1) = [first.text] := by
  have whole : (wire [first,second]).length = first.size + second.size := by simp
  have space (frames more : List Frame) (split : [first,second] = frames ++ more) (i : Fin 4) :
      (encode 0 (texts i frames)).length ≤ 2^31 := by
    have bound := texts_wire i frames
    rw [split,wire_append,List.length_append] at whole
    omega
  obtain ⟨_,_,_,blank,playing,_,few,alone⟩ := (begun_boot calibration library [first,second]).joins
    (.boot library calibration _ rfl) (by decide) small rfl calibration library
  -- One player is counted and looked for at number 0, where there is no record yet.
  obtain ⟨_,_,_,blank',_,sync,step,few',held⟩ := alone.stalls (by omega)
    (by
      intro frame member
      rw [List.mem_singleton.mp member,Function.update_self])
    (space [first] [second] rfl) 0
    (by
      rw [alone.counted,one]
      decide)
    (texts_other first 0 (by rw [one]; decide))
  have stalled := Playing.iterate _ _ _ _ _ _ _ _ none playing alone.loop.running sync step
  obtain ⟨_,_,_,blank'',playing,named,few'',both⟩ := held.joins stalled (by omega) small' (by rw [zero,one]; rfl)
    calibration library
  obtain ⟨synced,_,_,sync,_,sends,same,count,kept,stored⟩ := both.takes (by omega) []
    (by
      intro frame member
      rw [List.mem_singleton.mp member,Function.update_self])
    (space [first,second] [] rfl)
  have two : synced.playerCount = 2 := by
    rw [stored.counted,one,zero]
    decide
  have waits (i : Fin 4) (text : List Byte) (own : texts i [first,second] = [text]) :
      waiting (synced.gameRecord i) = [text] ∧ ahead (synced.gameRecord i) = 1 := by
    obtain ⟨commands,count⟩ := stored.waiting i
    exact ⟨commands.trans own,count.trans (congrArg List.length own)⟩
  obtain ⟨waits_zero,ahead_zero⟩ := waits 0 second.text (by simp [texts,one,zero])
  obtain ⟨waits_one,ahead_one⟩ := waits 1 first.text (by simp [texts,one,zero])
  refine ⟨_,synced,_,_,_,_,_,playing,both.loop.running,named,both.globals,both.handles,both.goal,sync,same,count.symm.trans two,two,
    kept.trans named,sends,stored,?_,waits_zero,waits_one⟩
  rw [preview_positive,stored.loop.queueMax,two]
  refine ⟨Nat.one_ne_zero,?_⟩
  change ∀ i ∈ [(0 : Fin 4),1], ahead (synced.gameRecord i) ≠ 0
  rw [List.forall_mem_cons,List.forall_mem_singleton,ahead_zero,ahead_one]
  exact ⟨Nat.one_ne_zero,Nat.one_ne_zero⟩

/-- Both commands wait when the third session begins. -/
theorem two_waiting (calibration : Calibration) (library : Library σ) (first second : Frame) (one : first.player = 1)
    (zero : second.player = 0) (small : first.size ≤ 4096) (small' : second.size ≤ 4096) :
    ∃ (world synced : World σ) (past : List (SessionLog σ)) (tick : Tick),
      Process 1 endpointFromFd (wire [first,second]) [] world (.start world) past ∧
      syncStep tick world = .ok (.ok,synced) ∧
      (commandPreview synced.loop.inputQueueMax synced.playerCount synced.gameRecord).turnNearest ≠ 0 ∧
      synced.playerCount = 2 ∧ waiting (synced.gameRecord 0) = [second.text] ∧
      waiting (synced.gameRecord 1) = [first.text] := by
  obtain ⟨world,synced,past,_,_,_,_,playing,_,_,_,_,_,sync,_,_,two,_,_,_,nearest,waits_zero,waits_one⟩ :=
    two_begun calibration library first second one zero small small'
  exact ⟨world,synced,past,_,playing.process,sync,nearest,two,waits_zero,waits_one⟩

end Craftsman.Arrivals
