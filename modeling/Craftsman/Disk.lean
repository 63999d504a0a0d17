import Craftsman.Blobs
import Craftsman.FrameStore
import Craftsman.Replay
import Craftsman.Singleplayer

/-! What a process leaves on the disk: the objects' images of its last session, and
at its end the lines of its input. -/
namespace Craftsman.Disk
open Craftsman.Memory Craftsman.Recording Craftsman.CommandLog Craftsman.Network Craftsman.Client Craftsman.Blobs
open Craftsman.Frames Craftsman.Dlfn Craftsman.Execute Craftsman.GameLoop Craftsman.Simulation Craftsman.Iteration
open Craftsman.Lockstep Craftsman.Replay Craftsman.Echo Craftsman.Singleplayer Craftsman.FrameStore
open Craftsman.StandardInput Craftsman.Stream.Delimited Craftsman.Stream.Rounds
open Craftsman.Sending (process_run run_sends)

/-- The result, and what is in the file. A byte without a value cannot be written. -/
def recordToDisk (opens : Bool) (rec : Record) : Except Stop (Bool × List Byte) :=
  if opens then do
    let bytes ← rec.load 0 rec.usedBytes
    return (true,bytes)
  else .ok (false,[])

theorem disk_holds (rec : Record) (log : List (List Byte)) (holds : Holds rec log) :
    recordToDisk true rec = .ok (true,encode 0 log) := by
  obtain ⟨rest,layout⟩ := holds.layout
  have loaded : rec.load 0 (encode 0 log).length = .ok (encode 0 log) := load_written rec 0 [] (encode 0 log) rest layout rfl
  rw [recordToDisk,if_pos rfl,holds.used,loaded]
  rfl

theorem disk_written (rw : RecordRW) (rec : Record) (log : List (List Byte)) (written : Written rw log)
    (present : rw.record = some rec) : recordToDisk true rec = .ok (true,encode 0 log) :=
  disk_holds rec log (written.holds rec present)

section History
variable {σ : Type}

/-- The memory after each of the turns that simulated a frame. -/
def simulatedMemories (log : SessionLog σ) : List σ :=
  (log.turns.zip (log.states.drop 1)).filterMap fun step => if step.1.simulated then some step.2.game.memory else none

def sessionImages (log : SessionLog σ) : List (List Byte) :=
  frameImages log.library (dlfnOpen log.library).2 (simulatedMemories log)

structure Kept (world : World σ) (log : SessionLog σ) : Prop where
  library : world.library = log.library
  sizes : log.states.length = log.turns.length + 1
  objects : world.game.engine.objects = (dlfnOpen log.library).2
  present : world.frameStore.record ≠ none
  written : Written world.frameStore (sessionImages log)

theorem kept_start (framerate : UInt8) (calibration : Calibration) (library : Library σ) (world : World σ) :
    Kept (startSession framerate calibration library world) (.start (startSession framerate calibration library world)) where
  library := rfl
  sizes := rfl
  objects := rfl
  present := fun absent => (by cases absent)
  written := written_empty.alloc rfl

theorem append_present (library : Library σ) (memory : σ) (objects : List Object) (store stored : RecordRW)
    (present : store.record ≠ none) (ok : appendObjects library memory objects store = .ok stored) :
    stored.record ≠ none := by
  obtain ⟨rec,found⟩ := Option.ne_none_iff_exists'.mp present
  obtain ⟨closed,next,_,rfl⟩ := append_objects library memory objects store stored rec found ok
  exact Option.some_ne_none closed

variable {world synced later : World σ} {log : SessionLog σ}

theorem memories_after (status : ConnStatus) (sizes : log.states.length = log.turns.length + 1) (turn : Turn) :
    simulatedMemories (log.after status world synced later (some turn)) =
      simulatedMemories log ++ if turn.simulated then [later.game.memory] else [] := by
  have turns : (log.after status world synced later (some turn)).turns = log.turns ++ [turn] := rfl
  have states : (log.after status world synced later (some turn)).states = log.states ++ [later.shared] := rfl
  have same : log.turns.length = (log.states.drop 1).length := by
    rw [List.length_drop]
    omega
  rw [simulatedMemories,turns,states,List.drop_append_of_le_length (by omega),List.zip_append same,List.filterMap_append,
    ← simulatedMemories]
  cases simulated : turn.simulated <;> simp [simulated,World.shared]

theorem images_after (status : ConnStatus) (sizes : log.states.length = log.turns.length + 1) (turn : Turn) :
    sessionImages (log.after status world synced later (some turn)) = sessionImages log ++
      if turn.simulated then (dlfnOpen log.library).2.map (image log.library later.game.memory) else [] := by
  have library : (log.after status world synced later (some turn)).library = log.library := rfl
  rw [sessionImages,library,memories_after status sizes turn,frameImages,List.flatMap_append,← frameImages,← sessionImages]
  congr 1
  split <;> simp

theorem Kept.idle (kept : Kept world log) (status : ConnStatus) (library : synced.library = world.library)
    (engine : synced.game.engine = world.game.engine) (store : synced.frameStore = world.frameStore)
    (idle : Idle synced later) : Kept later (log.after status world synced later none) := by
  have turns : (log.after status world synced later none).turns = log.turns := List.append_nil _
  have states : (log.after status world synced later none).states = log.states := List.append_nil _
  have images : sessionImages (log.after status world synced later none) = sessionImages log := by
    simp only [sessionImages,simulatedMemories,turns,states]
    rfl
  refine ⟨(idle.library.trans library).trans kept.library,by rw [turns,states]; exact kept.sizes,?_,?_,?_⟩
  · rw [idle.game,engine]
    exact kept.objects
  · rw [idle.frameStore,store]
    exact kept.present
  · rw [idle.frameStore,store,images]
    exact kept.written

theorem Kept.turn (kept : Kept world log) (tick : Tick) (status : ConnStatus) (turn : Turn)
    (library : synced.library = world.library) (engine : synced.game.engine = world.game.engine)
    (store : synced.frameStore = world.frameStore) (turned : Turned tick synced later turn) :
    Kept later (log.after status world synced later (some turn)) := by
  obtain ⟨game,execute,ends⟩ := turned.executed
  obtain ⟨_,same⟩ := executeAll_goal synced.library tick.cycles 0 turn.commands synced.game game execute
  have named : synced.library = log.library := library.trans kept.library
  have objects : game.engine.objects = (dlfnOpen log.library).2 := by
    rw [same,engine]
    exact kept.objects
  have sizes : (log.states ++ [later.shared]).length = (log.turns ++ [turn]).length + 1 := by
    rw [List.length_append,List.length_append,kept.sizes]
    rfl
  have written := kept.written
  have present := kept.present
  rw [← store] at written present
  rcases ends with ⟨_,paused,ended,kept_store,_⟩ | ⟨_,simulated,simulate,_⟩
  · refine ⟨turned.library.trans named,sizes,by rw [ended]; exact objects,by rw [kept_store]; exact present,?_⟩
    rw [images_after status kept.sizes turn,paused,kept_store,if_neg Bool.false_ne_true,List.append_nil]
    exact written
  · obtain ⟨changed,memory,calls,_,ended,table,images⟩ := simulateFrame_ok synced.library tick.unset game later.game
      synced.frameStore later.frameStore (sessionImages log) written simulate
    obtain ⟨⟨_,memory',_⟩,_,rest⟩ := (bind_ok _ _ _).mp simulate
    obtain ⟨stored,append,last⟩ := (bind_ok _ _ _).mp rest
    refine ⟨turned.library.trans named,sizes,?_,?_,?_⟩
    · rw [ended]
      exact table.trans objects
    · rw [← (Prod.mk.inj (Except.ok.inj last)).2]
      exact append_present _ _ _ _ _ present append
    · rw [images_after status kept.sizes turn,simulated,if_pos rfl,ended]
      rw [objects,named] at images
      exact images

theorem sync_apart (tick : Tick) (status : ConnStatus) (world synced : World σ) (lines : List (List Byte))
    (recorded : Recorded world.input lines) (ok : syncStep tick world = .ok (status,synced)) :
    synced.library = world.library ∧ synced.game.engine = world.game.engine ∧ synced.frameStore = world.frameStore := by
  unfold syncStep at ok
  obtain ⟨middle,gathering,rest⟩ := (bind_ok _ _ _).mp ok
  obtain ⟨_,_,same⟩ := (bind_ok _ _ _).mp rest
  cases same
  obtain ⟨gathered,_⟩ := gather_gathered tick world middle lines recorded gathering
  exact ⟨gathered.library,gathered.engine,gathered.frameStore⟩

theorem process_kept (framerate : UInt8) (ep : EndPoint) (incoming keyboard : List Byte) (world : World σ)
    (log : SessionLog σ) (past : List (SessionLog σ))
    (process : Process framerate ep incoming keyboard world log past) : Kept world log := by
  induction process with
  | boot library calibration world opened =>
    subst opened
    exact kept_start framerate calibration library _
  | iterate world synced later log past tick status turn process running sync step ih =>
    obtain ⟨lines,answers,run⟩ := process_run framerate ep incoming keyboard world log past process
    obtain ⟨recorded,_,_⟩ := run_sends lines answers _ _ run
    obtain ⟨library,engine,store⟩ := sync_apart tick status world synced lines recorded sync
    rcases advance_cases tick status synced later turn step with ⟨rfl,idle⟩ | ⟨taken,_,rfl,turned⟩
    · exact ih.idle status library engine store idle
    · exact ih.turn tick status taken library engine store turned
  | reload world opened log past library calibration process stopped stays started ih =>
    subst started
    exact kept_start framerate calibration library _

/-- The file of a session is its history: the images of the objects, each closed by a
NUL, as they were after each of its simulated frames. -/
theorem frames_saved (framerate : UInt8) (ep : EndPoint) (incoming keyboard : List Byte) (world : World σ)
    (log : SessionLog σ) (past : List (SessionLog σ))
    (process : Process framerate ep incoming keyboard world log past) :
    ∃ rec, world.frameStore.record = some rec ∧ recordToDisk true rec = .ok (true,encode 0 (sessionImages log)) := by
  have kept := process_kept framerate ep incoming keyboard world log past process
  obtain ⟨rec,found⟩ := Option.ne_none_iff_exists'.mp kept.present
  exact ⟨rec,found,disk_written _ rec _ kept.written found⟩

theorem frames_saved_goal :
    ∃ (world : World Nat) (log : SessionLog Nat) (past : List (SessionLog Nat)) (rec : Record),
      Process 1 endpointFromFd (wire [Progress.goalFrame]) [] world log past ∧
      log.turns = [⟨0,0,[Progress.goalFrame.text],true⟩] ∧ world.frameStore.record = some rec ∧
      recordToDisk true rec = .ok (true,[1,1,0]) := by
  obtain ⟨start,past,tick,synced,later,process,joined,library,_,sync,step,memory,_⟩ := Progress.goal_turn ⟨1,0,0⟩
  have run := Process.iterate _ synced later _ _ tick .ok _ process joined.running sync step
  obtain ⟨rec,found,saved⟩ := frames_saved 1 endpointFromFd _ [] later _ past run
  refine ⟨later,_,past,rec,run,rfl,found,?_⟩
  have images : sessionImages ((SessionLog.start start).after .ok start synced later
      (some ⟨0,0,[Progress.goalFrame.text],true⟩)) = [image counterLibrary 1 ⟨[111],8192,2⟩] := by
    have memories : simulatedMemories ((SessionLog.start start).after .ok start synced later
        (some ⟨0,0,[Progress.goalFrame.text],true⟩)) = [later.game.memory] := rfl
    have loaded : ((SessionLog.start start).after .ok start synced later
        (some ⟨0,0,[Progress.goalFrame.text],true⟩)).library = counterLibrary := library
    rw [sessionImages,memories,loaded,memory,counterLibrary_open]
    rfl
  rw [saved,images]
  rfl

end History

section Input
variable {σ : Type}

theorem texts_front (frames frames' : List Frame) (lines : List (List Byte)) (mine : ∀ frame ∈ frames, frame.player = 0)
    (mine' : ∀ frame ∈ frames', frame.player = 0) (front : frames.map Frame.text <+: lines)
    (front' : frames'.map Frame.text <+: lines) (order : List (Fin 4)) :
    Compatible order (fun i => texts i frames) (fun i => texts i frames') := by
  intro i _
  rcases eq_or_ne i 0 with rfl | other
  · dsimp only
    rw [texts_all frames mine,texts_all frames' mine']
    exact List.prefix_or_prefix_of_prefix front front'
  · dsimp only
    rw [texts_none i frames other mine]
    exact .inl List.nil_prefix

/-- The saved input says how a game went: where one file continues another, two
sessions that start alike go through the same states, whatever the framerates, the
players' timing and the delays of the server were. -/
theorem saved_determines (framerate framerate' : UInt8) (keyboard keyboard' : List Byte) (game game' : LocalGame σ)
    (log log' session session' : SessionLog σ) (past past' : List (SessionLog σ)) (heard heard' : List Event)
    (run : LocalRun framerate keyboard game log past heard) (run' : LocalRun framerate' keyboard' game' log' past' heard')
    (rec rec' : Record) (present : game.world.input.record = some rec) (present' : game'.world.input.record = some rec')
    (file more : List Byte) (saved : recordToDisk true rec = .ok (true,file))
    (saved' : recordToDisk true rec' = .ok (true,file ++ more)) (member : session ∈ past ++ [log])
    (member' : session' ∈ past' ++ [log']) (library : session'.library = session.library)
    (players : session'.playerCount = session.playerCount) (same : tables session = tables session') (n : Nat)
    (calm : n ≤ session.calm) (calm' : n ≤ session'.calm)
    (benign : ∀ j < n, ∀ turn before, session.turns[j]? = some turn → session.states[j]? = some before →
      Benign session.library turn before) :
    ∀ k ≤ n, session.states[k]? = session'.states[k]? := by
  obtain ⟨lines,done,recorded,_,front,mine,all⟩ := run_logged framerate keyboard game log past heard run
  obtain ⟨lines',done',recorded',_,front',mine',all'⟩ := run_logged framerate' keyboard' game' log' past' heard' run'
  have logged := all session member
  have logged' := all' session' member'
  cases (disk_written _ rec lines recorded.written present).symm.trans saved
  have continued : encode 0 lines ++ more = encode 0 lines' :=
    (Prod.mk.inj (Except.ok.inj (saved'.symm.trans (disk_written _ rec' lines' recorded'.written present')))).2
  have longer : lines <+: lines' := prefix_of_encode 0 lines lines' more recorded.free recorded'.free continued
  have driven (j : Nat) (early : j < n) :
      (session.turns[j]?).map Turn.commands = (session'.turns[j]?).map Turn.commands := by
    have inside : j < session.turns.length := early.trans_le (calm.trans logged.calm)
    have inside' : j < session'.turns.length := early.trans_le (calm'.trans logged'.calm)
    have entry := List.getElem?_eq_getElem inside
    have entry' := List.getElem?_eq_getElem inside'
    have covers' := logged'.covers
    rw [entry,entry',Option.map_some,Option.map_some,logged.rows j _ entry,logged'.rows j _ entry',players]
    rw [players] at covers'
    exact congrArg some (row_agree _ _ _ j (texts_front done done' lines' mine mine' (front.trans longer) front' _)
      (fun i known => inside.trans_le (logged.covers i known)) (fun i known => inside'.trans_le (covers' i known)))
  intro k inside
  exact sessions_agree session session' done done' logged logged' (fun _ => by rw [library]) (by rw [library])
    (fun _ _ _ played => by rwa [library] at played) same n calm calm' driven benign k inside

theorem blanks_split (k m : Nat) (few : k ≤ m) :
    encode 0 (List.replicate m ([] : List Byte)) =
      encode 0 (List.replicate k ([] : List Byte)) ++ encode 0 (List.replicate (m - k) ([] : List Byte)) := by
  rw [← encode_append,← List.replicate_add,Nat.add_sub_cancel' few]

/-- Two runs with other clocks and keyboards: each saves its fillers, and their sessions agree. -/
theorem saved_fillers :
    ∃ (game game' : LocalGame Unit) (log log' : SessionLog Unit) (past past' : List (SessionLog Unit))
      (heard heard' : List Event), LocalRun 1 [] game log past heard ∧ LocalRun 1 [65,10] game' log' past' heard' ∧
      game'.world.keyboard ≠ game.world.keyboard ∧ log.turns = [⟨0,0,[[]],false⟩] ∧ log'.turns = [⟨0,0,[[]],false⟩] ∧
      ∀ k ≤ 1, log.states[k]? = log'.states[k]? := by
  obtain ⟨world,server,log,past,heard,k,_,played,keyboard,_,connected,_,_,_,_,players,turns,library,calm,same⟩ :=
    blank_executed sumLibrary ⟨1,0,0⟩ []
  obtain ⟨world',server',log',past',heard',m,_,played',keyboard',_,connected',_,_,_,_,players',turns',library',calm',same'⟩ :=
    blank_executed sumLibrary ⟨3,7,9⟩ [65,10]
  have run := played_local played
  have run' := played_local played'
  obtain ⟨rec,present⟩ := Option.ne_none_iff_exists'.mp connected.recorded.present
  obtain ⟨rec',present'⟩ := Option.ne_none_iff_exists'.mp connected'.recorded.present
  have saved := disk_written _ rec _ connected.recorded.written present
  have saved' := disk_written _ rec' _ connected'.recorded.written present'
  have benign (session : SessionLog Unit) (turns : session.turns = [⟨0,0,[[]],false⟩]) : ∀ j < 1, ∀ turn before,
      session.turns[j]? = some turn → session.states[j]? = some before → Benign session.library turn before := by
    intro j _ turn before entry _
    rw [turns] at entry
    have found := List.mem_of_getElem? entry
    rw [List.mem_singleton] at found
    rw [found]
    exact filler_benign session.library before
  refine ⟨_,_,log,log',past,past',heard,heard',run,run',by rw [keyboard,keyboard']; decide,turns,turns',?_⟩
  have last (log : SessionLog Unit) (past : List (SessionLog Unit)) : log ∈ past ++ [log] :=
    List.mem_append_right _ List.mem_cons_self
  -- the run that recorded fewer fillers is the one whose file the other continues
  rcases Nat.le_total k m with few | few
  · rw [blanks_split k m few] at saved'
    exact saved_determines 1 1 [] [65,10] _ _ log log' log log' past past' heard heard' run run' rec rec' present present' _ _
      saved saved' (last log past) (last log' past') (library'.trans library.symm) (players'.trans players.symm)
      (same.trans same'.symm) 1 calm.ge calm'.ge (benign log turns)
  · rw [blanks_split m k few] at saved
    intro j inside
    exact (saved_determines 1 1 [65,10] [] _ _ log' log log' log past' past heard' heard run' run rec' rec present' present _
      _ saved' saved (last log' past') (last log past) (library.trans library'.symm) (players.trans players'.symm)
      (same'.trans same.symm) 1 calm'.ge calm.ge (benign log' turns') j inside).symm

end Input

end Craftsman.Disk
