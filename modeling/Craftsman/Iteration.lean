import Craftsman.Demultiplex
import Craftsman.Simulation
import Craftsman.Stream.Rounds

/-! What one iteration of the loop can do: the local commands that are gathered,
the answer of the network, and the turn behind it. -/
namespace Craftsman.Iteration
open Craftsman.Memory Craftsman.Recording Craftsman.CommandLog Craftsman.Network Craftsman.Client
open Craftsman.Frames Craftsman.Demultiplex Craftsman.StandardInput Craftsman.Text Craftsman.Dlfn
open Craftsman.Execute Craftsman.GameLoop Craftsman.Simulation
open Craftsman.Stream.Delimited Craftsman.Stream.Rounds

structure Recorded (input : RecordRW) (lines : List (List Byte)) : Prop where
  written : Written input lines
  free : Free 0 lines
  present : input.record ≠ none

section Gathering
variable {σ : Type}

structure Gathered (world later : World σ) : Prop where
  conn : later.conn = world.conn
  wires : later.wires = world.wires
  gameRecord : later.gameRecord = world.gameRecord
  frameStore : later.frameStore = world.frameStore
  playerCount : later.playerCount = world.playerCount
  library : later.library = world.library
  engine : later.game.engine = world.game.engine
  memory : later.game.memory = world.game.memory
  counters : later.loop = {world.loop with running := later.loop.running}
  goal : later.game.simulationGoal = world.game.simulationGoal ∧ later.loop.running = world.loop.running ∨
    later.game.simulationGoal = 0 ∧ later.loop.running = false
  read : later.input.read = world.input.read
  lines : ∀ lines, Recorded world.input lines → ∃ more, Recorded later.input (lines ++ more)

theorem Gathered.refl (world : World σ) : Gathered world world where
  conn := rfl
  wires := rfl
  gameRecord := rfl
  frameStore := rfl
  playerCount := rfl
  library := rfl
  engine := rfl
  memory := rfl
  counters := rfl
  goal := .inl ⟨rfl,rfl⟩
  read := rfl
  lines := fun lines recorded => ⟨[],by simpa using recorded⟩

theorem Gathered.trans {first second third : World σ} (one : Gathered first second) (two : Gathered second third) :
    Gathered first third where
  conn := two.conn.trans one.conn
  wires := two.wires.trans one.wires
  gameRecord := two.gameRecord.trans one.gameRecord
  frameStore := two.frameStore.trans one.frameStore
  playerCount := two.playerCount.trans one.playerCount
  library := two.library.trans one.library
  engine := two.engine.trans one.engine
  memory := two.memory.trans one.memory
  counters := by
    rw [two.counters,one.counters]
  goal := by
    rcases two.goal with ⟨goal,running⟩ | halted
    · rw [goal,running]
      exact one.goal
    · exact .inr halted
  read := two.read.trans one.read
  lines := by
    intro lines recorded
    obtain ⟨more,middle⟩ := one.lines lines recorded
    obtain ⟨rest,last⟩ := two.lines _ middle
    exact ⟨more ++ rest,by rwa [← List.append_assoc]⟩

theorem gathered_halt (world : World σ) (exiting : Bool) : Gathered world {world.halt with exiting := exiting} where
  conn := rfl
  wires := rfl
  gameRecord := rfl
  frameStore := rfl
  playerCount := rfl
  library := rfl
  engine := rfl
  memory := rfl
  counters := rfl
  goal := .inr ⟨rfl,rfl⟩
  read := rfl
  lines := fun lines recorded => ⟨[],by simpa [World.halt] using recorded⟩

theorem notify_gathered (names : List (List Byte)) (world : World σ) :
    Gathered world (names.foldl notifyCallback world) := by
  induction names generalizing world with
  | nil => exact .refl world
  | cons name names ih =>
    apply Gathered.trans _ (ih (notifyCallback world name))
    unfold notifyCallback
    split
    · exact gathered_halt world world.exiting
    · exact .refl world

theorem append_recorded (text : List Byte) (world later : World σ) (lines : List (List Byte)) (nulFree : 0 ∉ text)
    (recorded : Recorded world.input lines) (ok : appendInput text.length text world = .ok later) :
    Recorded later.input (lines ++ [text]) := by
  unfold appendInput at ok
  split at ok
  · cases ok
  · next record found =>
    obtain ⟨⟨closed,write⟩,append,same⟩ := (bind_ok _ _ _).mp ok
    cases same
    refine ⟨recorded.written.append record closed text write found append,?_,by simp⟩
    exact recorded.free.append (by simpa [Free] using nulFree)

theorem append_gathered (text : List Byte) (world later : World σ) (nulFree : 0 ∉ text)
    (ok : appendInput text.length text world = .ok later) : Gathered world later := by
  have lines (lines : List (List Byte)) (recorded : Recorded world.input lines) :
      ∃ more, Recorded later.input (lines ++ more) := ⟨[text],append_recorded text world later lines nulFree recorded ok⟩
  unfold appendInput at ok
  split at ok
  · cases ok
  · obtain ⟨_,_,same⟩ := (bind_ok _ _ _).mp ok
    cases same
    exact {Gathered.refl world with lines := lines, read := rfl}

theorem input_gathered (event : Event) (world later : World σ) (length : event.1 = event.2.length)
    (nulFree : 0 ∉ event.2) (ok : inputCallback world event = .ok later) : Gathered world later := by
  unfold inputCallback at ok
  split at ok
  · rw [length] at ok
    exact append_gathered event.2 world later nulFree ok
  · split at ok
    · cases ok
      exact gathered_halt world true
    · split at ok
      · cases ok
        exact gathered_halt world world.exiting
      · cases ok
        exact .refl _

theorem events_gathered (events : List Event) (world later : World σ)
    (legal : ∀ event ∈ events, event.1 = event.2.length ∧ 0 ∉ event.2)
    (ok : events.foldlM inputCallback world = .ok later) : Gathered world later := by
  induction events generalizing world with
  | nil =>
    cases ok
    exact .refl _
  | cons event events ih =>
    rw [List.foldlM_cons,bind_ok] at ok
    obtain ⟨middle,first,rest⟩ := ok
    obtain ⟨length,nulFree⟩ := legal event List.mem_cons_self
    exact (input_gathered event world middle length nulFree first).trans
      (ih middle (fun other member => legal other (List.mem_cons_of_mem _ member)) rest)

theorem poll_gathered (tick : Tick) (world later : World σ) (ok : pollInput tick world = .ok later) :
    Gathered world later := by
  unfold pollInput at ok
  obtain ⟨⟨up,stdin,keyboard,events⟩,polled,rest⟩ := (bind_ok _ _ _).mp ok
  have typed : Gathered world {world with stdin := stdin, keyboard := keyboard} := {Gathered.refl world with}
  exact typed.trans (events_gathered events _ later (poll_events _ _ _ _ _ _ _ _ polled) rest)

theorem fill_gathered (target fuel : Nat) (world later : World σ) (lines : List (List Byte))
    (recorded : Recorded world.input lines) (enough : target ≤ lines.length + fuel)
    (ok : fillInput target fuel world = .ok later) :
    Gathered world later ∧ target ≤ later.input.write.commandCount := by
  induction fuel generalizing world lines with
  | zero =>
    cases ok
    rw [recorded.written.cursor.commands]
    exact ⟨.refl _,enough⟩
  | succ fuel ih =>
    unfold fillInput at ok
    split at ok
    · obtain ⟨middle,append,rest⟩ := (bind_ok _ _ _).mp ok
      have one := append_recorded [] world middle lines List.not_mem_nil recorded append
      have longer : target ≤ (lines ++ [[]]).length + fuel := by
        rw [List.length_append,List.length_singleton]
        omega
      obtain ⟨gathered,filled⟩ := ih middle _ one longer rest
      exact ⟨(append_gathered [] world middle List.not_mem_nil append).trans gathered,filled⟩
    · cases ok
      exact ⟨.refl _,by omega⟩

theorem Gathered.writeFrame {world later : World σ} (gathered : Gathered world later) :
    loopWriteFrame later.loop = loopWriteFrame world.loop := by
  rw [gathered.counters]
  rfl

theorem gather_gathered (tick : Tick) (world later : World σ) (lines : List (List Byte))
    (recorded : Recorded world.input lines) (ok : gather tick world = .ok later) :
    Gathered world later ∧ loopWriteFrame later.loop ≤ later.input.write.commandCount := by
  unfold gather at ok
  obtain ⟨middle,polled,rest⟩ := (bind_ok _ _ _).mp ok
  have heard := (notify_gathered tick.changed world).trans (poll_gathered tick _ middle polled)
  obtain ⟨more,recorded⟩ := heard.lines lines recorded
  have enough : loopWriteFrame middle.loop ≤
      (lines ++ more).length + (loopWriteFrame middle.loop - middle.input.write.commandCount) := by
    rw [recorded.written.cursor.commands]
    omega
  obtain ⟨filled,target⟩ := fill_gathered _ _ middle later _ recorded enough rest
  rw [filled.writeFrame]
  exact ⟨heard.trans filled,target⟩

end Gathering

section Network

theorem processing_reads (conn after : Connection) (recording stored : Recordings) (result : Bool)
    (ok : connectionProcessing conn recording = .ok (result,after,stored)) (i : Fin 4) :
    (stored i).read = (recording i).read := by
  have kept (player : Fin 4) (rw : RecordRW) (recording : Recordings) (same : rw.read = (recording player).read) :
      (Function.update recording player rw i).read = (recording i).read := by
    by_cases here : i = player
    · subst here
      rw [Function.update_self,same]
    · rw [Function.update_of_ne here]
  induction conn, recording using connectionProcessing.induct with
  | case1 conn recording stop round =>
    rw [processing_stops _ _ _ round] at ok
    cases ok
  | case2 conn recording ended last kept' round =>
    rw [processing_done _ _ _ _ _ round] at ok
    cases ok
    rcases round_ok _ _ _ round with ⟨_,same⟩ | ⟨_,_,player,_,⟨_,same⟩ | ⟨_,_,_,_,_,same⟩⟩
    · cases same
      rfl
    · cases same
      exact kept player _ recording rfl
    · cases same
  | case3 conn recording next moved round ih =>
    rw [processing_next _ _ _ _ round] at ok
    rw [ih ok]
    rcases round_ok _ _ _ round with ⟨_,same⟩ | ⟨_,_,player,_,⟨_,same⟩ | ⟨record,_,_,_,store,same⟩⟩
    · cases same
    · cases same
    · cases same
      obtain ⟨_,_,_,_,_,_,_,_,_,_,_,rfl⟩ := storeMessage_ok _ _ _ _ _ _ store
      exact kept player _ recording rfl

/-- What the socket took of each command and its terminator. -/
def delivered (lines : List (List Byte)) (answers : List Write) : List Byte :=
  (List.zipWith (fun line answer => taken answer (line ++ [0])) lines answers).flatten

theorem send_conn (conn after : Connection) (input sent : RecordRW) (wire left : List Byte) (write : Write)
    (ok : connectionSend conn input wire write = .ok (some (after,sent,left))) :
    after = {conn with buffering := after.buffering} := by
  unfold connectionSend at ok
  split at ok
  · cases ok
  · obtain ⟨⟨cmd,read⟩,_,rest⟩ := (bind_ok _ _ _).mp ok
    cases cmd with
    | none => cases rest
    | some cmd =>
      cases rest
      rfl

theorem sendLoop_conn (target : Nat) (writes : Nat → Write) (fuel k : Nat) (conn after : Connection)
    (input sent : RecordRW) (wire left : List Byte) (status : ConnStatus)
    (ok : sendLoop target writes fuel k conn input wire = .ok (status,after,sent,left)) :
    after = {conn with buffering := after.buffering} := by
  induction fuel generalizing k conn input wire with
  | zero =>
    cases ok
    rfl
  | succ fuel ih =>
    unfold sendLoop at ok
    split at ok
    · obtain ⟨result,send,rest⟩ := (bind_ok _ _ _).mp ok
      cases result with
      | none =>
        cases rest
        rfl
      | some moved =>
        rw [ih (k+1) _ _ _ rest,send_conn conn _ input _ wire _ _ send]
    · cases ok
      rfl

theorem send_moves (conn after : Connection) (input sent : RecordRW) (wire left : List Byte) (write : Write)
    (lines : List (List Byte)) (n : Nat) (recorded : Recorded input lines) (cursor : Cursor lines n input.read)
    (ok : connectionSend conn input wire write = .ok (some (after,sent,left))) :
    Recorded sent lines ∧ Cursor lines (n + 1) sent.read ∧
      ∃ inside : n < lines.length, left = wire ++ taken write (lines[n] ++ [0]) := by
  obtain ⟨record,found⟩ := Option.ne_none_iff_exists'.mp recorded.present
  rcases send_reads conn input wire write record lines n found (recorded.written.holds record found) recorded.free cursor
    with ⟨more,next,moved,send⟩ | ⟨_,ended⟩
  · cases send.symm.trans ok
    exact ⟨⟨recorded.written.read _,recorded.free,recorded.present⟩,moved,more,networkWrite_taken ..⟩
  · cases ended.symm.trans ok

theorem send_next (conn : Connection) (input : RecordRW) (wire : List Byte) (write : Write) (lines : List (List Byte))
    (n : Nat) (recorded : Recorded input lines) (cursor : Cursor lines n input.read) (more : n < lines.length) :
    ∃ moved, connectionSend conn input wire write = .ok (some moved) := by
  obtain ⟨record,found⟩ := Option.ne_none_iff_exists'.mp recorded.present
  rcases send_reads conn input wire write record lines n found (recorded.written.holds record found) recorded.free cursor
    with ⟨_,_,_,send⟩ | ⟨last,_⟩
  · exact ⟨_,send⟩
  · omega

/-- The commands from number `n` on are sent up to number `m`. -/
structure Sent (status : ConnStatus) (target : Nat) (writes : Nat → Write) (lines : List (List Byte)) (n m : Nat)
    (sent : RecordRW) (wire left : List Byte) : Prop where
  recorded : Recorded sent lines
  cursor : Cursor lines m sent.read
  low : n ≤ m
  high : m ≤ max n target
  complete : status = .ok → m = max n target
  readable : target ≤ lines.length → status ≠ .corrupt
  bytes : left = wire ++ delivered (lines.drop n) ((List.range (m - n)).map writes)

theorem sent_none (status : ConnStatus) (target : Nat) (writes : Nat → Write) (lines : List (List Byte)) (n : Nat)
    (input : RecordRW) (wire : List Byte) (recorded : Recorded input lines) (cursor : Cursor lines n input.read)
    (complete : status = .ok → n = max n target) (readable : target ≤ lines.length → status ≠ .corrupt) :
    Sent status target writes lines n n input wire wire := by
  refine ⟨recorded,cursor,Nat.le_refl n,Nat.le_max_left n target,complete,readable,?_⟩
  rw [Nat.sub_self]
  simp [delivered]

theorem sendLoop_ok (target : Nat) (writes : Nat → Write) (fuel k n : Nat) (conn after : Connection)
    (input sent : RecordRW) (wire left : List Byte) (status : ConnStatus) (lines : List (List Byte))
    (recorded : Recorded input lines) (cursor : Cursor lines n input.read) (enough : target ≤ n + fuel)
    (ok : sendLoop target writes fuel k conn input wire = .ok (status,after,sent,left)) :
    ∃ m, Sent status target (fun j => writes (k + j)) lines n m sent wire left := by
  induction fuel generalizing k n conn input wire with
  | zero =>
    cases ok
    exact ⟨n,sent_none .ok target _ lines n _ _ recorded cursor (fun _ => by omega) fun _ ended => nomatch ended⟩
  | succ fuel ih =>
    unfold sendLoop at ok
    rw [cursor.commands] at ok
    split at ok
    · next below =>
      obtain ⟨result,send,rest⟩ := (bind_ok _ _ _).mp ok
      cases result with
      | none =>
        cases rest
        refine ⟨n,sent_none .corrupt target _ lines n _ _ recorded cursor (fun ended => nomatch ended) ?_⟩
        intro inside _
        obtain ⟨moved,reads⟩ := send_next _ _ _ (writes k) lines n recorded cursor (by omega)
        rw [reads] at send
        cases send
      | some moved =>
        obtain ⟨next,input',wire'⟩ := moved
        obtain ⟨recorded',cursor',inside,one⟩ := send_moves conn next input input' wire wire' _ lines n recorded cursor send
        obtain ⟨m,more⟩ := ih (k+1) (n+1) next input' wire' recorded' cursor' (by omega) rest
        have low := more.low
        have high := more.high
        refine ⟨m,more.recorded,more.cursor,by omega,by omega,fun ended => ?_,more.readable,?_⟩
        · have reached := more.complete ended
          omega
        · have rounds : m - n = (m - (n + 1)) + 1 := by omega
          rw [more.bytes,one,rounds,List.range_succ_eq_map,List.map_cons,List.map_map,List.drop_eq_getElem_cons inside,
            delivered,delivered,List.zipWith_cons_cons,List.flatten_cons,List.append_assoc,Nat.add_zero]
          congr 4
          apply List.map_congr_left
          intro j _
          rw [Function.comp_apply,Nat.succ_eq_add_one]
          congr 1
          omega
    · cases ok
      exact ⟨n,sent_none .ok target _ lines n _ _ recorded cursor (fun _ => by omega) fun _ ended => nomatch ended⟩

theorem sync_sent (target n : Nat) (conn after : Connection) (wires wires' : Wires) (input sent : RecordRW)
    (recording stored : Recordings) (kernel : Kernel) (status : ConnStatus) (lines : List (List Byte))
    (recorded : Recorded input lines) (cursor : Cursor lines n input.read)
    (ok : connectionSync target conn wires input recording kernel = .ok (status,after,wires',sent,stored)) :
    ∃ m, Sent status target kernel.writes lines n m sent wires.outgoing wires'.outgoing := by
  unfold connectionSync at ok
  obtain ⟨⟨up,polled,incoming⟩,_,ok⟩ := (bind_ok _ _ _).mp ok
  dsimp only at ok
  split at ok
  · cases ok
    exact ⟨n,sent_none .term target _ lines n _ _ recorded cursor (fun ended => nomatch ended)
      fun _ ended => nomatch ended⟩
  · obtain ⟨⟨same,processed,stored'⟩,_,ok⟩ := (bind_ok _ _ _).mp ok
    dsimp only at ok
    split at ok
    · cases ok
      exact ⟨n,sent_none .change target _ lines n _ _ recorded cursor (fun ended => nomatch ended)
        fun _ ended => nomatch ended⟩
    · obtain ⟨⟨status',last,sent',outgoing⟩,sending,same⟩ := (bind_ok _ _ _).mp ok
      cases same
      have enough : target ≤ n + (target - input.read.commandCount) := by
        rw [cursor.commands]
        omega
      obtain ⟨m,moved⟩ := sendLoop_ok target kernel.writes _ 0 n processed _ input _ _ _ _ lines recorded cursor enough
        sending
      simp only [Nat.zero_add] at moved
      exact ⟨m,moved⟩

theorem sync_stored (target : Nat) (conn after : Connection) (wires wires' : Wires) (input sent : RecordRW)
    (recording stored : Recordings) (kernel : Kernel) (status : ConnStatus) (done rest : List Frame)
    (demux : Demux conn recording wires.incoming done rest)
    (ok : connectionSync target conn wires input recording kernel = .ok (status,after,wires',sent,stored)) :
    (∃ now later, rest = now ++ later ∧ Demux after stored wires'.incoming (done ++ now) later) ∧
      ∀ i, (stored i).read = (recording i).read := by
  unfold connectionSync at ok
  obtain ⟨⟨up,polled,incoming⟩,io,ok⟩ := (bind_ok _ _ _).mp ok
  have received := io_demux conn polled recording wires.incoming incoming [] done rest kernel.poll kernel.read up
    (by rwa [List.append_nil]) io
  rw [List.append_nil] at received
  dsimp only at ok
  split at ok
  · cases ok
    exact ⟨⟨[],rest,rfl,by rwa [List.append_nil]⟩,fun _ => rfl⟩
  · obtain ⟨⟨same,processed,stored'⟩,processing,ok⟩ := (bind_ok _ _ _).mp ok
    obtain ⟨now,later,cut,moved,_⟩ := processing_demux polled processed recording stored' incoming done rest same
      received processing
    have reads := processing_reads polled processed recording stored' same processing
    dsimp only at ok
    split at ok
    · cases ok
      exact ⟨⟨now,later,cut,moved⟩,reads⟩
    · obtain ⟨⟨status',last,sent',outgoing⟩,sending,same⟩ := (bind_ok _ _ _).mp ok
      cases same
      refine ⟨⟨now,later,cut,?_⟩,reads⟩
      rw [sendLoop_conn _ _ _ _ processed _ _ _ _ _ _ sending]
      exact ⟨moved.low,moved.high,moved.unread,moved.written,moved.messages,moved.bytes⟩

end Network

section Synchronizing
variable {σ : Type}

/-- The iteration up to the network's answer: `more` local commands are recorded
and sent up to number `m`, and the frames `now` are stored. -/
structure Synchronized (status : ConnStatus) (world synced : World σ) (lines more : List (List Byte))
    (done now later : List Frame) (n m : Nat) : Prop where
  library : synced.library = world.library
  playerCount : synced.playerCount = world.playerCount
  frameStore : synced.frameStore = world.frameStore
  engine : synced.game.engine = world.game.engine
  memory : synced.game.memory = world.game.memory
  counters : synced.loop = {world.loop with running := synced.loop.running}
  goal : synced.game.simulationGoal = world.game.simulationGoal ∧ synced.loop.running = world.loop.running ∨
    synced.game.simulationGoal = 0 ∧ synced.loop.running = false
  demux : Demux synced.conn synced.gameRecord synced.wires.incoming (done ++ now) later
  reads : ∀ i, (synced.gameRecord i).read = (world.gameRecord i).read
  recorded : Recorded synced.input (lines ++ more)
  cursor : Cursor (lines ++ more) m synced.input.read
  low : n ≤ m
  high : m ≤ max n (loopWriteFrame world.loop)
  sent : status = .ok → m = max n (loopWriteFrame world.loop)
  filled : loopWriteFrame world.loop ≤ (lines ++ more).length

theorem syncStep_ok (tick : Tick) (status : ConnStatus) (world synced : World σ) (lines : List (List Byte))
    (done rest : List Frame) (n : Nat) (recorded : Recorded world.input lines)
    (cursor : Cursor lines n world.input.read)
    (demux : Demux world.conn world.gameRecord world.wires.incoming done rest)
    (ok : syncStep tick world = .ok (status,synced)) :
    ∃ more now later m, rest = now ++ later ∧ Synchronized status world synced lines more done now later n m := by
  unfold syncStep at ok
  obtain ⟨middle,gathering,ok⟩ := (bind_ok _ _ _).mp ok
  obtain ⟨gathered,target⟩ := gather_gathered tick world middle lines recorded gathering
  obtain ⟨more,recorded⟩ := gathered.lines lines recorded
  have cursor := cursor.append more
  rw [← gathered.read] at cursor
  rw [← gathered.conn,← gathered.gameRecord,← gathered.wires] at demux
  obtain ⟨⟨status',conn,wires,input,gameRecord⟩,sync,same⟩ := (bind_ok _ _ _).mp ok
  cases same
  obtain ⟨⟨now,later,cut,moved⟩,reads⟩ :=
    sync_stored _ _ conn _ wires _ input _ gameRecord tick.kernel status done rest demux sync
  obtain ⟨m,sent⟩ := sync_sent _ n _ conn _ wires _ input _ gameRecord tick.kernel status _ recorded cursor sync
  have high := sent.high
  have complete := sent.complete
  rw [gathered.writeFrame] at high complete target
  rw [recorded.written.cursor.commands] at target
  exact ⟨more,now,later,m,cut,gathered.library,gathered.playerCount,gathered.frameStore,gathered.engine,
    gathered.memory,gathered.counters,gathered.goal,moved,
    fun i => (reads i).trans (congrArg (fun recording => (recording i).read) gathered.gameRecord),
    sent.recorded,sent.cursor,sent.low,high,complete,target⟩

end Synchronizing

section Turns
variable {σ : Type}

theorem players_mem (playerCount : Nat) (i : Fin 4) : i ∈ players playerCount ↔ i.val < playerCount := by
  unfold players
  rw [List.mem_take_iff_getElem]
  constructor
  · rintro ⟨j,inside,rfl⟩
    rw [List.getElem_finRange]
    simp only [Fin.val_cast]
    omega
  · intro inside
    exact ⟨i.val,by rw [List.length_finRange]; omega,by simp⟩

theorem players_nodup (playerCount : Nat) : (players playerCount).Nodup :=
  (List.nodup_finRange 4).sublist (List.take_sublist _ _)

theorem preview_positive (inputQueueMax playerCount : Nat) (recording : Recordings) :
    (commandPreview inputQueueMax playerCount recording).turnNearest ≠ 0 ↔
      inputQueueMax ≠ 0 ∧ ∀ i ∈ players playerCount, ahead (recording i) ≠ 0 := by
  have least (order : List (Fin 4)) (preview : CommandPreview) :
      (order.foldl (fun preview i => CommandPreview.mk (min (ahead (recording i)) preview.turnNearest)
        (max (ahead (recording i)) preview.turnFarthest)) preview).turnNearest ≠ 0 ↔
      preview.turnNearest ≠ 0 ∧ ∀ i ∈ order, ahead (recording i) ≠ 0 := by
    induction order generalizing preview with
    | nil => simp
    | cons i order ih =>
      rw [List.foldl_cons,ih,List.forall_mem_cons]
      dsimp only
      constructor
      · rintro ⟨least,later⟩
        exact ⟨by omega,by omega,later⟩
      · rintro ⟨first,here,later⟩
        exact ⟨by omega,later⟩
  exact least (players playerCount) ⟨inputQueueMax,0⟩

theorem ahead_count (rw : RecordRW) (lines : List (List Byte)) (t : Nat) (written : Written rw lines)
    (cursor : Cursor lines t rw.read) : ahead rw = lines.length - t := by
  have inside := cursor.inside
  have count : lines.length ≤ 2^31 := by
    cases present : rw.record with
    | none =>
      rw [written.absent present]
      exact Nat.zero_le _
    | some record => exact (written.holds record present).count_le
  rw [ahead,written.cursor.commands,cursor.commands]
  unfold u32
  omega

theorem read_written (recording : Recordings) (logs : Fin 4 → List (List Byte)) (i : Fin 4) (read : RecordOffset)
    (written : ∀ j, Written (recording j) (logs j)) (j : Fin 4) :
    Written (Function.update recording i {recording i with read := read} j) (logs j) := by
  by_cases here : j = i
  · subst here
    rw [Function.update_self]
    exact (written j).read read
  · rw [Function.update_of_ne here]
    exact written j

def afterNext (rw : RecordRW) (text : List Byte) : RecordRW :=
  {rw with read := ⟨rw.read.byteCount + text.length + 1,rw.read.commandCount + 1⟩}

/-- The next command of a record: the read yields it, and moves the offset behind its terminator. -/
structure Next (rw : RecordRW) (text : List Byte) : Prop where
  nulFree : 0 ∉ text
  reads : ∃ record, rw.record = some record ∧ recordRead record rw.read = .ok (some text,(afterNext rw text).read)

theorem next_laid (rw : RecordRW) (record : Record) (lines : List (List Byte)) (t : Nat)
    (present : rw.record = some record) (laid : Laid record lines) (free : Free 0 lines) (cursor : Cursor lines t rw.read)
    (more : t < lines.length) : Next rw lines[t] ∧ Cursor lines (t + 1) (afterNext rw lines[t]).read := by
  obtain ⟨next,reads,moved⟩ := laid.read_next t rw.read free cursor more
  have offset : next = (afterNext rw lines[t]).read := by
    have bytes := moved.bytes
    have commands := moved.commands
    rw [encode_take_succ 0 lines t more,List.length_append,← cursor.bytes,List.length_append,List.length_singleton] at bytes
    rw [← cursor.commands] at commands
    obtain ⟨byteCount,commandCount⟩ := next
    dsimp only at bytes commands
    rw [bytes,commands]
    rfl
  rw [offset] at reads moved
  exact ⟨⟨free _ (List.getElem_mem more),record,present,reads⟩,moved⟩

/-- The entry of a player in the round of turn `t`. -/
theorem next_written (rw : RecordRW) (lines : List (List Byte)) (t : Nat) (written : Written rw lines)
    (free : Free 0 lines) (cursor : Cursor lines t rw.read) (more : t < lines.length) :
    Next rw (lines[t]?.getD []) ∧ Cursor lines (t + 1) (afterNext rw (lines[t]?.getD [])).read := by
  rw [List.getElem?_eq_getElem more,Option.getD_some]
  cases present : rw.record with
  | none =>
    rw [written.absent present] at more
    exact absurd more (Nat.not_lt_zero t)
  | some record => exact next_laid rw record lines t present (written.holds record present).laid free cursor more

/-- What a round over the players leaves: one command taken of each. -/
def passed (order : List (Fin 4)) (next : Fin 4 → List Byte) (recording : Recordings) : Recordings :=
  fun i => if i ∈ order then afterNext (recording i) (next i) else recording i

theorem passed_cons (i : Fin 4) (order : List (Fin 4)) (next : Fin 4 → List Byte) (recording : Recordings)
    (fresh : i ∉ order) : passed order next (Function.update recording i (afterNext (recording i) (next i))) =
      passed (i::order) next recording := by
  funext j
  unfold passed
  by_cases here : j = i
  · subst j
    rw [if_neg fresh,if_pos List.mem_cons_self,Function.update_self]
  · rw [Function.update_of_ne here]
    simp only [List.mem_cons,here,false_or]

/-- One command of every player is taken when they fit the buffer with their terminators;
otherwise the round ends early. -/
theorem commandFrame_takes (order : List (Fin 4)) (used : Nat) (recording : Recordings) (next : Fin 4 → List Byte)
    (once : order.Nodup) (room : used ≤ frameBufLen) (due : ∀ i ∈ order, Next (recording i) (next i)) :
    (used + (order.map fun i => (next i).length + 1).sum ≤ frameBufLen →
        commandFrame order used recording = .ok (some (order.map next),passed order next recording)) ∧
      (frameBufLen < used + (order.map fun i => (next i).length + 1).sum →
        ∃ moved, commandFrame order used recording = .ok (none,moved)) := by
  induction order generalizing used recording with
  | nil =>
    refine ⟨fun _ => ?_,fun full => absurd full (by simpa using room)⟩
    rw [commandFrame]
    rfl
  | cons i order ih =>
    obtain ⟨fresh,once⟩ := List.nodup_cons.mp once
    obtain ⟨record,present,reads⟩ := (due i List.mem_cons_self).reads
    have elsewhere (j : Fin 4) (member : j ∈ order) :
        Function.update recording i (afterNext (recording i) (next i)) j = recording j := by
      apply Function.update_of_ne
      rintro rfl
      exact fresh member
    have read : commandFrame (i::order) used recording =
        if frameBufLen ≤ used + (next i).length then
          .ok (none,Function.update recording i (afterNext (recording i) (next i)))
        else
          commandFrame order (used + (next i).length + 1)
            (Function.update recording i (afterNext (recording i) (next i))) >>= fun rest =>
            .ok (rest.1.map (next i :: ·),rest.2) := by
      rw [commandFrame,present]
      dsimp only
      rw [reads,ok_bind]
      rfl
    rw [List.map_cons,List.sum_cons,read]
    by_cases full : frameBufLen ≤ used + (next i).length
    · rw [if_pos full]
      exact ⟨fun fits => absurd fits (by omega),fun _ => ⟨_,rfl⟩⟩
    · rw [if_neg full]
      obtain ⟨takes,ends⟩ := ih (used + (next i).length + 1)
        (Function.update recording i (afterNext (recording i) (next i))) once (by omega) (by
          intro j member
          rw [elsewhere j member]
          exact due j (List.mem_cons_of_mem _ member))
      constructor
      · intro fits
        rw [takes (by omega),ok_bind,passed_cons i order next recording fresh]
        rfl
      · intro beyond
        obtain ⟨moved,none⟩ := ends (by omega)
        exact ⟨moved,by rw [none,ok_bind]; rfl⟩

/-- A round takes the next command of every player, and no other read offset moves. -/
theorem commandFrame_ok (order : List (Fin 4)) (used t : Nat) (recording moved : Recordings)
    (logs : Fin 4 → List (List Byte)) (found : List (List Byte)) (once : order.Nodup) (room : used ≤ frameBufLen)
    (written : ∀ i, Written (recording i) (logs i)) (free : ∀ i, Free 0 (logs i))
    (cursor : ∀ i ∈ order, Cursor (logs i) t (recording i).read) (more : Covers order logs (t + 1))
    (ok : commandFrame order used recording = .ok (some found,moved)) :
    found = row order logs t ∧ (∀ i, Written (moved i) (logs i)) ∧
      (∀ i ∈ order, Cursor (logs i) (t + 1) (moved i).read) ∧ ∀ i, i ∉ order → (moved i).read = (recording i).read := by
  have each (i : Fin 4) (member : i ∈ order) :=
    next_written (recording i) (logs i) t (written i) (free i) (cursor i member) (more i member)
  obtain ⟨takes,ends⟩ := commandFrame_takes order used recording (fun i => (logs i)[t]?.getD []) once room
    fun i member => (each i member).1
  have fits := Nat.le_of_not_lt fun full => by
    obtain ⟨_,none⟩ := ends full
    rw [none] at ok
    cases ok
  rw [takes fits] at ok
  cases ok
  refine ⟨?_,?_,?_,?_⟩
  · rw [row,← List.filterMap_eq_map]
    apply List.filterMap_congr
    intro i member
    rw [Function.comp_apply,List.getElem?_eq_getElem (more i member),Option.getD_some]
  · intro i
    unfold passed
    split
    · exact (written i).read _
    · exact written i
  · intro i member
    rw [passed,if_pos member]
    exact (each i member).2
  · intro i absent
    rw [passed,if_neg absent]

theorem executeAll_goal (library : Library σ) (cycles : Nat → Nat → Nat → Nat → UInt64) (i : Nat)
    (texts : List (List Byte)) (game later : Game σ) (ok : executeAll library cycles i texts game = .ok later) :
    later.simulationGoal = texts.foldl goalAfter game.simulationGoal ∧
      later.engine.objects = game.engine.objects := by
  induction texts generalizing i game with
  | nil =>
    cases ok
    exact ⟨rfl,rfl⟩
  | cons text texts ih =>
    rw [executeAll,bind_ok] at ok
    obtain ⟨middle,first,rest⟩ := ok
    obtain ⟨goal,objects⟩ := executeAny_goal library (cycles i) game middle text first
    obtain ⟨goals,kept⟩ := ih (i+1) middle rest
    rw [goals,goal,kept,objects]
    exact ⟨rfl,rfl⟩

theorem executeAll_regoal (library : Library σ) (cycles : Nat → Nat → Nat → Nat → UInt64) (i goal : Nat)
    (texts : List (List Byte)) (game later : Game σ) (ok : executeAll library cycles i texts game = .ok later) :
    executeAll library cycles i texts {game with simulationGoal := goal} =
      .ok {later with simulationGoal := texts.foldl goalAfter goal} := by
  induction texts generalizing i game goal with
  | nil =>
    cases ok
    rfl
  | cons text texts ih =>
    rw [executeAll,bind_ok] at ok
    obtain ⟨middle,first,rest⟩ := ok
    rw [executeAll,executeAny_regoal library (cycles i) game middle text goal first,ok_bind]
    exact ih (i+1) (goalAfter goal text) middle rest

/-- A command that sets the goal hides the goal before it. -/
theorem goalAfter_hides (texts : List (List Byte)) (first second : Nat)
    (hidden : first = second ∨ texts.any setsGoal = true) : texts.foldl goalAfter first = texts.foldl goalAfter second := by
  induction texts generalizing first second with
  | nil =>
    rcases hidden with rfl | none
    · rfl
    · cases none
  | cons text texts ih =>
    apply ih
    unfold goalAfter
    by_cases sets : setsGoal text = true
    · rw [if_pos sets,if_pos sets]
      exact .inl rfl
    · rw [if_neg sets,if_neg sets]
      rwa [List.any_cons,Bool.not_eq_true _ |>.mp sets,Bool.false_or] at hidden

theorem image_length (library : Library σ) (memory : σ) (object : Object) :
    (image library memory object).length = object.bytes := by
  rw [image,List.length_map,List.length_range]

theorem append_images (library : Library σ) (memory : σ) (objects : List Object) (store stored : RecordRW)
    (images : List (List Byte)) (written : Written store images)
    (ok : appendObjects library memory objects store = .ok stored) :
    Written stored (images ++ objects.map (image library memory)) := by
  induction objects generalizing store images with
  | nil =>
    cases ok
    rwa [List.map_nil,List.append_nil]
  | cons object objects ih =>
    rw [appendObjects] at ok
    split at ok
    · cases ok
    · next record present =>
      obtain ⟨⟨closed,write⟩,append,rest⟩ := (bind_ok _ _ _).mp ok
      rw [← image_length library memory object] at append
      have one := written.append record closed _ write present append
      rw [List.map_cons,← List.singleton_append,← List.append_assoc]
      exact ih _ _ one rest

theorem simulateFrame_ok (library : Library σ) (unset : Nat → Word) (game later : Game σ) (store stored : RecordRW)
    (images : List (List Byte)) (written : Written store images)
    (ok : simulateFrame library unset game store = .ok (later,stored)) :
    ∃ engine memory calls, frameBody library unset game.engine game.memory = .ok (engine,memory,calls) ∧
      later = {game with engine := engine, memory := memory} ∧ engine.objects = game.engine.objects ∧
      Written stored (images ++ game.engine.objects.map (image library memory)) := by
  unfold simulateFrame at ok
  obtain ⟨⟨engine,memory,calls⟩,body,ok⟩ := (bind_ok _ _ _).mp ok
  obtain ⟨store',append,same⟩ := (bind_ok _ _ _).mp ok
  cases same
  have objects := frameBody_objects library unset _ engine _ memory calls body
  refine ⟨engine,memory,calls,body,rfl,objects,?_⟩
  rw [← objects]
  exact append_images library memory engine.objects store stored images written append

structure Idle (world later : World σ) : Prop where
  game : later.game = world.game
  conn : later.conn = world.conn
  wires : later.wires = world.wires
  input : later.input = world.input
  gameRecord : later.gameRecord = world.gameRecord
  frameStore : later.frameStore = world.frameStore
  playerCount : later.playerCount = world.playerCount
  library : later.library = world.library
  frame : later.loop.frame = world.loop.frame
  pauseFrame : later.loop.pauseFrame = world.loop.pauseFrame
  queue : later.loop.inputQueue = world.loop.inputQueue ∨
    later.loop.inputQueue = min (u32 (world.loop.inputQueue + 1)) world.loop.inputQueueMax
  queueMax : later.loop.inputQueueMax = world.loop.inputQueueMax
  running : later.loop.running = true → world.loop.running = true

structure Turned (tick : Tick) (world later : World σ) (turn : Turn) : Prop where
  conn : later.conn = world.conn
  wires : later.wires = world.wires
  input : later.input = world.input
  playerCount : later.playerCount = world.playerCount
  library : later.library = world.library
  queue : later.loop.inputQueue = world.loop.inputQueue
  queueMax : later.loop.inputQueueMax = world.loop.inputQueueMax
  running : later.loop.running = world.loop.running
  at_frame : turn.frame = world.loop.frame
  at_pause : turn.pauseFrame = world.loop.pauseFrame
  nearest : (commandPreview world.loop.inputQueueMax world.playerCount world.gameRecord).turnNearest ≠ 0
  commands : commandFrame (players world.playerCount) 0 world.gameRecord = .ok (some turn.commands,later.gameRecord)
  executed : ∃ game, executeAll world.library tick.cycles 0 turn.commands world.game = .ok game ∧
    (game.simulationGoal ≤ world.loop.frame ∧ turn.simulated = false ∧ later.game = game ∧
        later.frameStore = world.frameStore ∧ later.loop.frame = world.loop.frame ∧
        later.loop.pauseFrame = u32 (world.loop.pauseFrame + 1) ∨
      world.loop.frame < game.simulationGoal ∧ turn.simulated = true ∧
        simulateFrame world.library tick.unset game world.frameStore = .ok (later.game,later.frameStore) ∧
        later.loop.frame = u32 (world.loop.frame + 1) ∧ later.loop.pauseFrame = world.loop.pauseFrame)

theorem stall_idle (tick : Tick) (world later : World σ) (turn : Option Turn)
    (passed : stall tick world = some (later,turn)) : turn = none ∧ Idle world later := by
  unfold stall loopStall at passed
  obtain ⟨loop,waited,same⟩ := Option.map_eq_some_iff.mp passed
  obtain ⟨clock,sleep,rfl⟩ := waitClock_same _ _ _ waited
  cases same
  exact ⟨rfl,⟨rfl,rfl,rfl,rfl,rfl,rfl,rfl,rfl,rfl,rfl,.inr rfl,rfl,id⟩⟩

theorem finish_turned (tick : Tick) (synced world later : World σ) (turn : Option Turn) (texts : List (List Byte))
    (taken : takeTurn tick synced = .ok (world,texts))
    (nearest : (commandPreview synced.loop.inputQueueMax synced.playerCount synced.gameRecord).turnNearest ≠ 0)
    (ok : finishTurn tick world texts = .ok (some (later,turn))) :
    ∃ taken, turn = some taken ∧ Turned tick synced later taken := by
  unfold takeTurn at taken
  obtain ⟨⟨found,moved⟩,frame,taken⟩ := (bind_ok _ _ _).mp taken
  cases found with
  | none => cases taken
  | some found =>
    obtain ⟨game,execute,same⟩ := (bind_ok _ _ _).mp taken
    cases same
    unfold finishTurn at ok
    dsimp only at ok
    split at ok
    · next reached =>
      unfold loopPause at ok
      obtain ⟨loop,waited,same⟩ := Option.map_eq_some_iff.mp (Except.ok.inj ok)
      obtain ⟨clock,sleep,rfl⟩ := waitClock_same _ _ _ waited
      cases same
      exact ⟨_,rfl,⟨rfl,rfl,rfl,rfl,rfl,rfl,rfl,rfl,rfl,rfl,nearest,frame,
        game,execute,.inl ⟨reached,rfl,rfl,rfl,rfl,rfl⟩⟩⟩
    · next below =>
      obtain ⟨⟨final,store⟩,simulate,ok⟩ := (bind_ok _ _ _).mp ok
      unfold loopSync at ok
      obtain ⟨loop,waited,same⟩ := Option.map_eq_some_iff.mp (Except.ok.inj ok)
      obtain ⟨clock,sleep,rfl⟩ := waitClock_same _ _ _ waited
      cases same
      exact ⟨_,rfl,⟨rfl,rfl,rfl,rfl,rfl,rfl,rfl,rfl,rfl,rfl,nearest,frame,
        game,execute,.inr ⟨Nat.lt_of_not_le below,rfl,simulate,rfl,rfl⟩⟩⟩

theorem advance_turned (tick : Tick) (world later : World σ) (turn : Option Turn)
    (nearest : (commandPreview world.loop.inputQueueMax world.playerCount world.gameRecord).turnNearest ≠ 0)
    (ok : advance tick .ok world = .ok (some (later,turn))) :
    ∃ taken, turn = some taken ∧ Turned tick world later taken := by
  unfold advance at ok
  dsimp only at ok
  rw [if_neg nearest] at ok
  obtain ⟨⟨middle,texts⟩,taken,rest⟩ := (bind_ok _ _ _).mp ok
  exact finish_turned tick world middle later turn texts taken nearest rest

/-- What an iteration does behind the network's answer. -/
theorem advance_cases (tick : Tick) (status : ConnStatus) (world later : World σ) (turn : Option Turn)
    (ok : advance tick status world = .ok (some (later,turn))) :
    turn = none ∧ Idle world later ∨
      ∃ taken, status = .ok ∧ turn = some taken ∧ Turned tick world later taken := by
  have halted (exiting : Bool) : Idle world {world with loop := loopHalt world.loop, exiting := exiting} :=
    ⟨rfl,rfl,rfl,rfl,rfl,rfl,rfl,rfl,rfl,rfl,.inl rfl,rfl,fun again => by cases again⟩
  cases status with
  | corrupt =>
    cases ok
    exact .inl ⟨rfl,halted true⟩
  | term =>
    cases ok
    exact .inl ⟨rfl,halted true⟩
  | change =>
    cases ok
    exact .inl ⟨rfl,halted world.exiting⟩
  | ok =>
    by_cases stalls : (commandPreview world.loop.inputQueueMax world.playerCount world.gameRecord).turnNearest = 0
    · unfold advance at ok
      dsimp only at ok
      rw [if_pos stalls] at ok
      exact .inl (stall_idle tick world later turn (Except.ok.inj ok))
    · obtain ⟨turn,found,turned⟩ := advance_turned tick world later turn stalls ok
      exact .inr ⟨turn,rfl,found,turned⟩

/-- Behind the network's answer the local commands, the wires and the connection stay. -/
theorem advance_keeps (tick : Tick) (status : ConnStatus) (world later : World σ) (turn : Option Turn)
    (ok : advance tick status world = .ok (some (later,turn))) :
    later.input = world.input ∧ later.wires = world.wires ∧ later.conn = world.conn := by
  rcases advance_cases tick status world later turn ok with ⟨_,idle⟩ | ⟨_,_,_,turned⟩
  · exact ⟨idle.input,idle.wires,idle.conn⟩
  · exact ⟨turned.input,turned.wires,turned.conn⟩

end Turns

end Craftsman.Iteration
