import Craftsman.Echo
import Craftsman.Lockstep
import Craftsman.Rewiring
import Craftsman.Sending

/-! The game on its own: the process and the server thread it started, joined by the
two channels of their socket pair and by nothing else. Both take their steps in
any order; what a player types comes back to the turns through the server. -/
namespace Craftsman.Singleplayer
open Craftsman.Memory Craftsman.Recording Craftsman.CommandLog Craftsman.Network Craftsman.Client
open Craftsman.NetworkServer Craftsman.Frames Craftsman.Demultiplex Craftsman.Echo Craftsman.StandardInput
open Craftsman.Dlfn Craftsman.Execute Craftsman.GameLoop Craftsman.Simulation Craftsman.Iteration Craftsman.Lockstep
open Craftsman.Rewiring Craftsman.Stream.Delimited Craftsman.Stream.Rounds

section Typing
variable {σ : Type}

/-- The lines that the input callback records: all but the meta commands. -/
def typed (events : List Event) : List (List Byte) :=
  (events.filter fun event => firstByte event.2 ≠ 33).map Prod.snd

/-- The lines that standard input delivers in one iteration. -/
def heardIn (tick : Tick) (world : World σ) : List Event :=
  match inputPoll world.stdin world.keyboard tick.poll tick.read with
  | .ok (_,_,_,events) => events
  | .error _ => []

/-- The record of an iteration: what was typed, and fillers up to the target. -/
def gatheredIn (tick : Tick) (world : World σ) (blank : Nat) : List (List Byte) :=
  typed (heardIn tick world) ++ List.replicate blank []

theorem events_recorded (events : List Event) (world later : World σ) (lines : List (List Byte))
    (legal : ∀ event ∈ events, event.1 = event.2.length ∧ 0 ∉ event.2) (recorded : Recorded world.input lines)
    (ok : events.foldlM inputCallback world = .ok later) : Recorded later.input (lines ++ typed events) := by
  induction events generalizing world lines with
  | nil =>
    cases ok
    rwa [typed,List.filter_nil,List.map_nil,List.append_nil]
  | cons event events ih =>
    rw [List.foldlM_cons,bind_ok] at ok
    obtain ⟨middle,first,rest⟩ := ok
    obtain ⟨length,nulFree⟩ := legal event List.mem_cons_self
    have others : ∀ other ∈ events, other.1 = other.2.length ∧ 0 ∉ other.2 :=
      fun other member => legal other (List.mem_cons_of_mem _ member)
    unfold inputCallback at first
    by_cases plain : firstByte event.2 ≠ 33
    · rw [if_pos plain,length] at first
      have one := append_recorded event.2 world middle lines nulFree recorded first
      have all := ih middle (lines ++ [event.2]) others one rest
      have here : typed (event::events) = event.2::typed events := by simp [typed,plain]
      rwa [here,← List.singleton_append,← List.append_assoc]
    · have here : typed (event::events) = typed events := by simp [typed,plain]
      rw [if_neg plain] at first
      rw [here]
      apply ih middle lines others _ rest
      split at first
      · cases first
        exact recorded
      · split at first <;> cases first <;> exact recorded

theorem fill_recorded (target fuel : Nat) (world later : World σ) (lines : List (List Byte))
    (recorded : Recorded world.input lines) (ok : fillInput target fuel world = .ok later) :
    ∃ blank, Recorded later.input (lines ++ List.replicate blank []) := by
  induction fuel generalizing world lines with
  | zero =>
    cases ok
    exact ⟨0,by rwa [List.replicate_zero,List.append_nil]⟩
  | succ fuel ih =>
    unfold fillInput at ok
    split at ok
    · obtain ⟨middle,append,rest⟩ := (bind_ok _ _ _).mp ok
      have one := append_recorded [] world middle lines List.not_mem_nil recorded append
      obtain ⟨blank,all⟩ := ih middle _ one rest
      refine ⟨blank + 1,?_⟩
      rwa [List.replicate_succ,← List.singleton_append,← List.append_assoc]
    · cases ok
      exact ⟨0,by rwa [List.replicate_zero,List.append_nil]⟩

theorem notify_terminal (names : List (List Byte)) (world : World σ) :
    (names.foldl notifyCallback world).stdin = world.stdin ∧
      (names.foldl notifyCallback world).keyboard = world.keyboard := by
  induction names generalizing world with
  | nil => exact ⟨rfl,rfl⟩
  | cons name names ih =>
    have one : (notifyCallback world name).stdin = world.stdin ∧ (notifyCallback world name).keyboard = world.keyboard := by
      unfold notifyCallback
      split <;> exact ⟨rfl,rfl⟩
    rw [List.foldl_cons,(ih _).1,(ih _).2]
    exact one

theorem gather_recorded (tick : Tick) (world later : World σ) (lines : List (List Byte))
    (recorded : Recorded world.input lines) (ok : gather tick world = .ok later) :
    ∃ blank, Recorded later.input (lines ++ gatheredIn tick world blank) := by
  unfold gather at ok
  obtain ⟨middle,polled,fill⟩ := (bind_ok _ _ _).mp ok
  unfold pollInput at polled
  obtain ⟨⟨up,stdin,keyboard,events⟩,poll,fold⟩ := (bind_ok _ _ _).mp polled
  obtain ⟨same_stdin,same_keyboard⟩ := notify_terminal tick.changed world
  have heard : heardIn tick world = events := by
    rw [same_stdin,same_keyboard] at poll
    rw [heardIn,poll]
  have start : Recorded (tick.changed.foldl notifyCallback world).input lines := by rwa [Progress.notify_input]
  have read : Recorded middle.input (lines ++ typed events) := by
    refine events_recorded events _ middle lines (poll_events _ _ _ _ _ _ _ _ poll) ?_ fold
    exact start
  obtain ⟨blank,filled⟩ := fill_recorded _ _ middle later _ read fill
  refine ⟨blank,?_⟩
  rwa [gatheredIn,heard,← List.append_assoc]

theorem drain_short (input : Input) : ∀ event ∈ (drainLines input).1, event.2.length < 4096 := by
  induction input using drainLines.induct with
  | case1 input absent =>
    rw [drain_none _ absent]
    simp
  | case2 input k found _ _ _ ih =>
    intro event member
    rw [drain_line _ _ found,List.mem_cons] at member
    rcases member with rfl | member
    · have inside := strchr_inside _ _ _ found
      rw [input.sized] at inside
      exact (List.length_take_le k input.buf).trans_lt inside
    · exact ih event member

theorem heard_short (tick : Tick) (world : World σ) : ∀ event ∈ heardIn tick world, event.2.length < 4096 := by
  unfold heardIn inputPoll
  intro event member
  split at member
  · next polled =>
    split at polled
    · cases polled
      cases member
    · split at polled
      · split at polled
        · cases polled
          exact drain_short _ event member
        · obtain ⟨received,_,rest⟩ := (bind_ok _ _ _).mp polled
          cases rest
          exact drain_short _ event member
      · cases polled
        cases member
  · cases member

end Typing

section Upstream
variable {σ : Type} (front : List Byte)

/-- A send loop whose writes complete puts whole commands on the wire. -/
theorem sendLoop_upstream (target : Nat) (writes : Nat → Write) (fuel k n : Nat) (conn after : Connection)
    (input sent : RecordRW) (wire left : List Byte) (status : ConnStatus) (lines : List (List Byte))
    (recorded : Recorded input lines) (cursor : Cursor lines n input.read)
    (upstream : front ++ wire = encode 0 (lines.take n))
    (ok : sendLoop target writes fuel k conn input wire = .ok (status,after,sent,left)) (quiet : after.buffering = false) :
    ∃ m, Recorded sent lines ∧ Cursor lines m sent.read ∧ front ++ left = encode 0 (lines.take m) := by
  induction fuel generalizing k n conn input wire with
  | zero =>
    cases ok
    exact ⟨n,recorded,cursor,upstream⟩
  | succ fuel ih =>
    unfold sendLoop at ok
    split at ok
    · obtain ⟨result,send,rest⟩ := (bind_ok _ _ _).mp ok
      cases result with
      | none =>
        cases rest
        exact ⟨n,recorded,cursor,upstream⟩
      | some moved =>
        obtain ⟨next,input',wire'⟩ := moved
        have complete := sendLoop_buffering _ _ _ _ _ _ _ _ _ _ _ rest quiet
        obtain ⟨more,read,rfl,cursor',rfl,_⟩ :=
          send_ok _ _ _ _ _ _ _ _ _ recorded.written recorded.free cursor complete send
        refine ih (k+1) (n+1) next _ _ ⟨recorded.written.read read,recorded.free,recorded.present⟩ cursor' ?_ rest
        rw [encode_take_succ 0 lines n more,← upstream,List.append_assoc]
    · cases ok
      exact ⟨n,recorded,cursor,upstream⟩

theorem sync_upstream (target n : Nat) (conn after : Connection) (wires wires' : Wires) (input sent : RecordRW)
    (recording stored : Recordings) (kernel : Kernel) (status : ConnStatus) (lines : List (List Byte))
    (recorded : Recorded input lines) (cursor : Cursor lines n input.read)
    (upstream : front ++ wires.outgoing = encode 0 (lines.take n))
    (ok : connectionSync target conn wires input recording kernel = .ok (status,after,wires',sent,stored))
    (quiet : after.buffering = false) :
    ∃ m, Recorded sent lines ∧ Cursor lines m sent.read ∧ front ++ wires'.outgoing = encode 0 (lines.take m) := by
  unfold connectionSync at ok
  obtain ⟨⟨up,polled,incoming⟩,_,ok⟩ := (bind_ok _ _ _).mp ok
  dsimp only at ok
  split at ok
  · cases ok
    exact ⟨n,recorded,cursor,upstream⟩
  · obtain ⟨⟨same,processed,stored'⟩,_,ok⟩ := (bind_ok _ _ _).mp ok
    dsimp only at ok
    split at ok
    · cases ok
      exact ⟨n,recorded,cursor,upstream⟩
    · obtain ⟨⟨status',last,sent',outgoing⟩,sending,same⟩ := (bind_ok _ _ _).mp ok
      cases same
      exact sendLoop_upstream front target kernel.writes _ 0 n processed _ input _ _ _ _ lines recorded cursor upstream
        sending quiet

theorem syncStep_upstream (tick : Tick) (world synced : World σ) (status : ConnStatus) (n : Nat)
    (lines : List (List Byte)) (recorded : Recorded world.input lines) (cursor : Cursor lines n world.input.read)
    (upstream : front ++ world.wires.outgoing = encode 0 (lines.take n))
    (ok : syncStep tick world = .ok (status,synced)) (quiet : synced.conn.buffering = false) :
    ∃ blank m, Recorded synced.input (lines ++ gatheredIn tick world blank) ∧
      Cursor (lines ++ gatheredIn tick world blank) m synced.input.read ∧
      front ++ synced.wires.outgoing = encode 0 ((lines ++ gatheredIn tick world blank).take m) := by
  unfold syncStep at ok
  obtain ⟨middle,gathering,ok⟩ := (bind_ok _ _ _).mp ok
  obtain ⟨blank,more⟩ := gather_recorded tick world middle lines recorded gathering
  obtain ⟨gathered,_⟩ := gather_gathered tick world middle lines recorded gathering
  obtain ⟨⟨status',conn,wires,input,gameRecord⟩,sync,same⟩ := (bind_ok _ _ _).mp ok
  cases same
  have later := cursor.append (gatheredIn tick world blank)
  rw [← gathered.read] at later
  rw [← gathered.wires,← List.take_append_of_le_length cursor.inside] at upstream
  obtain ⟨m,after⟩ := sync_upstream front _ n _ conn _ wires _ input _ gameRecord tick.kernel status _ more later
    upstream sync quiet
  exact ⟨blank,m,after⟩

end Upstream

section Playing
variable {σ : Type}

/-- The runs of a process, with all the lines that standard input has delivered to it. -/
inductive Playing (framerate : UInt8) (ep : EndPoint) (incoming keyboard : List Byte) :
    World σ → SessionLog σ → List (SessionLog σ) → List Event → Prop
  | boot (library : Library σ) (calibration : Calibration) (world : World σ)
      (opened : world = startSession framerate calibration library (.boot library ep incoming keyboard)) :
      Playing framerate ep incoming keyboard world (.start world) [] []
  | iterate (world synced later : World σ) (log : SessionLog σ) (past : List (SessionLog σ)) (heard : List Event)
      (tick : Tick) (status : ConnStatus) (turn : Option Turn)
      (playing : Playing framerate ep incoming keyboard world log past heard) (running : world.loop.running = true)
      (sync : syncStep tick world = .ok (status,synced)) (step : advance tick status synced = .ok (some (later,turn))) :
      Playing framerate ep incoming keyboard later (log.after status world synced later turn) past
        (heard ++ heardIn tick world)
  | reload (world opened : World σ) (log : SessionLog σ) (past : List (SessionLog σ)) (heard : List Event)
      (library : Library σ) (calibration : Calibration)
      (playing : Playing framerate ep incoming keyboard world log past heard) (stopped : world.loop.running = false)
      (stays : world.exiting = false)
      (started : opened = startSession framerate calibration library (endSession world)) :
      Playing framerate ep incoming keyboard opened (.start opened) (past ++ [log]) heard

variable {framerate : UInt8} {ep : EndPoint} {incoming keyboard : List Byte} {world : World σ} {log : SessionLog σ}
  {past : List (SessionLog σ)} {heard : List Event}

theorem Playing.process (playing : Playing framerate ep incoming keyboard world log past heard) :
    Process framerate ep incoming keyboard world log past := by
  induction playing with
  | boot library calibration world opened => exact .boot library calibration world opened
  | iterate world synced later log past heard tick status turn playing running sync step ih =>
    exact .iterate world synced later log past tick status turn ih running sync step
  | reload world opened log past heard library calibration playing stopped stays started ih =>
    exact .reload world opened log past library calibration ih stopped stays started

/-- A step of the process is one on the longer wires as well. -/
theorem iterate_rewire {taken more : List Byte} {synced later : World σ} {tick : Tick} {status : ConnStatus}
    {turn : Option Turn} (playing : Playing framerate ep incoming keyboard (rewire taken more world) log past heard)
    (running : world.loop.running = true) (sync : syncStep tick world = .ok (status,synced))
    (step : advance tick status synced = .ok (some (later,turn))) :
    Playing framerate ep incoming keyboard (rewire taken more later) (log.after status world synced later turn) past
      (heard ++ heardIn tick world) := by
  have stepped := advance_rewire taken more tick world.wires status synced
  rw [step] at stepped
  have next := Playing.iterate _ _ _ log past heard _ status turn playing running
    (syncStep_rewire taken more tick world synced status sync) stepped
  rwa [after_rewire] at next

/-- The peer may have more to send than a run has seen of it. -/
theorem playing_extend (more : List Byte) (playing : Playing framerate ep incoming keyboard world log past heard) :
    Playing framerate ep (incoming ++ more) keyboard (rewire [] more world) log past heard := by
  induction playing with
  | boot library calibration world opened =>
    subst opened
    exact .boot library calibration _ rfl
  | iterate world synced later log past heard tick status turn playing running sync step ih =>
    exact iterate_rewire ih running sync step
  | reload world opened log past heard library calibration playing stopped stays started ih =>
    subst started
    exact .reload _ _ log past heard library calibration ih stopped stays rfl

end Playing

/-- The process, whose wires are the two channels, and the server thread with the
writes it still has to make before it reads again. -/
structure LocalGame (σ : Type) where
  world : World σ
  server : Server
  pending : List (List Byte)

section Runs
variable {σ : Type}

/-- The runs of a game in which every write completes and no read of the server
fails: the game, the log of its session and those of the earlier ones, and all the
lines that standard input has delivered. -/
inductive LocalRun (framerate : UInt8) (keyboard : List Byte) :
    LocalGame σ → SessionLog σ → List (SessionLog σ) → List Event → Prop
  | boot (library : Library σ) (calibration : Calibration) (world : World σ)
      (opened : world = startSession framerate calibration library (.boot library endpointFromFd [] keyboard)) :
      LocalRun framerate keyboard ⟨world,.initial,[]⟩ (.start world) [] []
  | iterate (game : LocalGame σ) (synced later : World σ) (log : SessionLog σ) (past : List (SessionLog σ))
      (heard : List Event) (tick : Tick) (status : ConnStatus) (turn : Option Turn)
      (run : LocalRun framerate keyboard game log past heard) (running : game.world.loop.running = true)
      (sync : syncStep tick game.world = .ok (status,synced)) (complete : synced.conn.buffering = false)
      (step : advance tick status synced = .ok (some (later,turn))) :
      LocalRun framerate keyboard {game with world := later} (log.after status game.world synced later turn) past
        (heard ++ heardIn tick game.world)
  | reload (game : LocalGame σ) (opened : World σ) (log : SessionLog σ) (past : List (SessionLog σ))
      (heard : List Event) (library : Library σ) (calibration : Calibration)
      (run : LocalRun framerate keyboard game log past heard) (stopped : game.world.loop.running = false)
      (stays : game.world.exiting = false)
      (started : opened = startSession framerate calibration library (endSession game.world)) :
      LocalRun framerate keyboard {game with world := opened} (.start opened) (past ++ [log]) heard
  | serverRead (game : LocalGame σ) (log : SessionLog σ) (past : List (SessionLog σ)) (heard : List Event)
      (writes : List (List Byte)) (server : Server) (toServer : List Byte) (poll : Poll) (count : Nat)
      (run : LocalRun framerate keyboard game log past heard) (idle : game.pending = [])
      (step : serverRound game.server game.world.wires.outgoing poll (.upto count) = .ok (some (writes,server),toServer)) :
      LocalRun framerate keyboard
        ⟨onWires ⟨game.world.wires.incoming,toServer⟩ game.world,server,writes⟩ log past heard
  | serverWrite (game : LocalGame σ) (log : SessionLog σ) (past : List (SessionLog σ)) (heard : List Event)
      (bytes : List Byte) (more : List (List Byte)) (toClient : List Byte) (write : Write)
      (run : LocalRun framerate keyboard game log past heard) (next : game.pending = bytes::more)
      (step : networkWrite game.world.wires.incoming bytes write = (some bytes.length,toClient)) :
      LocalRun framerate keyboard
        ⟨onWires ⟨toClient,game.world.wires.outgoing⟩ game.world,game.server,more⟩ log past heard

/-- A terminal's read does not fail, and ends at the latest behind the first newline. -/
def Terminal (input : Input) (wire : List Byte) (read : Read) : Prop :=
  ∃ count, read = .upto count ∧ newline ∉ (wire.take (min count (size (bufLen - input.usedBuf)))).dropLast

/-- The runs of a game whose player sits at a terminal: with what each of the earlier
sessions and the last one has read of the keyboard. -/
inductive Played (framerate : UInt8) (keyboard : List Byte) :
    LocalGame σ → SessionLog σ → List (SessionLog σ) → List Event → List (List Byte) → List Byte → Prop
  | boot (library : Library σ) (calibration : Calibration) (world : World σ)
      (opened : world = startSession framerate calibration library (.boot library endpointFromFd [] keyboard)) :
      Played framerate keyboard ⟨world,.initial,[]⟩ (.start world) [] [] [] []
  | iterate (game : LocalGame σ) (synced later : World σ) (log : SessionLog σ) (past : List (SessionLog σ))
      (heard : List Event) (segments : List (List Byte)) (read chunk : List Byte) (tick : Tick) (status : ConnStatus)
      (turn : Option Turn) (run : Played framerate keyboard game log past heard segments read)
      (running : game.world.loop.running = true) (terminal : Terminal game.world.stdin game.world.keyboard tick.read)
      (sync : syncStep tick game.world = .ok (status,synced)) (complete : synced.conn.buffering = false)
      (step : advance tick status synced = .ok (some (later,turn)))
      (taken : game.world.keyboard = chunk ++ later.keyboard) :
      Played framerate keyboard {game with world := later} (log.after status game.world synced later turn) past
        (heard ++ heardIn tick game.world) segments (read ++ chunk)
  | reload (game : LocalGame σ) (opened : World σ) (log : SessionLog σ) (past : List (SessionLog σ))
      (heard : List Event) (segments : List (List Byte)) (read : List Byte) (library : Library σ) (calibration : Calibration)
      (run : Played framerate keyboard game log past heard segments read) (stopped : game.world.loop.running = false)
      (stays : game.world.exiting = false)
      (started : opened = startSession framerate calibration library (endSession game.world)) :
      Played framerate keyboard {game with world := opened} (.start opened) (past ++ [log]) heard (segments ++ [read]) []
  | serverRead (game : LocalGame σ) (log : SessionLog σ) (past : List (SessionLog σ)) (heard : List Event)
      (segments : List (List Byte)) (read : List Byte) (writes : List (List Byte)) (server : Server) (toServer : List Byte)
      (poll : Poll) (count : Nat) (run : Played framerate keyboard game log past heard segments read)
      (idle : game.pending = [])
      (step : serverRound game.server game.world.wires.outgoing poll (.upto count) = .ok (some (writes,server),toServer)) :
      Played framerate keyboard
        ⟨onWires ⟨game.world.wires.incoming,toServer⟩ game.world,server,writes⟩ log past heard segments read
  | serverWrite (game : LocalGame σ) (log : SessionLog σ) (past : List (SessionLog σ)) (heard : List Event)
      (segments : List (List Byte)) (read : List Byte) (bytes : List Byte) (more : List (List Byte)) (toClient : List Byte)
      (write : Write) (run : Played framerate keyboard game log past heard segments read) (next : game.pending = bytes::more)
      (step : networkWrite game.world.wires.incoming bytes write = (some bytes.length,toClient)) :
      Played framerate keyboard
        ⟨onWires ⟨toClient,game.world.wires.outgoing⟩ game.world,game.server,more⟩ log past heard segments read

variable {framerate : UInt8} {keyboard : List Byte} {game : LocalGame σ} {log : SessionLog σ} {past : List (SessionLog σ)}
  {heard : List Event} {segments : List (List Byte)} {read : List Byte} in
theorem played_local (played : Played framerate keyboard game log past heard segments read) :
    LocalRun framerate keyboard game log past heard := by
  induction played with
  | boot library calibration world opened => exact .boot library calibration world opened
  | iterate game synced later log past heard segments read chunk tick status turn run running terminal sync complete step
      taken ih => exact .iterate game synced later log past heard tick status turn ih running sync complete step
  | reload game opened log past heard segments read library calibration run stopped stays started ih =>
    exact .reload game opened log past heard library calibration ih stopped stays started
  | serverRead game log past heard segments read writes server toServer poll count run idle step ih =>
    exact .serverRead game log past heard writes server toServer poll count ih idle step
  | serverWrite game log past heard segments read bytes more toClient write run next step ih =>
    exact .serverWrite game log past heard bytes more toClient write ih next step

/-- What a game has done so far: seen without its server, its process is one whose
peer sends the frames `frames`; their texts and what the server still holds are the
bytes `taken` from the process, which come to `sent` of the recorded lines. -/
structure Served (framerate : UInt8) (keyboard : List Byte) (game : LocalGame σ) (log : SessionLog σ)
    (past : List (SessionLog σ)) (heard : List Event) (taken : List Byte) (frames : List Frame)
    (lines : List (List Byte)) (sent : Nat) : Prop where
  playing : Playing framerate endpointFromFd (wire frames) keyboard (rewire taken game.pending.flatten game.world) log past
    heard
  mine : ∀ frame ∈ frames, frame.player = 0
  inside : game.server.usedReceiveBuffer ≤ 4096
  unclosed : 0 ∉ game.server.received
  echoed : encode 0 (frames.map Frame.text) ++ game.server.received = taken
  recorded : Recorded game.world.input lines
  cursor : Cursor lines sent game.world.input.read
  upstream : taken ++ game.world.wires.outgoing = encode 0 (lines.take sent)
  short : ∀ text ∈ lines, text.length < 4096
  heard : lines.filter (· ≠ []) = (typed heard).filter (· ≠ [])

section Steps
variable {framerate : UInt8} {keyboard : List Byte} {game : LocalGame σ} {log : SessionLog σ}
  {past : List (SessionLog σ)} {heard : List Event} {taken : List Byte} {frames : List Frame}
  {lines : List (List Byte)} {sent : Nat}

theorem Served.process (served : Served framerate keyboard game log past heard taken frames lines sent) :
    Process framerate endpointFromFd (wire frames) keyboard (rewire taken game.pending.flatten game.world) log past :=
  served.playing.process

theorem served_boot (library : Library σ) (calibration : Calibration) :
    Served framerate keyboard
      ⟨startSession framerate calibration library (.boot library endpointFromFd [] keyboard),.initial,[]⟩
      (.start (startSession framerate calibration library (.boot library endpointFromFd [] keyboard))) [] [] [] [] [] 0 where
  playing := .boot library calibration _ rfl
  mine := by simp
  inside := (by decide : 0 ≤ 4096)
  unclosed := List.not_mem_nil
  echoed := rfl
  recorded := ⟨written_empty.alloc rfl,fun _ member => absurd member List.not_mem_nil,by simp [startSession,World.boot]⟩
  cursor := cursor_zero []
  upstream := rfl
  short := by simp
  heard := rfl

theorem typed_append (first second : List Event) : typed (first ++ second) = typed first ++ typed second := by
  simp [typed]

theorem gathered_short (tick : Tick) (world : World σ) (blank : Nat) (lines : List (List Byte))
    (short : ∀ text ∈ lines, text.length < 4096) : ∀ text ∈ lines ++ gatheredIn tick world blank, text.length < 4096 := by
  intro text member
  rcases List.mem_append.mp member with earlier | new
  · exact short text earlier
  · rcases List.mem_append.mp new with line | filler
    · obtain ⟨event,delivered,rfl⟩ := List.mem_map.mp line
      exact heard_short tick world event (List.mem_of_mem_filter delivered)
    · rw [List.eq_of_mem_replicate filler]
      decide

theorem Served.iterate (served : Served framerate keyboard game log past heard taken frames lines sent)
    (synced later : World σ) (tick : Tick) (status : ConnStatus) (turn : Option Turn)
    (running : game.world.loop.running = true) (sync : syncStep tick game.world = .ok (status,synced))
    (complete : synced.conn.buffering = false) (step : advance tick status synced = .ok (some (later,turn))) :
    ∃ blank m, Served framerate keyboard {game with world := later} (log.after status game.world synced later turn) past
      (heard ++ heardIn tick game.world) taken frames (lines ++ gatheredIn tick game.world blank) m := by
  obtain ⟨blank,m,recorded,cursor,upstream⟩ := syncStep_upstream taken tick game.world synced status sent lines
    served.recorded served.cursor served.upstream sync complete
  obtain ⟨input,wires,_⟩ := advance_keeps tick status synced later turn step
  refine ⟨blank,m,iterate_rewire served.playing running sync step,served.mine,served.inside,served.unclosed,
    served.echoed,?_,?_,?_,?_,?_⟩
  · dsimp only
    rwa [input]
  · dsimp only
    rwa [input]
  · dsimp only
    rwa [wires]
  · exact gathered_short tick game.world blank lines served.short
  · have blanks : (List.replicate blank ([] : List Byte)).filter (· ≠ []) = [] := by simp
    rw [gatheredIn,typed_append,List.filter_append,List.filter_append,List.filter_append,served.heard,blanks,List.append_nil]

theorem Served.reload (served : Served framerate keyboard game log past heard taken frames lines sent)
    (library : Library σ) (calibration : Calibration) (stopped : game.world.loop.running = false)
    (stays : game.world.exiting = false) :
    Served framerate keyboard {game with world := startSession framerate calibration library (endSession game.world)}
      (.start (startSession framerate calibration library (endSession game.world))) (past ++ [log]) heard taken frames
      lines sent :=
  {served with playing := .reload _ _ log past heard library calibration served.playing stopped stays rfl}

/-- What the server closes was sent, so it is one of the recorded lines. -/
theorem Served.closes (served : Served framerate keyboard game log past heard taken frames lines sent)
    (got toServer : List Byte) (up : game.world.wires.outgoing = got ++ toServer) :
    ∀ text ∈ (split 0 (game.server.received ++ got)).1, 0 ∉ text ∧ text.length + 9 < 2^31 := by
  have halves := split_wire 0 (game.server.received ++ got)
  obtain ⟨closed,_⟩ := split_free 0 (game.server.received ++ got)
  have upstream : encode 0 (frames.map Frame.text ++ (split 0 (game.server.received ++ got)).1) ++
      ((split 0 (game.server.received ++ got)).2 ++ toServer) = encode 0 (lines.take sent) := by
    rw [← served.upstream,up,← served.echoed,encode_append,List.append_assoc,← List.append_assoc (encode 0 (split 0 _).1),
      halves]
    simp only [List.append_assoc]
  have before := prefix_of_encode 0 _ _ _ ((frames_free frames).append closed) (served.recorded.free.take sent) upstream
  intro text member
  have line := List.mem_of_mem_take (before.subset (List.mem_append_right _ member))
  have short := served.short text line
  exact ⟨served.recorded.free text line,by omega⟩

theorem Served.serverRead (served : Served framerate keyboard game log past heard taken frames lines sent)
    (writes : List (List Byte)) (server : Server) (toServer : List Byte) (poll : Poll) (count : Nat)
    (idle : game.pending = [])
    (step : serverRound game.server game.world.wires.outgoing poll (.upto count) = .ok (some (writes,server),toServer)) :
    ∃ taken frames, Served framerate keyboard ⟨onWires ⟨game.world.wires.incoming,toServer⟩ game.world,server,writes⟩
      log past heard taken frames lines sent := by
  obtain ⟨got,up,rfl,tail,inside⟩ := serverRound_ok _ _ _ _ _ _ _ served.inside served.unclosed step
  have halves := split_wire 0 (game.server.received ++ got)
  obtain ⟨_,unclosed⟩ := split_free 0 (game.server.received ++ got)
  have whole : encode 0 (frames.map Frame.text ++ (split 0 (game.server.received ++ got)).1) ++
      (split 0 (game.server.received ++ got)).2 = taken ++ got := by
    rw [encode_append,List.append_assoc,halves,← List.append_assoc,served.echoed]
  have upstream : taken ++ got ++ toServer = encode 0 (lines.take sent) := by
    rw [List.append_assoc,← up]
    exact served.upstream
  obtain ⟨more,same,players,bytes⟩ := echo_frames _ (served.closes got toServer up)
  refine ⟨taken ++ got,frames ++ more,?_,?_,inside,?_,?_,served.recorded,served.cursor,upstream,served.short,served.heard⟩
  · have longer := playing_extend (wire more) served.playing
    have wires : rewire [] (wire more) (rewire taken game.pending.flatten game.world) =
        rewire (taken ++ got) ((split 0 (game.server.received ++ got)).1.flatMap messageWrites).flatten
          (onWires ⟨game.world.wires.incoming,toServer⟩ game.world) := by
      simp only [rewire,rewired,onWires,idle,List.flatten_nil,List.append_nil,List.nil_append,bytes,up,List.append_assoc]
    rwa [wires,← wire_append] at longer
  · intro frame member
    rcases List.mem_append.mp member with earlier | new
    · exact served.mine frame earlier
    · exact players frame new
  · dsimp only
    rw [tail]
    exact unclosed
  · dsimp only
    rw [List.map_append,same,tail]
    exact whole

theorem Served.serverWrite (served : Served framerate keyboard game log past heard taken frames lines sent)
    (bytes toClient : List Byte) (more : List (List Byte)) (write : Write) (next : game.pending = bytes::more)
    (step : networkWrite game.world.wires.incoming bytes write = (some bytes.length,toClient)) :
    Served framerate keyboard ⟨onWires ⟨toClient,game.world.wires.outgoing⟩ game.world,game.server,more⟩ log past heard
      taken frames lines sent := by
  have playing := served.playing
  have wires : rewire taken game.pending.flatten game.world =
      rewire taken more.flatten (onWires ⟨toClient,game.world.wires.outgoing⟩ game.world) := by
    simp only [rewire,rewired,onWires,next,List.flatten_cons,networkWrite_complete _ _ _ _ step,List.append_assoc]
  rw [wires] at playing
  exact {served with playing := playing}

end Steps

/-- Every state of a game is served. -/
theorem run_served (framerate : UInt8) (keyboard : List Byte) (game : LocalGame σ) (log : SessionLog σ)
    (past : List (SessionLog σ)) (heard : List Event) (run : LocalRun framerate keyboard game log past heard) :
    ∃ taken frames lines sent, Served framerate keyboard game log past heard taken frames lines sent := by
  induction run with
  | boot library calibration world opened =>
    subst opened
    exact ⟨[],[],[],0,served_boot library calibration⟩
  | iterate game synced later log past heard tick status turn run running sync complete step ih =>
    obtain ⟨taken,frames,lines,sent,served⟩ := ih
    obtain ⟨blank,m,served⟩ := served.iterate synced later tick status turn running sync complete step
    exact ⟨taken,frames,_,m,served⟩
  | reload game opened log past heard library calibration run stopped stays started ih =>
    obtain ⟨taken,frames,lines,sent,served⟩ := ih
    subst started
    exact ⟨taken,frames,lines,sent,served.reload library calibration stopped stays⟩
  | serverRead game log past heard writes server toServer poll count run idle step ih =>
    obtain ⟨taken,frames,lines,sent,served⟩ := ih
    obtain ⟨taken,frames,served⟩ := served.serverRead writes server toServer poll count idle step
    exact ⟨taken,frames,lines,sent,served⟩
  | serverWrite game log past heard bytes more toClient write run next step ih =>
    obtain ⟨taken,frames,lines,sent,served⟩ := ih
    exact ⟨taken,frames,lines,sent,served.serverWrite bytes toClient more write next step⟩

/-! A game whose writes all complete gets its player into a session: its first
command, a filler, goes through the server and back. -/
section Joining

theorem io_quiet (conn after : Connection) (wire left : List Byte) (poll : Poll) (read : Read) (up : Bool)
    (ok : connectionIo conn wire poll read = .ok (up,after,left)) : after.buffering = conn.buffering := by
  unfold connectionIo at ok
  split at ok
  · cases ok
    rfl
  · dsimp only at ok
    split at ok
    · cases ok
      rfl
    · split at ok
      · split at ok
        · cases ok
          rfl
        · obtain ⟨received,deliver,ok⟩ := (bind_ok _ _ _).mp ok
          have same : received = after := by split at ok <;> cases ok <;> rfl
          subst same
          unfold Connection.deliver at deliver
          split at deliver
          · cases deliver
            rfl
          · cases deliver
      · cases ok
        rfl

theorem processing_quiet (conn after : Connection) (recording stored : Recordings) (result : Bool)
    (ok : connectionProcessing conn recording = .ok (result,after,stored)) : after.buffering = conn.buffering := by
  induction conn, recording using connectionProcessing.induct with
  | case1 conn recording stop round =>
    rw [processing_stops _ _ _ round] at ok
    cases ok
  | case2 conn recording ended last kept round =>
    rw [processing_done _ _ _ _ _ round] at ok
    cases ok
    rcases round_ok _ _ _ round with ⟨_,same⟩ | ⟨_,_,_,_,⟨_,same⟩ | ⟨_,_,_,_,_,same⟩⟩
    · cases same
      rfl
    · cases same
      rfl
    · cases same
  | case3 conn recording next moved round ih =>
    rw [processing_next _ _ _ _ round] at ok
    rw [ih ok]
    rcases round_ok _ _ _ round with ⟨_,same⟩ | ⟨_,_,_,_,⟨_,same⟩ | ⟨_,_,_,_,store,same⟩⟩
    · cases same
    · cases same
    · cases same
      obtain ⟨⟨closed,write⟩,_,store⟩ := (bind_ok _ _ _).mp store
      obtain ⟨consumed,consume,store⟩ := (bind_ok _ _ _).mp store
      cases store
      unfold Connection.consume at consume
      split at consume
      · obtain rfl := Except.ok.inj consume
        dsimp only
      · cases consume

theorem sendLoop_quiet (target fuel k n : Nat) (conn after : Connection) (input sent : RecordRW) (wire left : List Byte)
    (status : ConnStatus) (lines : List (List Byte)) (short : ∀ text ∈ lines, text.length < 4096)
    (recorded : Recorded input lines) (cursor : Cursor lines n input.read)
    (ok : sendLoop target Progress.fullWrites fuel k conn input wire = .ok (status,after,sent,left)) :
    after.buffering = conn.buffering := by
  induction fuel generalizing k n conn input wire with
  | zero =>
    cases ok
    rfl
  | succ fuel ih =>
    unfold sendLoop at ok
    split at ok
    · obtain ⟨record,present⟩ := Option.ne_none_iff_exists'.mp recorded.present
      rcases send_reads conn input wire (Progress.fullWrites k) record lines n present
        (recorded.written.holds record present) recorded.free cursor with ⟨more,next,moved,send⟩ | ⟨_,send⟩
      · rw [send,ok_bind] at ok
        have fits := short lines[n] (List.getElem_mem more)
        have whole : (lines[n] ++ [0]).take (2^31) = lines[n] ++ [0] := List.take_of_length_le (by simp; omega)
        have answered : (networkWrite wire (lines[n] ++ [0]) (Progress.fullWrites k)).1 = some (lines[n] ++ [0]).length := by
          change some ((lines[n] ++ [0]).take (2^31)).length = _
          rw [whole]
        rw [ih (k+1) (n+1) _ _ _ ⟨recorded.written.read next,recorded.free,recorded.present⟩ moved ok]
        dsimp only
        rw [answered,bne_self_eq_false,Bool.or_false]
      · rw [send,ok_bind] at ok
        cases ok
        rfl
    · cases ok
      rfl

theorem sendLoop_status (target : Nat) (writes : Nat → Write) (fuel k : Nat) (conn after : Connection)
    (input sent : RecordRW) (wire left : List Byte) (status : ConnStatus)
    (ok : sendLoop target writes fuel k conn input wire = .ok (status,after,sent,left)) : status ≠ .change := by
  induction fuel generalizing k conn input wire with
  | zero =>
    cases ok
    decide
  | succ fuel ih =>
    unfold sendLoop at ok
    split at ok
    · obtain ⟨result,_,rest⟩ := (bind_ok _ _ _).mp ok
      cases result with
      | none =>
        cases rest
        decide
      | some moved => exact ih _ _ _ _ rest
    · cases ok
      decide

/-- What becomes of the mark of an unfinished write: nothing but the send loop can set it. -/
theorem syncStep_sending (tick : Tick) (world synced : World σ) (status : ConnStatus) (lines : List (List Byte))
    (recorded : Recorded world.input lines) (ok : syncStep tick world = .ok (status,synced)) :
    synced.conn.buffering = world.conn.buffering ∨
      ∃ (middle : World σ) (blank : Nat) (processed : Connection),
        Recorded middle.input (lines ++ gatheredIn tick world blank) ∧ middle.input.read = world.input.read ∧
        processed.buffering = world.conn.buffering ∧
        sendLoop (loopWriteFrame middle.loop) tick.kernel.writes
          (loopWriteFrame middle.loop - middle.input.read.commandCount) 0 processed middle.input middle.wires.outgoing =
            .ok (status,synced.conn,synced.input,synced.wires.outgoing) := by
  unfold syncStep at ok
  obtain ⟨middle,gathering,ok⟩ := (bind_ok _ _ _).mp ok
  obtain ⟨blank,more⟩ := gather_recorded tick world middle lines recorded gathering
  obtain ⟨gathered,_⟩ := gather_gathered tick world middle lines recorded gathering
  obtain ⟨⟨status',conn,wires,input,gameRecord⟩,sync,same⟩ := (bind_ok _ _ _).mp ok
  cases same
  rw [← gathered.conn]
  unfold connectionSync at sync
  obtain ⟨⟨up,polled,incoming⟩,io,sync⟩ := (bind_ok _ _ _).mp sync
  have one := io_quiet _ _ _ _ _ _ _ io
  dsimp only at sync
  split at sync
  · cases sync
    exact .inl one
  · obtain ⟨⟨same,processed,stored'⟩,processing,sync⟩ := (bind_ok _ _ _).mp sync
    have two := processing_quiet _ _ _ _ _ processing
    dsimp only at sync
    split at sync
    · cases sync
      exact .inl (two.trans one)
    · obtain ⟨⟨status',last,sent',outgoing⟩,sending,same⟩ := (bind_ok _ _ _).mp sync
      cases same
      exact .inr ⟨middle,blank,processed,more,gathered.read,two.trans one,sending⟩

theorem syncStep_quiet (tick : Tick) (world synced : World σ) (status : ConnStatus) (n : Nat) (lines : List (List Byte))
    (full : status = .change ∨ tick.kernel.writes = Progress.fullWrites) (short : ∀ text ∈ lines, text.length < 4096)
    (recorded : Recorded world.input lines) (cursor : Cursor lines n world.input.read)
    (ok : syncStep tick world = .ok (status,synced)) : synced.conn.buffering = world.conn.buffering := by
  rcases syncStep_sending tick world synced status lines recorded ok with
    same | ⟨middle,blank,processed,more,read,before,sending⟩
  · exact same
  rcases full with change | full
  · exact absurd change (sendLoop_status _ _ _ _ _ _ _ _ _ _ _ sending)
  have later := cursor.append (gatheredIn tick world blank)
  rw [← read] at later
  rw [full] at sending
  exact (sendLoop_quiet _ _ 0 n processed _ _ _ _ _ _ _ (gathered_short tick world blank lines short) more later sending).trans
    before

/-- Once a write has not completed the connection stays marked, so an unmarked one never failed. -/
theorem syncStep_whole (tick : Tick) (world synced : World σ) (status : ConnStatus) (lines : List (List Byte))
    (recorded : Recorded world.input lines) (ok : syncStep tick world = .ok (status,synced))
    (whole : synced.conn.buffering = false) : world.conn.buffering = false := by
  rcases syncStep_sending tick world synced status lines recorded ok with same | ⟨_,_,processed,_,_,before,sending⟩
  · exact same.symm.trans whole
  · exact before.symm.trans (sendLoop_buffering _ _ _ _ _ _ _ _ _ _ _ sending whole)

theorem turn_alone (tick : Tick) (world : World σ) (nobody : world.playerCount = 0) (queue : world.loop.inputQueueMax ≠ 0)
    (paused : world.game.simulationGoal ≤ world.loop.frame) :
    ∃ readings clock sleep, advance {tick with readings := readings} .ok world = .ok (some
      ({world with loop := {world.loop with
          pauseFrame := u32 (world.loop.pauseFrame + 1), tscClock := clock, sleepUsec := sleep}},
        some ⟨world.loop.frame,world.loop.pauseFrame,[],false⟩)) := by
  obtain ⟨readings,later,waited⟩ := Progress.waitClock_passes {world.loop with pauseFrame := u32 (world.loop.pauseFrame + 1)}
  obtain ⟨clock,sleep,rfl⟩ := waitClock_same _ _ _ waited
  have none : players world.playerCount = [] := by rw [nobody]; rfl
  have nearest : (commandPreview world.loop.inputQueueMax world.playerCount world.gameRecord).turnNearest ≠ 0 := by
    rw [commandPreview,none]
    exact queue
  have taken : takeTurn {tick with readings := readings} world = .ok (world,[]) := by
    rw [takeTurn,none]
    rfl
  refine ⟨readings,clock,sleep,?_⟩
  unfold advance
  dsimp only
  rw [if_neg nearest,taken,ok_bind,finishTurn,if_pos paused,loopPause,waited]
  rfl

theorem heard_quiet (changed : List (List Byte)) (readings : List UInt64) (world : World σ) :
    heardIn (Progress.quietTick changed readings) world = [] := rfl

theorem terminal_unread (input : Input) (wire : List Byte) : Terminal input wire (.upto 0) :=
  ⟨0,rfl,by rw [Nat.zero_min]; exact List.not_mem_nil⟩

/-- The first iteration of a game, alone: it sends one filler and leaves the keyboard unread. -/
theorem blank_sent (library : Library σ) (calibration : Calibration) (keyboard : List Byte) :
    ∃ (later : World σ) (log : SessionLog σ) (k : Nat), Played 1 keyboard ⟨later,.initial,[]⟩ log [] [] [] [] ∧
      later.keyboard = keyboard ∧ later.game.engine.globals = [] ∧ (later.game.engine.saveResultHandle = fun _ => 0) ∧
      later.wires = ⟨[],[0]⟩ ∧ later.loop.running = true ∧ later.exiting = false ∧ later.conn.clientEp = endpointFromFd ∧
      Demux later.conn later.gameRecord [] [] [] ∧ known later.gameRecord = (fun _ => false) ∧
      loopWriteFrame later.loop = 2 ∧ Recorded later.input (List.replicate k []) ∧ k ≤ 1 ∧
      Cursor (List.replicate k []) 1 later.input.read ∧ later.conn.buffering = false := by
  let opened := startSession 1 calibration library (World.boot library endpointFromFd [] keyboard)
  have recorded : Recorded opened.input [] :=
    ⟨written_empty.alloc rfl,fun _ member => absurd member List.not_mem_nil,by simp [opened,startSession,World.boot]⟩
  have demux : Demux opened.conn opened.gameRecord [] [] [] :=
    ⟨Int.le_refl _,(by decide : (0 : Int) ≤ 4096),rfl,fun _ => written_empty,fun _ => rfl,fun _ => rfl⟩
  have target : loopWriteFrame opened.loop = 1 := rfl
  obtain ⟨conn,outgoing,input,gameRecord,k,m,sync,received,same,_,up,more,few,cursor⟩ :=
    Progress.syncStep_takes [] [] opened [] [] [] [] 0 recorded (cursor_zero []) demux rfl rfl rfl (by simp)
      (by rw [target]; decide) (fun i => by rw [List.append_nil,texts]; exact Nat.zero_le _)
  obtain ⟨readings,clock,sleep,step⟩ := turn_alone (Progress.quietTick [] [])
    {opened with conn := conn, wires := ⟨[],outgoing⟩, input := input, gameRecord := gameRecord} rfl
    (show (1 : Nat) ≠ 0 from Nat.one_ne_zero) (Nat.le_refl 0)
  have quiet := syncStep_quiet (Progress.quietTick [] []) opened _ .ok 0 [] (.inr rfl) (by simp) recorded (cursor_zero []) sync
  obtain ⟨blank,m',served⟩ := (served_boot library calibration).iterate _ _ (Progress.quietTick [] readings) .ok _ rfl sync
    quiet step
  obtain ⟨_,_,_,n,_,reached⟩ := syncStep_ok _ .ok opened _ [] [] [] 0 recorded (cursor_zero []) demux sync
  have all : input.read.commandCount = 1 := reached.cursor.commands.trans (reached.sent rfl)
  have one : m = 1 := cursor.commands.symm.trans all
  have one' : m' = 1 := served.cursor.commands.symm.trans all
  subst one one'
  have wire : outgoing = [0] := by
    have upstream := served.upstream
    have inside := served.cursor.inside
    rw [gatheredIn,heard_quiet] at upstream inside
    dsimp only at upstream
    cases blank with
    | zero => simp [typed] at inside
    | succ blank => simpa [typed,List.replicate_succ] using upstream
  subst wire
  have run := Played.iterate _ _ _ _ _ _ _ _ [] (Progress.quietTick [] readings) .ok _
    (.boot library calibration opened rfl) rfl (terminal_unread _ _) sync quiet step rfl
  exact ⟨_,_,k,run,rfl,rfl,rfl,rfl,rfl,rfl,up,received,same,rfl,more,few,cursor,quiet⟩

/-- The server makes all the writes it owes. -/
theorem writes_run (framerate : UInt8) (keyboard : List Byte) (world : World σ) (server : Server)
    (pending : List (List Byte)) (log : SessionLog σ) (past : List (SessionLog σ)) (heard : List Event)
    (segments : List (List Byte)) (read : List Byte)
    (run : Played framerate keyboard ⟨world,server,pending⟩ log past heard segments read) :
    Played framerate keyboard
      ⟨onWires ⟨world.wires.incoming ++ pending.flatten,world.wires.outgoing⟩ world,server,[]⟩ log past heard segments
      read := by
  induction pending generalizing world with
  | nil =>
    rw [List.flatten_nil,List.append_nil]
    exact run
  | cons bytes more ih =>
    have one := Played.serverWrite _ _ _ _ _ _ _ _ _ _ run rfl (networkWrite_full world.wires.incoming bytes)
    have all := ih _ one
    rw [List.flatten_cons,← List.append_assoc]
    exact all

/-- The server echoes the filler, and the process opens a record for its player. -/
theorem player_joins (library : Library σ) (calibration : Calibration) (keyboard : List Byte) :
    ∃ (world : World σ) (server : Server) (past : List (SessionLog σ)) (heard : List Event) (k sent : Nat),
      Played 1 keyboard ⟨world,server,[]⟩ (.start world) past heard [[]] [] ∧ world.keyboard = keyboard ∧ k ≤ 3 ∧
      world.game.engine.globals = [] ∧ (world.game.engine.saveResultHandle = fun _ => 0) ∧ Progress.Joined emptyFrame world (List.replicate k []) [] [emptyFrame] sent ∧ world.conn.buffering = false ∧
      world.library = library := by
  obtain ⟨world,log,k,run,unread,globals,handles,wires,running,stays,up,demux,nobody,target,recorded,few,cursor,quiet⟩ :=
    blank_sent library calibration keyboard
  obtain ⟨writes,server,read⟩ := serverRound_reads .initial [0] 1 (by decide : 0 + 1 ≤ 4096) (Nat.le_refl 1) rfl
  have echo : writes = messageWrites [] := by
    obtain ⟨got,same,rfl,_,_⟩ := serverRound_ok _ _ _ _ _ _ _ (by decide : 0 ≤ 4096) List.not_mem_nil read
    rw [List.drop_one,List.tail_cons,List.append_nil] at same
    rw [← same]
    rfl
  subst echo
  have received := Played.serverRead _ _ _ _ _ _ _ server _ _ 1 run rfl (by rw [wires]; exact read)
  have idle : onWires ⟨world.wires.incoming,[0].drop 1⟩ world = onWires ⟨[],[]⟩ world := by rw [wires]; rfl
  dsimp only at received
  rw [idle] at received
  have echoed : Played 1 keyboard ⟨onWires ⟨wire [emptyFrame],[]⟩ world,server,[]⟩ log [] [] [] [] :=
    writes_run _ _ _ _ _ _ _ _ _ _ received
  -- the frame finds no record: the process opens one and reloads
  have extended : Demux world.conn world.gameRecord (wire [emptyFrame]) [] [emptyFrame] :=
    demux_extend _ _ [] _ _ [emptyFrame] demux
  have empty : world.conn.usedReceiveBuffer = 0 := by
    have low := demux.low
    have length := received_length _ demux.high
    rw [(List.append_eq_nil_iff.mp demux.unread).1,List.length_nil] at length
    omega
  have absent : (world.gameRecord 0).record = none := by simpa [known] using congrFun nobody 0
  have room : (encode 0 (List.replicate k ([] : List Byte))).length + loopWriteFrame world.loop ≤ 2^31 := by
    rw [target,encode_empty]
    omega
  have short : ∀ text ∈ List.replicate k ([] : List Byte), text.length < 4096 := by
    intro text member
    rw [List.eq_of_mem_replicate member]
    decide
  obtain ⟨conn,input,m,sync,demuxed,opened,more,few',_,moved⟩ :=
    Progress.sync_opens (onWires ⟨wire [emptyFrame],[]⟩ world) (List.replicate k []) [] [] emptyFrame 1 recorded cursor
      extended rfl empty (by decide) up absent room
  have before := syncStep_quiet _ (onWires ⟨wire [emptyFrame],[]⟩ world) _ .change 1 (List.replicate k []) (.inl rfl) short
    recorded cursor sync
  have ended := Played.iterate _ _ _ _ _ _ _ _ [] _ .change none echoed running (terminal_unread _ _) sync
    (before.trans quiet) rfl rfl
  have reloaded := Played.reload _ _ _ _ _ _ _ library calibration ended rfl stays rfl
  have present : known (Function.update world.gameRecord 0 {world.gameRecord 0 with record := some recordAlloc}) =
      Function.update (fun _ => false) emptyFrame.player true := by
    rw [known_update,nobody]
    rfl
  have few'' : m ≤ 2 := target ▸ few'
  rw [List.replicate_append_replicate] at more moved
  refine ⟨_,_,_,_,k + m,1,reloaded,unread,by omega,globals,handles,Progress.Connected.start ?_ calibration library,
    before.trans quiet,rfl⟩
  exact ⟨demuxed,rfl,rfl,opened,present,more,moved,stays⟩

/-- A joined player's filler is executed. -/
theorem blank_executed (library : Library σ) (calibration : Calibration) (keyboard : List Byte) :
    ∃ (world : World σ) (server : Server) (log : SessionLog σ) (past : List (SessionLog σ)) (heard : List Event)
      (k sent : Nat), Played 1 keyboard ⟨world,server,[]⟩ log past heard [[]] [] ∧ world.keyboard = keyboard ∧ k ≤ 4 ∧
      Progress.Connected emptyFrame world (List.replicate k []) [emptyFrame] [] sent ∧ world.conn.buffering = false ∧
      world.loop.running = true ∧ world.playerCount = 1 ∧ loopWriteFrame world.loop = 2 ∧ log.playerCount = 1 ∧
      log.turns = [⟨0,0,[[]],false⟩] ∧ log.library = library ∧ log.calm = 1 ∧
      (log.states[0]?.map fun start => (start.game.engine.globals,start.game.engine.saveResultHandle)) =
        some ([],fun _ => 0) := by
  obtain ⟨world,server,past,heard,k,sent,run,unread,few,globals,handles,joined,quiet,named⟩ :=
    player_joins library calibration keyboard
  have short : ∀ text ∈ List.replicate k ([] : List Byte), text.length < 4096 := by
    intro text member
    rw [List.eq_of_mem_replicate member]
    decide
  obtain ⟨conn,outgoing,input,gameRecord,m,n,sync,demux,same,rewound,up,recorded,one,cursor⟩ :=
    Progress.joined_sync [] emptyFrame world _ [] [emptyFrame] sent joined (by rw [encode_empty]; omega) (by decide)
  have before := syncStep_quiet _ _ _ .ok sent _ (.inr rfl) short joined.recorded joined.cursor sync
  have stored : texts 0 [emptyFrame] = [[]] := rfl
  have written := demux.written 0
  rw [stored] at written
  have here : known gameRecord 0 = true := by
    rw [same,joined.present]
    exact Function.update_self _ _ _
  have queue : world.loop.inputQueueMax ≠ 0 := by
    rw [joined.queueMax]
    decide
  obtain ⟨readings,read,clock,sleep,step⟩ := Progress.turn_possible (Progress.quietTick [] [])
    {world with conn := conn, wires := ⟨[],outgoing⟩, input := input, gameRecord := gameRecord} world.game [[]] 0
    joined.alone here written (by simp [Free]) (by rw [rewound 0]; exact cursor_zero _) Nat.one_pos (by decide) queue rfl
    (by rw [joined.goal]; exact Nat.zero_le _)
  have executed := Played.iterate _ _ _ _ _ _ _ _ [] (Progress.quietTick [] readings) .ok _ run joined.running
    (terminal_unread _ _) sync (before.trans quiet) step rfl
  have advanced := read_written gameRecord (fun i => texts i [emptyFrame]) 0 read demux.written
  rw [List.replicate_append_replicate] at recorded cursor
  refine ⟨_,_,_,_,_,k + m,n,executed,unread,by omega,?_,before.trans quiet,joined.running,joined.alone,?_,joined.alone,?_,named,
    ?_,?_⟩
  · refine ⟨{demux with written := advanced},List.append_nil _,rfl,up,?_,recorded,cursor,joined.stays⟩
    rw [known_update,← joined.present,← same]
    exact Function.update_eq_self_iff.mpr rfl
  · change u32 (world.loop.frame + u32 (world.loop.pauseFrame + 1) + world.loop.inputQueue) = 2
    rw [joined.at_frame,joined.at_pause,joined.queue]
    rfl
  · change [Turn.mk world.loop.frame world.loop.pauseFrame [[]] false] = _
    rw [joined.at_frame,joined.at_pause]
  · unfold SessionLog.after
    dsimp only
    rw [if_pos (.inl rfl)]
    rfl
  · change some (world.game.engine.globals,world.game.engine.saveResultHandle) = _
    rw [globals,handles]

/-- Nothing arrives for the next turn, which stalls. -/
theorem blank_stalls (library : Library σ) (calibration : Calibration) :
    ∃ (game : LocalGame σ) (log : SessionLog σ) (past : List (SessionLog σ)) (heard : List Event) (tick : Tick)
      (synced later : World σ), LocalRun 1 [] game log past heard ∧ game.world.loop.running = true ∧
      syncStep tick game.world = .ok (.ok,synced) ∧ synced.conn.buffering = false ∧
      advance tick .ok synced = .ok (some (later,none)) ∧ log.playerCount ≠ 0 ∧ log.turns = [⟨0,0,[[]],false⟩] ∧
      ∀ text ∈ typed (heard ++ heardIn tick game.world), text.length ≤ 4087 := by
  obtain ⟨world,server,log,past,heard,k,sent,played,_,few,connected,quiet,running,alone,target,joined,turns,_⟩ :=
    blank_executed library calibration []
  have run := played_local played
  have mine : ∀ frame ∈ ([] : List Frame), known world.gameRecord frame.player = true := by simp
  have space (i : Fin 4) : (encode 0 (texts i ([emptyFrame] ++ []))).length ≤ 2^31 := by
    revert i
    decide
  obtain ⟨conn,outgoing,input,gameRecord,m,n,sync,demux,same,reads,up,recorded,_,cursor⟩ :=
    Progress.syncStep_possible [] [] world _ [emptyFrame] [] sent connected.recorded connected.cursor connected.demux
      connected.arrived connected.up mine (by rw [target,encode_empty]; omega) space
  have short : ∀ text ∈ List.replicate k ([] : List Byte), text.length < 4096 := by
    intro text member
    rw [List.eq_of_mem_replicate member]
    decide
  have before := syncStep_quiet _ _ _ .ok sent _ (.inr rfl) short connected.recorded connected.cursor sync
  -- the command that is stored was read by the turn before
  obtain ⟨taken,frames,lines,sent',served⟩ := run_served 1 [] _ log past heard run
  obtain ⟨_,done,rest,_,_,head⟩ := process_head 1 endpointFromFd frames [] _ log past served.process
  have read : (gameRecord 0).read.commandCount = 1 := by
    have count := (head.accounted.reads 0).commands
    rw [if_pos (by exact alone ▸ Nat.one_pos),← head.accounted.total,turns] at count
    rw [reads 0]
    exact count
  have written : (gameRecord 0).write.commandCount = 1 := (demux.written 0).cursor.commands
  have behind : (commandPreview world.loop.inputQueueMax world.playerCount gameRecord).turnNearest = 0 := by
    have one : players world.playerCount = [0] := by rw [alone]; rfl
    rw [commandPreview,one]
    change min (u32 ((gameRecord 0).write.commandCount + 2^32 - (gameRecord 0).read.commandCount)) _ = 0
    rw [read,written]
    exact Nat.zero_min _
  obtain ⟨readings,after,waited⟩ :=
    Progress.waitClock_passes {world.loop with
      inputQueue := min (u32 (world.loop.inputQueue + 1)) world.loop.inputQueueMax
      stallFrame := u32 (world.loop.stallFrame + 1)}
  have step : advance (Progress.quietTick [] readings) .ok
      {world with conn := conn, wires := ⟨[],outgoing⟩, input := input, gameRecord := gameRecord} =
        .ok (some ({world with
          conn := conn, wires := ⟨[],outgoing⟩, input := input, gameRecord := gameRecord, loop := after},none)) := by
    unfold advance
    dsimp only
    rw [if_pos behind,stall,loopStall]
    dsimp only [Progress.quietTick]
    rw [waited]
    rfl
  refine ⟨⟨world,server,[]⟩,log,past,heard,Progress.quietTick [] readings,_,_,run,running,sync,before.trans quiet,step,
    by rw [joined]; exact Nat.one_ne_zero,turns,?_⟩
  have same_lines := (commands_written _ _ served.recorded.written served.recorded.free).symm.trans
    (commands_written _ _ connected.recorded.written connected.recorded.free)
  obtain rfl : lines = List.replicate k [] := Except.ok.inj same_lines
  intro text member
  rw [heard_quiet,List.append_nil] at member
  rcases eq_or_ne text [] with rfl | some
  · exact Nat.zero_le _
  · have line : text ∈ (typed heard).filter (· ≠ []) := List.mem_filter.mpr ⟨member,by simpa using some⟩
    rw [← served.heard] at line
    exact absurd (List.eq_of_mem_replicate (List.mem_of_mem_filter line)) some

end Joining

section Order
variable {framerate : UInt8} {keyboard : List Byte} {game : LocalGame σ} {log : SessionLog σ}
  {past : List (SessionLog σ)} {heard : List Event} {taken : List Byte} {frames : List Frame}
  {lines : List (List Byte)} {sent : Nat}

theorem Served.echoes (served : Served framerate keyboard game log past heard taken frames lines sent) :
    frames.map Frame.text <+: lines.take sent := by
  apply prefix_of_encode 0 _ _ (game.server.received ++ game.world.wires.outgoing) (frames_free frames)
    (served.recorded.free.take sent)
  rw [← List.append_assoc,served.echoed]
  exact served.upstream

/-- With the frames of one player only, the turns of a session take them one by one. -/
theorem logged_commands (log : SessionLog σ) (done : List Frame) (logged : Logged log done)
    (mine : ∀ frame ∈ done, frame.player = 0) (some_turn : log.turns ≠ []) :
    log.playerCount ≤ 1 ∧ (∀ turn ∈ log.turns, turn.commands.length = log.playerCount) ∧
      log.turns.flatMap Turn.commands <+: done.map Frame.text := by
  have long : 0 < log.turns.length := List.length_pos_iff.mpr some_turn
  have few : log.playerCount ≤ 1 := by
    by_contra more
    have second : log.turns.length ≤ (texts 1 done).length := logged.covers 1 ((players_mem _ 1).mpr (by omega))
    rw [texts_none 1 done (by decide) mine] at second
    exact absurd long (Nat.not_lt.mpr second)
  have alone : texts 0 done = done.map Frame.text := texts_all done mine
  refine ⟨few,?_⟩
  rcases Nat.le_one_iff_eq_zero_or_eq_one.mp few with nobody | one
  · have empty (turn : Turn) (member : turn ∈ log.turns) : turn.commands = [] := by
      obtain ⟨j,found⟩ := List.mem_iff_getElem?.mp member
      rw [logged.rows j turn found,nobody]
      rfl
    refine ⟨fun turn member => by rw [empty turn member,nobody]; rfl,?_⟩
    rw [List.flatMap_eq_nil_iff.mpr empty]
    exact List.nil_prefix
  · have covers : log.turns.length ≤ (done.map Frame.text).length := by
      rw [← alone]
      exact logged.covers 0 ((players_mem _ 0).mpr (by rw [one]; decide))
    have single (j : Nat) (turn : Turn) (found : log.turns[j]? = some turn) :
        ∃ text, (done.map Frame.text)[j]? = some text ∧ turn.commands = [text] := by
      obtain ⟨inside,_⟩ := List.getElem?_eq_some_iff.mp found
      have here := List.getElem?_eq_getElem (inside.trans_le covers)
      have players : players log.playerCount = [0] := by rw [one]; rfl
      refine ⟨_,here,?_⟩
      rw [logged.rows j turn found,players,row,List.filterMap_cons,alone,here]
      rfl
    refine ⟨?_,singles_front log.turns Turn.commands _ single⟩
    intro turn member
    obtain ⟨j,found⟩ := List.mem_iff_getElem?.mp member
    obtain ⟨text,_,commands⟩ := single j turn found
    rw [commands,one]
    rfl

/-- The frames that are stored, and the lines whose bytes they brought back. -/
theorem run_logged (framerate : UInt8) (keyboard : List Byte) (game : LocalGame σ) (log : SessionLog σ)
    (past : List (SessionLog σ)) (heard : List Event) (run : LocalRun framerate keyboard game log past heard) :
    ∃ lines done, Recorded game.world.input lines ∧ lines.filter (· ≠ []) = (typed heard).filter (· ≠ []) ∧
      done.map Frame.text <+: lines ∧ (∀ frame ∈ done, frame.player = 0) ∧
      ∀ session ∈ past ++ [log], Logged session done := by
  obtain ⟨taken,frames,lines,sent,served⟩ := run_served framerate keyboard game log past heard run
  obtain ⟨_,done,rest,_,_,head⟩ := process_head framerate endpointFromFd frames keyboard _ log past served.process
  refine ⟨lines,done,served.recorded,served.heard,?_,?_,?_⟩
  · apply ((List.prefix_append _ (rest.map Frame.text)).trans _).trans (List.take_prefix sent lines)
    rw [← List.map_append,← head.split]
    exact served.echoes
  · intro frame member
    exact served.mine frame (by rw [head.split]; exact List.mem_append_left _ member)
  · intro session member
    rcases List.mem_append.mp member with earlier | last
    · exact head.past session earlier
    · rw [List.mem_singleton.mp last]
      exact head.logged

/-- The turns of every session execute the lines that were recorded, one by one and
in order, and these are the lines typed with fillers between them: on its way
through the server nothing is lost, doubled or put in another place. -/
theorem executed_in_order (framerate : UInt8) (keyboard : List Byte) (game : LocalGame σ) (log : SessionLog σ)
    (past : List (SessionLog σ)) (heard : List Event) (run : LocalRun framerate keyboard game log past heard) :
    ∃ lines, commands game.world.input = .ok lines ∧ lines.filter (· ≠ []) = (typed heard).filter (· ≠ []) ∧
      ∀ session ∈ past ++ [log], session.turns.flatMap Turn.commands <+: lines ∧
        ∀ turn ∈ session.turns, turn.commands.length = session.playerCount ∧ session.playerCount ≤ 1 := by
  obtain ⟨lines,done,recorded,same,front,mine,logged⟩ := run_logged framerate keyboard game log past heard run
  refine ⟨lines,commands_written _ _ recorded.written recorded.free,same,?_⟩
  intro session member
  rcases eq_or_ne session.turns [] with none | some
  · simp [none]
  · obtain ⟨few,each,all⟩ := logged_commands session done (logged session member) mine some
    exact ⟨all.trans front,fun turn member => ⟨each turn member,few⟩⟩

theorem executed_filler :
    ∃ (game : LocalGame Unit) (log : SessionLog Unit) (past : List (SessionLog Unit)) (heard : List Event),
      LocalRun 1 [] game log past heard ∧ log.turns = [⟨0,0,[[]],false⟩] ∧
      ∃ lines, commands game.world.input = .ok lines ∧ lines.filter (· ≠ []) = (typed heard).filter (· ≠ []) ∧
        ∀ session ∈ past ++ [log], session.turns.flatMap Turn.commands <+: lines ∧
          ∀ turn ∈ session.turns, turn.commands.length = session.playerCount ∧ session.playerCount ≤ 1 := by
  obtain ⟨game,log,past,heard,_,_,_,run,_,_,_,_,_,turns,_⟩ := blank_stalls sumLibrary ⟨1,0,0⟩
  exact ⟨game,log,past,heard,run,turns,executed_in_order 1 [] game log past heard run⟩

/-- A game on its own is a process with a peer: the server's frames, of player 0 only,
are what the peer sends, and the bytes between them are those of whole commands. -/
theorem local_refines (framerate : UInt8) (keyboard : List Byte) (game : LocalGame σ) (log : SessionLog σ)
    (past : List (SessionLog σ)) (heard : List Event) (run : LocalRun framerate keyboard game log past heard) :
    ∃ taken frames lines, commands game.world.input = .ok lines ∧ (∀ frame ∈ frames, frame.player = 0) ∧
      encode 0 (frames.map Frame.text) ++ game.server.received = taken ∧ 0 ∉ game.server.received ∧
      taken ++ game.world.wires.outgoing = encode 0 (lines.take game.world.input.read.commandCount) ∧
      Process framerate endpointFromFd (wire frames) keyboard (rewire taken game.pending.flatten game.world) log past := by
  obtain ⟨taken,frames,lines,sent,served⟩ := run_served framerate keyboard game log past heard run
  refine ⟨taken,frames,lines,commands_written _ _ served.recorded.written served.recorded.free,served.mine,served.echoed,
    served.unclosed,?_,served.process⟩
  rw [served.cursor.commands]
  exact served.upstream

theorem filler_refines :
    ∃ (game : LocalGame Unit) (log : SessionLog Unit) (past : List (SessionLog Unit)) (heard : List Event),
      LocalRun 1 [] game log past heard ∧ log.turns = [⟨0,0,[[]],false⟩] ∧
      ∃ taken frames lines, commands game.world.input = .ok lines ∧ (∀ frame ∈ frames, frame.player = 0) ∧
        encode 0 (frames.map Frame.text) ++ game.server.received = taken ∧ 0 ∉ game.server.received ∧
        taken ++ game.world.wires.outgoing = encode 0 (lines.take game.world.input.read.commandCount) ∧
        Process 1 endpointFromFd (wire frames) [] (rewire taken game.pending.flatten game.world) log past := by
  obtain ⟨game,log,past,heard,_,_,_,run,_,_,_,_,_,turns,_⟩ := blank_stalls sumLibrary ⟨1,0,0⟩
  exact ⟨game,log,past,heard,run,turns,local_refines 1 [] game log past heard run⟩

end Order

end Runs

end Craftsman.Singleplayer
