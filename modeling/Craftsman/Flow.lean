import Craftsman.Readiness
import Craftsman.Singleplayer
import Craftsman.Wedge

/-! What is under way between a game and its server. The lockstep bounds it, and as
long as something is under way one of the two parties can take a step on it, so a
stall is never final. -/
namespace Craftsman.Flow
open Craftsman.Memory Craftsman.Recording Craftsman.CommandLog Craftsman.Network Craftsman.Client
open Craftsman.NetworkServer Craftsman.Frames Craftsman.Demultiplex Craftsman.Echo Craftsman.Wedge
open Craftsman.StandardInput Craftsman.Execute Craftsman.GameLoop Craftsman.Simulation Craftsman.Iteration
open Craftsman.Lockstep Craftsman.Readiness Craftsman.Rewiring Craftsman.Singleplayer
open Craftsman.Stream.Delimited Craftsman.Stream.Rounds

section Runs
variable {σ : Type}

section Window

/-- The bytes between the record of a game and the records of its players. -/
def inFlight (game : LocalGame σ) : Nat :=
  game.world.wires.outgoing.length + game.server.received.length + game.pending.flatten.length +
    game.world.wires.incoming.length + game.world.conn.received.length

theorem wire_length (frames : List Frame) :
    (wire frames).length = (encode 0 (frames.map Frame.text)).length + 8 * frames.length := by
  induction frames with
  | nil => rfl
  | cons frame frames ih =>
    rw [wire_cons,List.length_append,ih,bytes_length,List.map_cons,encode_cons,Frame.size]
    simp only [List.length_append,List.length_cons]
    omega

theorem encode_short (bound : Nat) (lines : List (List Byte)) (short : ∀ text ∈ lines, text.length < bound) :
    (encode 0 lines).length ≤ lines.length * bound := by
  induction lines with
  | nil => exact Nat.zero_le _
  | cons text lines ih =>
    have here := short text List.mem_cons_self
    have rest := ih fun other member => short other (List.mem_cons_of_mem _ member)
    rw [encode_cons,List.length_cons,Nat.succ_mul]
    simp only [List.length_append,List.length_cons]
    omega

/-- Once the player has joined, the lockstep is a window: however slow the server,
no more commands are under way than one for each frame of the input queue, or
those an earlier session left. -/
theorem window (framerate : UInt8) (keyboard : List Byte) (game : LocalGame σ) (log : SessionLog σ)
    (past : List (SessionLog σ)) (heard : List Event) (run : LocalRun framerate keyboard game log past heard)
    (joined : log.playerCount ≠ 0) :
    inFlight game ≤ (max log.inputRead (log.turns.length + framerate.toNat) - log.turns.length) * 4104 := by
  obtain ⟨taken,frames,lines,sent,served⟩ := run_served framerate keyboard game log past heard run
  obtain ⟨lines',done,rest,sent',_,head⟩ := process_head framerate endpointFromFd frames keyboard _ log past served.process
  have accounted := head.accounted
  have same_sent : sent = sent' := served.cursor.commands.symm.trans accounted.cursor.commands
  have few : sent ≤ max log.inputRead (log.turns.length + framerate.toNat) := by
    rw [same_sent,accounted.total]
    exact accounted.high
  have mine : ∀ frame ∈ done, frame.player = 0 := fun frame member =>
    served.mine frame (by rw [head.split]; exact List.mem_append_left _ member)
  have stored : log.turns.length ≤ done.length := by
    have covers : log.turns.length ≤ (texts 0 done).length :=
      head.logged.covers 0 ((players_mem _ 0).mpr (Nat.pos_of_ne_zero joined))
    rwa [texts_all done mine,List.length_map] at covers
  -- the lines that are sent but not stored, and the frames of those that are echoed
  have front : frames.map Frame.text = (lines.take sent).take frames.length := by
    have echoes := List.prefix_iff_eq_take.mp served.echoes
    rwa [List.length_map] at echoes
  have begun : done.map Frame.text = (lines.take sent).take done.length := by
    have cut := congrArg (List.take done.length) front
    rw [head.split,List.map_append,List.take_left' (List.length_map _),List.take_take] at cut
    rwa [Nat.min_eq_left (by simp)] at cut
  have split : lines.take sent = done.map Frame.text ++ (lines.take sent).drop done.length := by
    rw [begun,List.take_append_drop]
  have size : ((lines.take sent).drop done.length).length ≤ sent - done.length := by
    simp only [List.length_drop,List.length_take]
    omega
  have unread : (game.world.conn.received ++ (game.world.wires.incoming ++ game.pending.flatten)).length =
      (wire rest).length := congrArg List.length accounted.demux.unread
  have up := congrArg List.length served.upstream
  rw [← served.echoed,head.split,split,List.map_append,encode_append,encode_append] at up
  have bound := encode_short 4096 ((lines.take sent).drop done.length) fun text member =>
    served.short text (List.mem_of_mem_take (List.mem_of_mem_drop member))
  have echoed := served.echoes.length_le
  rw [List.length_map,head.split,List.length_append,List.length_take] at echoed
  rw [wire_length] at unread
  simp only [List.length_append] at unread up
  unfold inFlight
  have total : ((lines.take sent).drop done.length).length * 4096 ≤ (sent - done.length) * 4096 :=
    Nat.mul_le_mul_right _ size
  omega

theorem window_filler :
    ∃ (game : LocalGame Unit) (log : SessionLog Unit) (past : List (SessionLog Unit)) (heard : List Event),
      LocalRun 1 [] game log past heard ∧ log.playerCount ≠ 0 ∧ log.turns.length = 1 ∧
      inFlight game ≤ (max log.inputRead (log.turns.length + (1 : UInt8).toNat) - log.turns.length) * 4104 := by
  obtain ⟨game,log,past,heard,_,_,_,run,_,_,_,_,joined,turns,_⟩ := blank_stalls Dlfn.sumLibrary ⟨1,0,0⟩
  exact ⟨game,log,past,heard,run,joined,by rw [turns]; rfl,window 1 [] game log past heard run joined⟩

end Window

section Alone

theorem sync_strangers (target : Nat) (conn after : Connection) (wires wires' : Wires) (input sent : RecordRW)
    (recording stored : Recordings) (kernel : Kernel) (status : ConnStatus) (done rest : List Frame)
    (demux : Demux conn recording wires.incoming done rest) (mine : ∀ frame ∈ rest, frame.player = 0)
    (ok : connectionSync target conn wires input recording kernel = .ok (status,after,wires',sent,stored)) (i : Fin 4)
    (other : i ≠ 0) : known stored i = known recording i := by
  unfold connectionSync at ok
  obtain ⟨⟨up,polled,incoming⟩,io,ok⟩ := (bind_ok _ _ _).mp ok
  have received := io_demux conn polled recording wires.incoming incoming [] done rest kernel.poll kernel.read up
    (by rwa [List.append_nil]) io
  rw [List.append_nil] at received
  dsimp only at ok
  split at ok
  · cases ok
    rfl
  · obtain ⟨⟨same,processed,stored'⟩,processing,ok⟩ := (bind_ok _ _ _).mp ok
    obtain ⟨now,later,cut,_,ending,_⟩ := processing_demux polled processed recording stored' incoming done rest same
      received processing
    have kept : known stored' i = known recording i := by
      cases ending with
      | drained later same _ => rw [same]
      | stopped frame more _ grown =>
        have first : frame.player = 0 := mine frame (by rw [cut]; simp)
        rw [grown,first,Function.update_of_ne other]
    dsimp only at ok
    split at ok
    · cases ok
      exact kept
    · obtain ⟨_,_,same⟩ := (bind_ok _ _ _).mp ok
      cases same
      exact kept

/-- With the frames of one player only, nobody else ever has a record. -/
theorem process_alone (framerate : UInt8) (ep : EndPoint) (frames : List Frame) (keyboard : List Byte) (world : World σ)
    (log : SessionLog σ) (past : List (SessionLog σ)) (mine : ∀ frame ∈ frames, frame.player = 0)
    (process : Process framerate ep (wire frames) keyboard world log past) :
    (∀ i, i ≠ 0 → known world.gameRecord i = false) ∧ world.playerCount ≤ 1 := by
  have few (recording : Recordings) (alone : ∀ i, i ≠ 0 → known recording i = false) : gamePlayers recording ≤ 1 := by
    have one := alone 1 (by decide)
    have two := alone 2 (by decide)
    have three := alone 3 (by decide)
    unfold known at one two three
    have order : List.finRange 4 = [0,1,2,3] := by decide
    rw [gamePlayers,order]
    simp only [List.filter_cons,one,two,three,Bool.false_eq_true,if_false,List.filter_nil]
    split <;> simp
  induction process with
  | boot library calibration world opened =>
    subst opened
    exact ⟨fun _ _ => rfl,few _ fun _ _ => rfl⟩
  | iterate world synced later log past tick status turn process before sync step ih =>
    obtain ⟨alone,count⟩ := ih
    obtain ⟨lines,done,rest,_,_,head⟩ := process_head framerate ep frames keyboard world log past process
    obtain ⟨count',same'⟩ := advance_known tick status synced later turn step
    unfold syncStep at sync
    obtain ⟨middle,gathering,sync⟩ := (bind_ok _ _ _).mp sync
    obtain ⟨gathered,_⟩ := gather_gathered tick world middle lines head.accounted.recorded gathering
    obtain ⟨⟨status',conn,wires,input,gameRecord⟩,answer,same⟩ := (bind_ok _ _ _).mp sync
    cases same
    have demux := head.accounted.demux
    rw [← gathered.conn,← gathered.gameRecord,← gathered.wires] at demux
    refine ⟨?_,by rw [count']; dsimp only; rw [gathered.playerCount]; exact count⟩
    intro i other
    rw [same']
    dsimp only
    rw [sync_strangers _ _ conn _ wires _ input _ gameRecord _ _ done rest demux
      (fun frame member => mine frame (by rw [head.split]; exact List.mem_append_right _ member)) answer i other,
      gathered.gameRecord]
    exact alone i other
  | reload world opened log past library calibration process stopped stays started ih =>
    subst started
    exact ⟨ih.1,few _ ih.1⟩

end Alone

section Stalls

/-- A synchronization that succeeds leaves no whole frame in the client's buffer. -/
theorem sync_drained (target : Nat) (conn after : Connection) (wires wires' : Wires) (input sent : RecordRW)
    (recording stored : Recordings) (kernel : Kernel) (more : List Byte) (done rest : List Frame)
    (demux : Demux conn recording (wires.incoming ++ more) done rest)
    (ok : connectionSync target conn wires input recording kernel = .ok (.ok,after,wires',sent,stored)) :
    ∃ now later, rest = now ++ later ∧ Demux after stored (wires'.incoming ++ more) (done ++ now) later ∧
      (∀ i, (stored i).read = (recording i).read) ∧
      ∀ frame behind, later = frame::behind → after.usedReceiveBuffer < frame.size := by
  unfold connectionSync at ok
  obtain ⟨⟨up,polled,incoming⟩,io,ok⟩ := (bind_ok _ _ _).mp ok
  have received := io_demux conn polled recording wires.incoming incoming more done rest kernel.poll kernel.read up
    demux io
  dsimp only at ok
  split at ok
  · cases ok
  · obtain ⟨⟨same,processed,stored'⟩,processing,ok⟩ := (bind_ok _ _ _).mp ok
    obtain ⟨now,later,cut,moved,ending,_⟩ := processing_demux polled processed recording stored' _ done rest same
      received processing
    have reads := processing_reads polled processed recording stored' same processing
    dsimp only at ok
    split at ok
    · cases ok
    · next kept =>
      obtain rfl : same = true := by simpa using kept
      obtain ⟨⟨status',last,sent',outgoing⟩,sending,same⟩ := (bind_ok _ _ _).mp ok
      cases same
      have conn := sendLoop_conn _ _ _ _ processed _ _ _ _ _ _ sending
      refine ⟨now,later,cut,?_,reads,?_⟩
      · rw [conn]
        exact ⟨moved.low,moved.high,moved.unread,moved.written,moved.messages,moved.bytes⟩
      · intro frame behind head
        rw [conn]
        cases ending with
        | drained _ _ incomplete => exact incomplete frame behind head

theorem syncStep_drained (tick : Tick) (world synced : World σ) (lines : List (List Byte)) (more : List Byte)
    (done rest : List Frame) (recorded : Recorded world.input lines)
    (demux : Demux world.conn world.gameRecord (world.wires.incoming ++ more) done rest)
    (ok : syncStep tick world = .ok (.ok,synced)) :
    ∃ now later, rest = now ++ later ∧
      Demux synced.conn synced.gameRecord (synced.wires.incoming ++ more) (done ++ now) later ∧
      (∀ i, (synced.gameRecord i).read = (world.gameRecord i).read) ∧
      ∀ frame behind, later = frame::behind → synced.conn.usedReceiveBuffer < frame.size := by
  unfold syncStep at ok
  obtain ⟨middle,gathering,ok⟩ := (bind_ok _ _ _).mp ok
  obtain ⟨gathered,_⟩ := gather_gathered tick world middle lines recorded gathering
  obtain ⟨⟨_,conn,wires,input,gameRecord⟩,answer,same⟩ := (bind_ok _ _ _).mp ok
  cases same
  rw [← gathered.conn,← gathered.gameRecord,← gathered.wires] at demux
  rw [← gathered.gameRecord]
  exact sync_drained _ _ conn _ wires _ input _ gameRecord _ more done rest demux answer

theorem stall_behind (tick : Tick) (world later : World σ) (step : advance tick .ok world = .ok (some (later,none))) :
    (commandPreview world.loop.inputQueueMax world.playerCount world.gameRecord).turnNearest = 0 := by
  by_contra nearest
  unfold advance at step
  dsimp only at step
  rw [if_neg nearest] at step
  obtain ⟨⟨moved,texts⟩,take,rest⟩ := (bind_ok _ _ _).mp step
  obtain ⟨turn,found,_⟩ := finish_turned tick world moved later none texts take nearest rest
  cases found

variable {framerate : UInt8} {keyboard : List Byte} {game : LocalGame σ} {log : SessionLog σ}
  {past : List (SessionLog σ)} {heard : List Event} {taken : List Byte} {frames : List Frame}
  {lines : List (List Byte)} {sent : Nat}

def pipeline (game : LocalGame σ) : Pipeline where
  input := game.world.input
  toServer := game.world.wires.outgoing
  server := game.server
  pending := game.pending
  toClient := game.world.wires.incoming
  conn := game.world.conn
  gameRecord := game.world.gameRecord

/-- The pipeline of a game is one whose commands are all echoed. -/
theorem served_echoing (served : Served framerate keyboard game log past heard taken frames lines sent) (bound : Nat)
    (fits : ∀ text ∈ lines, text.length ≤ bound) (done rest : List Frame) (split : frames = done ++ rest)
    (demux : Demux game.world.conn game.world.gameRecord (game.world.wires.incoming ++ game.pending.flatten) done rest) :
    Echoing bound lines (pipeline game) done rest := by
  refine ⟨served.recorded.written,served.recorded.present,?_,?_,served.inside,served.unclosed,?_,demux,?_⟩
  · dsimp only [pipeline]
    rw [served.cursor.commands]
    exact served.cursor
  · exact fun text member => ⟨served.recorded.free text member,fits text member⟩
  · dsimp only [pipeline,Pipeline.sent]
    rw [served.cursor.commands,← split,← List.append_assoc,served.echoed]
    exact served.upstream
  · rw [← split]
    exact served.mine

theorem Served.bounded (served : Served framerate keyboard game log past heard taken frames lines sent) (bound : Nat)
    (fits : ∀ text ∈ typed heard, text.length ≤ bound) : ∀ text ∈ lines, text.length ≤ bound := by
  intro text member
  rcases eq_or_ne text [] with rfl | some
  · exact Nat.zero_le _
  · have line : text ∈ lines.filter (· ≠ []) := List.mem_filter.mpr ⟨member,by simpa using some⟩
    rw [served.heard] at line
    exact fits text (List.mem_of_mem_filter line)

/-- While a sent command is not stored, a party of the pipeline can take a step: the
server owes a write, or one of the two has bytes to read and room for them. -/
theorem echoing_moves (lines : List (List Byte)) (p : Pipeline) (done rest : List Frame)
    (echoing : Echoing 4087 lines p done rest) (missing : done.length < p.input.read.commandCount)
    (drained : ∀ frame behind, rest = frame::behind → p.conn.usedReceiveBuffer < frame.size) :
    p.pending ≠ [] ∨ p.toServer ≠ [] ∧ p.server.usedReceiveBuffer < 4096 ∨
      p.toClient ≠ [] ∧ p.conn.usedReceiveBuffer < 4096 := by
  have free : Free 0 lines := echoing.free
  have server := server_not_full 4087 lines p done rest (by decide) echoing
  rcases eq_or_ne p.pending [] with idle | owed
  · refine .inr ?_
    cases rest with
    | nil =>
      refine .inl ⟨?_,server⟩
      intro quiet
      have upstream := echoing.upstream
      rw [quiet,List.append_nil,List.append_nil,← List.append_nil (encode 0 (p.sent lines))] at upstream
      obtain ⟨same,_⟩ := encode_unique 0 _ _ _ _ (frames_free done) (free.take _) echoing.unclosed List.not_mem_nil upstream
      have count := congrArg List.length same
      have inside := echoing.reads.inside
      simp only [List.length_map,List.length_take] at count
      omega
    | cons frame behind =>
      refine .inr ?_
      have short := drained frame behind rfl
      have echoed := prefix_of_encode 0 _ _ _ (frames_free (done ++ frame::behind)) (free.take _) echoing.upstream
      have line : frame.text ∈ lines := List.mem_of_mem_take (echoed.subset (List.mem_map_of_mem (by simp)))
      have fits := (echoing.legal frame.text line).2
      have received := received_length p.conn echoing.downstream.high
      have low := echoing.downstream.low
      have unread := congrArg List.length echoing.downstream.unread
      rw [idle,List.flatten_nil,List.append_nil,List.length_append,wire_cons,List.length_append,bytes_length] at unread
      unfold Frame.size at short unread
      refine ⟨?_,by omega⟩
      intro quiet
      rw [quiet,List.length_nil] at unread
      omega
  · exact .inl owed

/-- A stall finds every stored command taken, and more commands sent than stored. -/
theorem stalled_echoing (served : Served framerate keyboard game log past heard taken frames lines sent) (tick : Tick)
    (synced later : World σ) (running : game.world.loop.running = true)
    (sync : syncStep tick game.world = .ok (.ok,synced)) (complete : synced.conn.buffering = false)
    (stalls : advance tick .ok synced = .ok (some (later,none))) (rate : framerate ≠ 0) (bound : Nat)
    (fits : ∀ text ∈ typed (heard ++ heardIn tick game.world), text.length ≤ bound) :
    ∃ lines done rest, Echoing bound lines (pipeline {game with world := later}) done rest ∧
      done.length < later.input.read.commandCount ∧
      ∀ frame behind, rest = frame::behind → later.conn.usedReceiveBuffer < frame.size := by
  obtain ⟨_,done,rest,_,_,head⟩ := process_head framerate endpointFromFd frames keyboard _ log past served.process
  have accounted := head.accounted
  obtain ⟨_,players⟩ := process_alone framerate endpointFromFd frames keyboard _ log past served.mine served.process
  -- the counters behind the synchronization
  obtain ⟨more,now,_,m,_,reached⟩ := syncStep_ok _ .ok _ _ _ done rest _ accounted.recorded accounted.cursor accounted.demux
    (syncStep_rewire taken game.pending.flatten tick game.world synced .ok sync)
  obtain ⟨counters,_,all⟩ := synced_accounted .ok _ _ more now _ m accounted reached
  have sent_all := reached.cursor.commands.trans (all rfl)
  rw [← accounted.total] at sent_all
  have queue : synced.loop.inputQueueMax = framerate.toNat := counters.queueMax
  -- what the client's buffer and the records hold
  obtain ⟨now,behind,cut,moved,reads,drained⟩ := syncStep_drained tick game.world synced lines game.pending.flatten done rest
    served.recorded accounted.demux sync
  have split : frames = (done ++ now) ++ behind := by rw [head.split,cut,List.append_assoc]
  have mine : ∀ frame ∈ done ++ now, frame.player = 0 := fun frame member =>
    served.mine frame (by rw [split]; exact List.mem_append_left _ member)
  have alone : texts 0 (done ++ now) = (done ++ now).map Frame.text := texts_all _ mine
  have same : synced.playerCount = log.playerCount := reached.playerCount.trans head.playerCount.symm
  have due := mt (preview_positive synced.loop.inputQueueMax synced.playerCount synced.gameRecord).mpr
    (not_not.mpr (stall_behind tick synced later stalls))
  have slots : synced.loop.inputQueueMax ≠ 0 := by
    rw [queue]
    exact fun zero => rate (UInt8.toNat_inj.mp zero)
  -- without a player the turn would not have waited
  have joined : log.playerCount ≠ 0 := by
    intro nobody
    apply due
    refine ⟨slots,?_⟩
    intro i member
    have bound := (players_mem _ i).mp member
    omega
  have stored : (done ++ now).length ≤ log.turns.length := by
    have one : synced.playerCount = 1 := by
      have few : log.playerCount ≤ 1 := head.playerCount ▸ players
      omega
    have empty : ahead (synced.gameRecord 0) = 0 := by
      by_contra some_ahead
      apply due
      refine ⟨slots,?_⟩
      intro i member
      have first : i = 0 := by
        have bound := (players_mem _ i).mp member
        omega
      rw [first]
      exact some_ahead
    have cursor : Cursor (texts 0 (done ++ now)) log.turns.length (synced.gameRecord 0).read := by
      have before := accounted.reads 0
      rw [if_pos (by rw [← head.playerCount]; exact Nat.pos_of_ne_zero joined),← accounted.total] at before
      rw [reads 0,texts_append]
      exact before.append _
    have count := ahead_count _ _ _ (moved.written 0) cursor
    rw [empty,alone,List.length_map] at count
    omega
  obtain ⟨blank,m',served'⟩ := served.iterate synced later tick .ok none running sync complete stalls
  have idle : Idle synced later := by
    rcases advance_cases tick .ok synced later none stalls with ⟨_,idle⟩ | ⟨_,_,found,_⟩
    · exact idle
    · cases found
  refine ⟨_,done ++ now,behind,served_echoing served' bound (Served.bounded served' bound fits) (done ++ now) behind split ?_,?_,?_⟩
  · dsimp only
    rw [idle.conn,idle.gameRecord,idle.wires]
    exact moved
  · rw [idle.input]
    have positive : 0 < framerate.toNat := Nat.pos_of_ne_zero fun zero => rate (UInt8.toNat_inj.mp zero)
    have sent_now : synced.input.read.commandCount = max log.inputRead (log.turns.length + framerate.toNat) := sent_all
    omega
  · rw [idle.conn]
    exact drained

/-- A stalled turn waits for a command that is under way, and one of the parties can
take a step on it: the server can write or read, or the client can read. -/
theorem stall_moves (framerate : UInt8) (keyboard : List Byte) (game : LocalGame σ) (log : SessionLog σ)
    (past : List (SessionLog σ)) (heard : List Event) (tick : Tick) (synced later : World σ)
    (run : LocalRun framerate keyboard game log past heard) (running : game.world.loop.running = true)
    (sync : syncStep tick game.world = .ok (.ok,synced)) (complete : synced.conn.buffering = false)
    (stalls : advance tick .ok synced = .ok (some (later,none))) (rate : framerate ≠ 0)
    (fits : ∀ text ∈ typed (heard ++ heardIn tick game.world), text.length ≤ 4087) :
    game.pending ≠ [] ∨ later.wires.outgoing ≠ [] ∧ game.server.usedReceiveBuffer < 4096 ∨
      later.wires.incoming ≠ [] ∧ later.conn.usedReceiveBuffer < 4096 := by
  obtain ⟨taken,frames,lines,sent,served⟩ := run_served framerate keyboard game log past heard run
  obtain ⟨lines,done,rest,echoing,missing,drained⟩ := stalled_echoing served tick synced later running sync complete stalls rate
    4087 fits
  exact echoing_moves lines _ done rest echoing missing drained

theorem filler_moves :
    ∃ (game : LocalGame Unit) (log : SessionLog Unit) (past : List (SessionLog Unit)) (heard : List Event) (tick : Tick)
      (synced later : World Unit), LocalRun 1 [] game log past heard ∧ syncStep tick game.world = .ok (.ok,synced) ∧
      advance tick .ok synced = .ok (some (later,none)) ∧
      (game.pending ≠ [] ∨ later.wires.outgoing ≠ [] ∧ game.server.usedReceiveBuffer < 4096 ∨
        later.wires.incoming ≠ [] ∧ later.conn.usedReceiveBuffer < 4096) := by
  obtain ⟨game,log,past,heard,tick,synced,later,run,running,sync,complete,stalls,_,_,fits⟩ :=
    blank_stalls Dlfn.sumLibrary ⟨1,0,0⟩
  exact ⟨game,log,past,heard,tick,synced,later,run,sync,stalls,
    stall_moves 1 [] game log past heard tick synced later run running sync complete stalls (by decide) fits⟩

end Stalls

end Runs

end Craftsman.Flow
