import Craftsman.Completion
import Craftsman.LineFraming

/-! The keyboard over the sessions of a game. A session is told the lines of what it
reads; what it has read of an unfinished line is dropped at its end, and the next
session starts behind it. At a terminal, which hands over at most a line at a time,
the buffer is never filled so far that old bytes show behind the new ones. -/
namespace Craftsman.Keyboard
open Craftsman.Memory Craftsman.Recording Craftsman.CommandLog Craftsman.Network Craftsman.Client Craftsman.NetworkServer
open Craftsman.Demultiplex Craftsman.StandardInput Craftsman.LineFraming Craftsman.Dlfn Craftsman.Execute Craftsman.GameLoop
open Craftsman.Simulation Craftsman.Iteration Craftsman.Lockstep Craftsman.Rewiring Craftsman.Singleplayer
open Craftsman.Completion (advance_terminal events_terminal fill_terminal gather_total)
open Craftsman.Stream.Delimited

/-- No NUL, and a newline at the latest behind 2047 other bytes. -/
structure Short (stream : List Byte) : Prop where
  nulFree : 0 ∉ stream
  lines : ∀ text, text <:+: stream → newline ∉ text → text.length < 2048

theorem Short.inside {stream part : List Byte} (short : Short stream) (inside : part <:+: stream) : Short part where
  nulFree := fun zero => short.nulFree (inside.subset zero)
  lines := fun text within => short.lines text (within.trans inside)

theorem Short.legal {stream : List Byte} (short : Short stream) : Legal stream := by
  have whole := split_wire newline stream
  obtain ⟨free,unclosed⟩ := split_free newline stream
  refine ⟨short.nulFree,?_,?_⟩
  · intro line member
    obtain ⟨before,after,segments⟩ := List.append_of_mem member
    have within : line <:+: stream := by
      refine ⟨encode newline before,newline::encode newline after ++ (split newline stream).2,?_⟩
      conv_rhs => rw [← whole,segments,encode_append,encode_cons]
      simp only [List.append_assoc,List.cons_append]
    have small := short.lines line within (free line member)
    omega
  · have small := short.lines _ ⟨encode newline (split newline stream).1,[],by rw [List.append_nil]; exact whole⟩ unclosed
    omega

section Buffer

theorem drop_overwrite (block items : List Byte) (offset n : Nat) (inside : offset ≤ block.length)
    (behind : offset + items.length ≤ n) : (overwrite block offset items).drop n = block.drop n := by
  have front : (block.take offset ++ items).length = offset + items.length := by
    rw [List.length_append,List.length_take_of_le inside]
  rw [← Nat.add_sub_cancel' behind,← List.drop_drop,overwrite,List.drop_left' front,List.drop_drop]

/-- Behind the used bytes there is no newline, and the second half of the buffer was never written. -/
structure Tidy (input : Input) : Prop where
  low : 0 ≤ input.usedBuf
  high : input.usedBuf ≤ 2048
  fresh : newline ∉ input.buf.drop input.usedBuf.toNat
  blank : ∀ b ∈ input.buf.drop 2048, b = 0

theorem tidy_init : Tidy .init := by
  refine ⟨Int.le_refl 0,(by decide : (0 : Int) ≤ 2048),?_,?_⟩
  · intro member
    exact absurd (List.eq_of_mem_replicate (List.mem_of_mem_drop member)) (by decide)
  · intro b member
    exact List.eq_of_mem_replicate (List.mem_of_mem_drop member)

/-- What a session leaves of an unfinished line holds no newline either. -/
theorem Tidy.shutdown {input : Input} (tidy : Tidy input) (unclosed : newline ∉ input.buf.take input.usedBuf.toNat) :
    Tidy (inputShutdown input) := by
  refine ⟨Int.le_refl 0,(by decide : (0 : Int) ≤ 2048),?_,tidy.blank⟩
  intro member
  have whole : newline ∈ input.buf.take input.usedBuf.toNat ++ input.buf.drop input.usedBuf.toNat := by
    rw [List.take_append_drop]
    exact member
  rcases List.mem_append.mp whole with front | behind
  · exact unclosed front
  · exact tidy.fresh behind

theorem Tidy.deliver {input received : Input} (tidy : Tidy input) (bytes : List Byte)
    (room : input.usedBuf.toNat + bytes.length ≤ 2048) (ok : input.deliver bytes = .ok received) : Tidy received := by
  have low := tidy.low
  have sized := input.sized
  unfold Input.deliver at ok
  split at ok
  · cases ok
    exact tidy
  split at ok
  · cases ok
    have total : (input.usedBuf + bytes.length).toNat = input.usedBuf.toNat + bytes.length := by omega
    refine ⟨by dsimp only; omega,by dsimp only; omega,?_,?_⟩
    · dsimp only
      rw [total,drop_overwrite _ _ _ _ (by omega) (Nat.le_refl _),← List.drop_drop]
      exact fun member => tidy.fresh (List.mem_of_mem_drop member)
    · dsimp only
      rw [drop_overwrite _ _ _ _ (by omega) room]
      exact tidy.blank
  · cases ok

/-- The line that is cut off lies in the first half, so what the move leaves at the end is blank. -/
theorem Tidy.takeLine {input : Input} (tidy : Tidy input) (k : Nat) (found : strchr newline input.buf = some k) :
    Tidy (input.takeLine k (strchr_inside _ _ _ found)) := by
  obtain ⟨line,rest,same,rfl,_,_⟩ := strchr_found _ _ _ found
  have low := tidy.low
  have high := tidy.high
  have total := input.sized
  rw [same,List.length_append,List.length_cons] at total
  have inside : line.length < input.usedBuf.toNat := by
    by_contra beyond
    apply tidy.fresh
    rw [same,List.drop_append_of_le_length (Nat.le_of_not_lt beyond)]
    exact List.mem_append_right _ List.mem_cons_self
  have behind (n : Nat) (past : line.length < n) : input.buf.drop n = rest.drop (n - (line.length + 1)) := by
    rw [same,List.append_cons,List.drop_append,List.drop_eq_nil_of_le (by simp; omega),List.nil_append]
    congr 1
    simp
  have after := takeLine_buf input line rest (strchr_inside _ _ _ found) same
  have left : (line ++ 0::rest).drop (4096 - (line.length + 1)) = rest.drop (4096 - (line.length + 1) - (line.length + 1)) := by
    rw [List.append_cons,List.drop_append,List.drop_eq_nil_of_le (by simp; omega),List.nil_append]
    congr 1
    simp
  -- the bytes that are not overwritten by the move are those at the end of the second half
  have blank : ∀ n, 2048 ≤ line.length + 1 + n → ∀ b ∈ rest.drop n, b = 0 := by
    intro n half b member
    apply tidy.blank b
    have cut : rest.drop n = (input.buf.drop 2048).drop (line.length + 1 + n - 2048) := by
      rw [List.drop_drop,Nat.add_sub_cancel' half,behind _ (by omega)]
      congr 1
      omega
    rw [cut] at member
    exact List.mem_of_mem_drop member
  have used : (input.takeLine line.length (strchr_inside _ _ _ found)).usedBuf = input.usedBuf - (line.length + 1 : Nat) := rfl
  refine ⟨by rw [used]; omega,by rw [used]; omega,?_,?_⟩
  · rw [after,left,used,List.drop_append_of_le_length (by omega)]
    intro member
    rcases List.mem_append.mp member with fresh | old
    · apply tidy.fresh
      rw [behind _ inside]
      have offset : (input.usedBuf - (line.length + 1 : Nat)).toNat = input.usedBuf.toNat - (line.length + 1) := by omega
      rwa [offset] at fresh
    · exact absurd (blank _ (by omega) _ old) (by decide)
  · rw [after,left,List.drop_append_of_le_length (by omega)]
    intro b member
    rcases List.mem_append.mp member with fresh | old
    · exact blank 2048 (by omega) b fresh
    · exact blank _ (by omega) b old

theorem Tidy.drain {input : Input} (tidy : Tidy input) : Tidy (drainLines input).2 := by
  induction input using drainLines.induct with
  | case1 input absent =>
    rw [drain_none _ absent]
    exact tidy
  | case2 input k found _ _ _ ih =>
    rw [drain_line _ _ found]
    exact ih (tidy.takeLine k found)

theorem Tidy.poll {input later : Input} (tidy : Tidy input) (wire left : List Byte) (poll : Poll) (count : Nat) (up : Bool)
    (events : List Event) (room : input.usedBuf.toNat + (wire.take (min count (size (bufLen - input.usedBuf)))).length ≤ 2048)
    (ok : inputPoll input wire poll (.upto count) = .ok (up,later,left,events)) : Tidy later := by
  unfold inputPoll at ok
  split at ok
  · cases ok
    exact tidy
  split at ok
  · dsimp only [networkRead] at ok
    obtain ⟨received,deliver,ok⟩ := (bind_ok _ _ _).mp ok
    cases ok
    have drained := (tidy.deliver _ room deliver).drain
    have half := drained.high
    rw [Input.dropLong,if_neg (by unfold bufLen; omega)]
    exact drained
  · cases ok
    exact tidy

end Buffer

section Lines

/-- The calls for the lines of what was read. -/
def linesOf (read : List Byte) : List Event := (split newline read).1.map fun line => (line.length,line)

/-- A session that has read `read` and been told its lines. -/
structure Attended (input : Input) (wire read : List Byte) (calls : List Event) : Prop where
  tidy : Tidy input
  framed : Framed (read ++ wire) ⟨input,wire,calls⟩

variable {input : Input} {wire read : List Byte} {calls : List Event}

theorem Attended.told (attended : Attended input wire read calls) : calls = linesOf read := by
  obtain ⟨read',cut,calls,_⟩ := attended.framed
  obtain rfl := List.append_cancel_right cut
  exact calls

theorem Attended.front (attended : Attended input wire read calls) :
    input.buf.take input.usedBuf.toNat = (split newline read).2 := by
  obtain ⟨read',cut,_,_,_,front⟩ := attended.framed
  obtain rfl := List.append_cancel_right cut
  exact front

theorem attended_open (input : Input) (wire : List Byte) (tidy : Tidy input) (empty : input.usedBuf = 0) :
    Attended input wire [] [] := by
  refine ⟨tidy,[],rfl,rfl,tidy.low,?_,?_⟩
  · dsimp only
    rw [empty]
    exact (by decide : (0 : Int) ≤ 4095)
  · dsimp only
    rw [empty]
    rfl

theorem Attended.shutdown (attended : Attended input wire read calls) : Attended (inputShutdown input) wire [] [] := by
  apply attended_open _ _ _ rfl
  apply attended.tidy.shutdown
  rw [attended.front]
  exact (split_free newline read).2

/-- With the unfinished line in front of it, what a terminal's read returns is at most one line. -/
theorem Attended.room (attended : Attended input wire read calls) (short : Short (read ++ wire)) (count : Nat)
    (one : newline ∉ (wire.take (min count (size (bufLen - input.usedBuf)))).dropLast) :
    input.usedBuf.toNat + (wire.take (min count (size (bufLen - input.usedBuf)))).length ≤ 2048 := by
  generalize min count (size (bufLen - input.usedBuf)) = n at one ⊢
  have used : (split newline read).2.length = input.usedBuf.toNat := by
    have high := attended.tidy.high
    rw [← attended.front,List.length_take_of_le (by rw [input.sized]; omega)]
  have begun := split_wire newline read
  have unclosed : newline ∉ (split newline read).2 ++ (wire.take n).dropLast := by
    rw [List.mem_append,not_or]
    exact ⟨(split_free newline read).2,one⟩
  have within : (split newline read).2 ++ (wire.take n).dropLast <:+: read ++ wire := by
    obtain ⟨rest,cut⟩ := (List.dropLast_prefix (wire.take n)).trans (List.take_prefix n wire)
    refine ⟨encode newline (split newline read).1,rest,?_⟩
    rw [← List.append_assoc,begun,List.append_assoc,cut]
  have small := short.lines _ within unclosed
  rw [List.length_append,used,List.length_dropLast] at small
  omega

theorem poll_wire (input later : Input) (wire left : List Byte) (poll : Poll) (answer : Read) (up : Bool)
    (events : List Event) (ok : inputPoll input wire poll answer = .ok (up,later,left,events)) :
    ∃ chunk, wire = chunk ++ left := by
  unfold inputPoll at ok
  split at ok
  · cases ok
    exact ⟨[],rfl⟩
  split at ok
  · cases answer with
    | failed errno =>
      cases ok
      exact ⟨[],rfl⟩
    | upto count =>
      dsimp only [networkRead] at ok
      obtain ⟨received,_,ok⟩ := (bind_ok _ _ _).mp ok
      cases ok
      exact ⟨_,(List.take_append_drop _ _).symm⟩
  · cases ok
    exact ⟨[],rfl⟩

theorem Attended.poll (attended : Attended input wire read calls) (short : Short (read ++ wire)) (poll : Poll)
    (answer : Read) (terminal : Terminal input wire answer) :
    ∃ up later left events chunk, inputPoll input wire poll answer = .ok (up,later,left,events) ∧ wire = chunk ++ left ∧
      Attended later left (read ++ chunk) (calls ++ events) := by
  obtain ⟨count,rfl,one⟩ := terminal
  have room := attended.room short count one
  have clear : Clear ⟨input,wire,calls⟩ poll count := by
    intro bits _ _ shows
    have visible := (List.takeWhile_prefix _).subset shows
    rw [← List.drop_drop] at visible
    exact attended.tidy.fresh (List.mem_of_mem_drop visible)
  obtain ⟨after,step,kept⟩ := poll_framed (read ++ wire) ⟨input,wire,calls⟩ poll count short.legal attended.framed
  obtain ⟨⟨up,later,left,events⟩,polled,same⟩ := (bind_ok _ _ _).mp step
  cases same
  have framed := kept.mpr clear
  have tidy := attended.tidy.poll wire left poll count up events room polled
  obtain ⟨chunk,cut⟩ := poll_wire input later wire left poll _ up events polled
  refine ⟨up,later,left,events,chunk,polled,cut,tidy,?_⟩
  rwa [List.append_assoc,← cut]

end Lines

section Games
variable {σ : Type}

/-- All that an iteration does to the keyboard is one poll. -/
theorem iterate_terminal (tick : Tick) (status : ConnStatus) (world synced later : World σ) (turn : Option Turn)
    (sync : syncStep tick world = .ok (status,synced)) (step : advance tick status synced = .ok (some (later,turn))) :
    ∃ up, inputPoll world.stdin world.keyboard tick.poll tick.read =
      .ok (up,later.stdin,later.keyboard,heardIn tick world) := by
  obtain ⟨stdin,keyboard⟩ := advance_terminal tick status synced later turn step
  unfold syncStep at sync
  obtain ⟨gathered,gathering,sync⟩ := (bind_ok _ _ _).mp sync
  obtain ⟨_,_,same⟩ := (bind_ok _ _ _).mp sync
  cases same
  unfold gather at gathering
  obtain ⟨told,polled,fill⟩ := (bind_ok _ _ _).mp gathering
  unfold pollInput at polled
  obtain ⟨⟨up,input,left,events⟩,poll,fold⟩ := (bind_ok _ _ _).mp polled
  obtain ⟨same_stdin,same_keyboard⟩ := notify_terminal tick.changed world
  rw [same_stdin,same_keyboard] at poll
  have filled := fill_terminal _ _ told gathered fill
  have called := events_terminal events _ told fold
  have heard : heardIn tick world = events := by rw [heardIn,poll]
  refine ⟨up,?_⟩
  rw [poll,heard,stdin,keyboard]
  dsimp only
  rw [filled.1,filled.2,called.1,called.2]

variable {framerate : UInt8} {keyboard : List Byte} {game : LocalGame σ} {log : SessionLog σ} {past : List (SessionLog σ)}
  {heard : List Event} {segments : List (List Byte)} {read : List Byte}

/-- What holds of the keyboard in every state: the sessions have read it piece by piece,
the last one is attended, and the calls are those for the lines of each piece. -/
structure Heard (keyboard : List Byte) (world : World σ) (past : List (SessionLog σ)) (heard : List Event)
    (segments : List (List Byte)) (read : List Byte) : Prop where
  whole : keyboard = segments.flatten ++ (read ++ world.keyboard)
  sessions : segments.length = past.length
  calls : heard = segments.flatMap linesOf ++ linesOf read
  attended : Attended world.stdin world.keyboard read (linesOf read)

theorem played_heard (short : Short keyboard) (played : Played framerate keyboard game log past heard segments read) :
    Heard keyboard game.world past heard segments read := by
  induction played with
  | boot library calibration world opened =>
    subst opened
    exact ⟨rfl,rfl,rfl,attended_open _ _ tidy_init rfl⟩
  | iterate game synced later log past heard segments read chunk tick status turn run running terminal sync complete step
      taken ih =>
    have inside : read ++ game.world.keyboard <:+: keyboard := by
      rw [ih.whole]
      exact (List.suffix_append _ _).isInfix
    obtain ⟨_,_,_,_,chunk',polled,cut,attended⟩ := ih.attended.poll (short.inside inside) tick.poll tick.read terminal
    obtain ⟨up,poll⟩ := iterate_terminal tick status game.world synced later turn sync step
    cases polled.symm.trans poll
    obtain rfl := List.append_cancel_right (cut.symm.trans taken)
    have told := attended.told
    rw [told] at attended
    refine ⟨?_,ih.sessions,?_,attended⟩
    · rw [List.append_assoc,← taken]
      exact ih.whole
    · rw [ih.calls,List.append_assoc,told]
  | reload game opened log past heard segments read library calibration run stopped stays started ih =>
    subst started
    refine ⟨?_,?_,?_,ih.attended.shutdown⟩
    · rw [List.flatten_append,List.flatten_singleton,List.append_assoc]
      exact ih.whole
    · rw [List.length_append,List.length_append,ih.sessions]
      rfl
    · rw [ih.calls,List.flatMap_append,List.flatMap_singleton]
      exact (List.append_nil _).symm
  | serverRead game log past heard segments read writes server toServer poll count run idle step ih =>
    exact ⟨ih.whole,ih.sessions,ih.calls,ih.attended⟩
  | serverWrite game log past heard segments read bytes more toClient write run next step ih =>
    exact ⟨ih.whole,ih.sessions,ih.calls,ih.attended⟩

/-- The lines that are recorded of what was read. -/
def commandsOf (read : List Byte) : List (List Byte) := (split newline read).1.filter fun line => firstByte line ≠ 33

theorem typed_lines (read : List Byte) : typed (linesOf read) = commandsOf read := by
  unfold typed linesOf commandsOf
  rw [List.filter_map,List.map_map]
  exact List.map_id' _

theorem typed_segments (segments : List (List Byte)) : typed (segments.flatMap linesOf) = segments.flatMap commandsOf := by
  induction segments with
  | nil => rfl
  | cons read segments ih => rw [List.flatMap_cons,List.flatMap_cons,typed_append,typed_lines,ih]

/-- From the keyboard to the turns: the sessions read the keyboard one behind the other, and
the commands that are executed are the lines of what each has read, in order, with
fillers between them. Nothing else is lost than what a session has read of a line that
is not finished at its end. -/
theorem typed_executed (short : Short keyboard) (played : Played framerate keyboard game log past heard segments read) :
    keyboard = (segments ++ [read]).flatten ++ game.world.keyboard ∧ segments.length = past.length ∧
      ∃ lines, commands game.world.input = .ok lines ∧
        lines.filter (· ≠ []) = ((segments ++ [read]).flatMap commandsOf).filter (· ≠ []) ∧
        ∀ session ∈ past ++ [log], session.turns.flatMap Turn.commands <+: lines := by
  have state := played_heard short played
  obtain ⟨lines,done,recorded,same,front,mine,logged⟩ := run_logged framerate keyboard game log past heard (played_local played)
  refine ⟨?_,state.sessions,lines,commands_written _ _ recorded.written recorded.free,?_,?_⟩
  · rw [List.flatten_append,List.flatten_singleton,List.append_assoc]
    exact state.whole
  · rw [same,state.calls,typed_append,typed_segments,typed_lines,List.flatMap_append,List.flatMap_singleton]
  · intro session member
    rcases eq_or_ne session.turns [] with none | some
    · simp [none]
    · exact (logged_commands session done (logged session member) mine some).2.2.trans front

theorem io_silent (conn : Connection) (wire : List Byte) (read : Read) (up : conn.clientEp = endpointFromFd) :
    connectionIo conn wire (.revents 0) read = .ok (false,conn,wire) := by
  have same : {conn with clientEp := endpointFromFd} = conn := by rw [← up]
  unfold connectionIo
  rw [up]
  change Except.ok (false,{conn with clientEp := endpointFromFd},wire) = _
  rw [same]

theorem one_line (n : Nat) : newline ∉ (([65,10] : List Byte).take n).dropLast := by
  rcases n with _ | _ | n
  · decide
  · decide
  · rw [List.take_of_length_le (by simp)]
    decide

/-- The player's first line is read when a turn has been executed; then the server is gone. -/
theorem typed_behind_turn : ∃ (game : LocalGame Unit) (log : SessionLog Unit) (past : List (SessionLog Unit))
    (heard : List Event), Played 1 [65,10] game log past heard [[]] [65,10] ∧ log.turns = [⟨0,0,[[]],false⟩] ∧
      [65,10] = ([[]] ++ [[65,10]] : List (List Byte)).flatten ++ game.world.keyboard ∧ [([] : List Byte)].length = past.length ∧
        ∃ lines, commands game.world.input = .ok lines ∧
          lines.filter (· ≠ []) = (([[]] ++ [[65,10]] : List (List Byte)).flatMap commandsOf).filter (· ≠ []) ∧
          ∀ session ∈ past ++ [log], session.turns.flatMap Turn.commands <+: lines := by
  obtain ⟨world,server,log,past,heard,k,_,played,unread,few,connected,quiet,running,_,target,_,turns,_⟩ :=
    blank_executed sumLibrary ⟨1,0,0⟩ [65,10]
  let tick : Tick := {Progress.quietTick [] [] with
    poll := .revents pollIn, read := .upto 2, kernel := ⟨.revents 0,.upto 0,Progress.fullWrites⟩}
  have short : Short [65,10] := ⟨by decide,fun text within _ => Nat.lt_of_le_of_lt within.length_le (by decide)⟩
  have attended := (played_heard short played).attended
  have low : 0 ≤ world.stdin.usedBuf := attended.tidy.low
  have used : world.stdin.usedBuf = 0 := by
    have front : (world.stdin.buf.take world.stdin.usedBuf.toNat).length = _ := congrArg List.length attended.front
    have none : (split newline ([] : List Byte)).2.length = 0 := rfl
    rw [none,List.length_take,world.stdin.sized] at front
    omega
  obtain ⟨gathered,gathering⟩ := (gather_total tick world _ connected.recorded (by rw [used]; decide)
    (by rw [encode_empty,target]; unfold bufLen; omega)).mpr fun _ _ _ _ _ _ => low
  obtain ⟨kept,_⟩ := gather_gathered tick world gathered _ connected.recorded gathering
  have up : gathered.conn.clientEp = endpointFromFd := by
    rw [kept.conn]
    exact connected.up
  have sync : syncStep tick world = .ok (.term,gathered) := by
    rw [syncStep,gathering,ok_bind]
    dsimp only
    rw [connectionSync,io_silent gathered.conn _ _ up]
    rfl
  have step : advance tick .term gathered =
      .ok (some ({gathered with loop := loopHalt gathered.loop, exiting := true},none)) := rfl
  obtain ⟨up,poll⟩ := iterate_terminal tick .term world gathered _ none sync step
  have read : gathered.keyboard = [] := by
    rw [unread] at poll
    obtain ⟨received,_,same⟩ := (bind_ok _ _ _).mp poll
    have left := congrArg (fun answer => answer.2.2.1) (Except.ok.inj same)
    dsimp only at left
    rw [← left,used]
    rfl
  have terminal : Terminal world.stdin world.keyboard (.upto 2) := ⟨2,rfl,by rw [unread]; exact one_line _⟩
  have run := Played.iterate ⟨world,server,[]⟩ gathered _ log past heard [[]] [] [65,10] tick .term none played running
    terminal sync (by rw [kept.conn]; exact quiet) step (by rw [unread,read]; rfl)
  have same : (log.after .term world gathered {gathered with loop := loopHalt gathered.loop, exiting := true} none).turns =
      log.turns := List.append_nil _
  exact ⟨_,_,_,_,run,same.trans turns,typed_executed short run⟩

end Games

end Craftsman.Keyboard
