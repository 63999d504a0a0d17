import Craftsman.Demultiplex
import Craftsman.NetworkServer

/-! The single-player pipeline: the client appends commands to its record and
sends them, the server echoes them as frames, and the client stores what comes
back. The two parties and the two channels between them take their steps in any order. -/
namespace Craftsman.Echo
open Craftsman.Memory Craftsman.Recording Craftsman.CommandLog Craftsman.Network Craftsman.Client
open Craftsman.NetworkServer Craftsman.Frames Craftsman.Demultiplex
open Craftsman.Stream.Delimited

structure Pipeline where
  input : RecordRW
  toServer : List Byte
  server : Server
  /-- The writes the server still has to make before it reads again. -/
  pending : List (List Byte)
  toClient : List Byte
  conn : Connection
  gameRecord : Recordings

def Pipeline.initial : Pipeline where
  input := {RecordRW.empty with record := some recordAlloc}
  toServer := []
  server := .initial
  pending := []
  toClient := []
  conn := .initial
  gameRecord := fun _ => .empty

/-- The runs in which `appended` are the commands recorded so far, each of at
most `bound` bytes, and every write completes. -/
inductive Run (bound : Nat) : List (List Byte) → Pipeline → Prop
  | start : Run bound [] .initial
  | append (appended p text record closed write) (run : Run bound appended p) (nulFree : 0 ∉ text)
      (short : text.length ≤ bound) (present : p.input.record = some record)
      (step : recordAppend text.length text record p.input.write = .ok (closed,write)) :
      Run bound (appended ++ [text]) {p with input := {p.input with record := some closed, write := write}}
  | send (appended p conn input toServer) (write : Write) (run : Run bound appended p)
      (step : connectionSend p.conn p.input p.toServer write = .ok (some (conn,input,toServer)))
      (complete : conn.buffering = false) :
      Run bound appended {p with conn := conn, input := input, toServer := toServer}
  | serverRead (appended p writes server toServer) (poll : Poll) (count : Nat) (run : Run bound appended p)
      (idle : p.pending = [])
      (step : serverRound p.server p.toServer poll (.upto count) = .ok (some (writes,server),toServer)) :
      Run bound appended {p with server := server, toServer := toServer, pending := writes}
  | serverWrite (appended p bytes more toClient) (write : Write) (run : Run bound appended p)
      (next : p.pending = bytes::more)
      (step : networkWrite p.toClient bytes write = (some bytes.length,toClient)) :
      Run bound appended {p with pending := more, toClient := toClient}
  | io (appended p conn toClient up) (poll : Poll) (read : Read) (run : Run bound appended p)
      (step : connectionIo p.conn p.toClient poll read = .ok (up,conn,toClient)) :
      Run bound appended {p with conn := conn, toClient := toClient}
  | processing (appended p result conn gameRecord) (run : Run bound appended p)
      (step : connectionProcessing p.conn p.gameRecord = .ok (result,conn,gameRecord)) :
      Run bound appended {p with conn := conn, gameRecord := gameRecord}

def Pipeline.sent (p : Pipeline) (appended : List (List Byte)) : List (List Byte) :=
  appended.take p.input.read.commandCount

/-- Where every sent command is: the frames `done` are stored, the frames `rest`
are on the way down, and the bytes of what the server did not echo are on the way up. -/
structure Echoing (bound : Nat) (appended : List (List Byte)) (p : Pipeline) (done rest : List Frame) : Prop where
  input : Written p.input appended
  present : p.input.record ≠ none
  reads : Cursor appended p.input.read.commandCount p.input.read
  legal : ∀ text ∈ appended, 0 ∉ text ∧ text.length ≤ bound
  inside : p.server.usedReceiveBuffer ≤ 4096
  unclosed : 0 ∉ p.server.received
  upstream : encode 0 ((done ++ rest).map Frame.text) ++ (p.server.received ++ p.toServer) =
    encode 0 (p.sent appended)
  downstream : Demux p.conn p.gameRecord (p.toClient ++ p.pending.flatten) done rest
  echoed : ∀ frame ∈ done ++ rest, frame.player = 0

theorem networkWrite_complete (wire bytes after : List Byte) (write : Write)
    (step : networkWrite wire bytes write = (some bytes.length,after)) : after = wire ++ bytes := by
  cases write with
  | failed errno => simp [networkWrite] at step
  | upto count =>
    simp only [networkWrite,Prod.mk.injEq,Option.some.injEq,List.length_take] at step
    obtain ⟨count,rfl⟩ := step
    rw [List.take_of_length_le (by omega)]

theorem send_ok (conn after : Connection) (input read : RecordRW) (wire left : List Byte) (write : Write)
    (log : List (List Byte)) (k : Nat) (written : Written input log) (free : Free 0 log)
    (cursor : Cursor log k input.read) (complete : after.buffering = false)
    (step : connectionSend conn input wire write = .ok (some (after,read,left))) :
    ∃ (more : k < log.length) (next : RecordOffset), left = wire ++ (log[k] ++ [0]) ∧ Cursor log (k+1) next ∧
      read = {input with read := next} ∧ after = {conn with buffering := false} := by
  have there : input.record ≠ none := by
    intro absent
    simp [connectionSend,absent] at step
  obtain ⟨record,present⟩ := Option.ne_none_iff_exists'.mp there
  rcases send_reads conn input wire write record log k present (written.holds record present) free cursor with
    ⟨more,next,moved,send⟩ | ⟨_,ended⟩
  · cases send.symm.trans step
    rw [Bool.or_eq_false_iff,bne_eq_false_iff_eq] at complete
    obtain ⟨quiet,all⟩ := complete
    refine ⟨more,next,networkWrite_complete _ _ _ _ (Prod.ext all rfl),moved,rfl,?_⟩
    simp [quiet,all]
  · cases ended.symm.trans step

theorem echo_frames (texts : List (List Byte)) (legal : ∀ text ∈ texts, 0 ∉ text ∧ text.length + 9 < 2^31) :
    ∃ frames : List Frame, frames.map Frame.text = texts ∧ (∀ frame ∈ frames, frame.player = 0) ∧
      (texts.flatMap messageWrites).flatten = wire frames := by
  induction texts with
  | nil => exact ⟨[],rfl,by simp,rfl⟩
  | cons text rest ih =>
    obtain ⟨frames,same,players,bytes⟩ := ih fun other member => legal other (by simp [member])
    obtain ⟨nulFree,encodable⟩ := legal text (by simp)
    refine ⟨⟨0,text,nulFree,encodable⟩::frames,by simp [same],by simpa using players,?_⟩
    rw [List.flatMap_cons,List.flatten_append,bytes,wire_cons]
    simp [messageWrites,Frame.bytes,Frame.header]

theorem demux_extend (conn : Connection) (recording : Recordings) (incoming : List Byte) (done rest frames : List Frame)
    (demux : Demux conn recording incoming done rest) :
    Demux conn recording (incoming ++ wire frames) done (rest ++ frames) := by
  refine ⟨demux.low,demux.high,?_,demux.written,demux.messages,demux.bytes⟩
  rw [wire_append,← demux.unread,List.append_assoc]

theorem frames_free (frames : List Frame) : Free 0 (frames.map Frame.text) := by
  intro text member
  obtain ⟨frame,_,rfl⟩ := List.mem_map.mp member
  exact frame.nulFree

theorem echoing_start (bound : Nat) : Echoing bound [] .initial [] [] := by
  refine ⟨written_empty.alloc rfl,by simp [Pipeline.initial],cursor_zero [],by simp,(by decide : 0 ≤ 4096),?_,rfl,
    ⟨Int.le_refl _,(by decide : (0 : Int) ≤ 4096),rfl,fun _ => written_empty,fun _ => rfl,fun _ => rfl⟩,by simp⟩
  exact List.not_mem_nil

section Steps
variable {bound : Nat} {appended : List (List Byte)} {p : Pipeline} {done rest : List Frame}

theorem Echoing.free (echoing : Echoing bound appended p done rest) : Free 0 appended :=
  fun text member => (echoing.legal text member).1

theorem Echoing.append (echoing : Echoing bound appended p done rest) (text : List Byte)
    (record closed : Record) (write : RecordOffset) (nulFree : 0 ∉ text) (short : text.length ≤ bound)
    (present : p.input.record = some record)
    (step : recordAppend text.length text record p.input.write = .ok (closed,write)) :
    Echoing bound (appended ++ [text]) {p with input := {p.input with record := some closed, write := write}}
      done rest := by
  refine ⟨echoing.input.append _ _ _ _ present step,by simp,echoing.reads.append [text],?_,
    echoing.inside,echoing.unclosed,?_,echoing.downstream,echoing.echoed⟩
  · intro other member
    rcases List.mem_append.mp member with earlier | last
    · exact echoing.legal other earlier
    · rw [List.mem_singleton] at last
      exact last ▸ ⟨nulFree,short⟩
  · rw [Pipeline.sent,List.take_append_of_le_length echoing.reads.inside]
    exact echoing.upstream

theorem Echoing.send (echoing : Echoing bound appended p done rest) (conn : Connection) (input : RecordRW)
    (toServer : List Byte) (write : Write)
    (step : connectionSend p.conn p.input p.toServer write = .ok (some (conn,input,toServer)))
    (complete : conn.buffering = false) :
    Echoing bound appended {p with conn := conn, input := input, toServer := toServer} done rest := by
  obtain ⟨more,next,rfl,cursor,rfl,rfl⟩ :=
    send_ok _ _ _ _ _ _ _ _ _ echoing.input echoing.free echoing.reads complete step
  have downstream := echoing.downstream
  refine ⟨echoing.input.read next,echoing.present,?_,echoing.legal,echoing.inside,echoing.unclosed,?_,
    ⟨downstream.low,downstream.high,downstream.unread,downstream.written,downstream.messages,downstream.bytes⟩,
    echoing.echoed⟩
  · rw [cursor.commands]
    exact cursor
  · rw [Pipeline.sent,cursor.commands,encode_take_succ 0 appended _ more]
    have upstream := echoing.upstream
    rw [Pipeline.sent] at upstream
    rw [← upstream]
    simp only [List.append_assoc]

theorem Echoing.serverRead (echoing : Echoing bound appended p done rest) (small : bound + 9 < 2^31)
    (writes : List (List Byte)) (server : Server) (toServer : List Byte) (poll : Poll) (count : Nat)
    (idle : p.pending = [])
    (step : serverRound p.server p.toServer poll (.upto count) = .ok (some (writes,server),toServer)) :
    ∃ frames, Echoing bound appended {p with server := server, toServer := toServer, pending := writes}
      done (rest ++ frames) := by
  obtain ⟨got,up,rfl,tail,inside⟩ := serverRound_ok _ _ _ _ _ _ _ echoing.inside echoing.unclosed step
  have halves := split_wire 0 (p.server.received ++ got)
  obtain ⟨closed,unclosed⟩ := split_free 0 (p.server.received ++ got)
  have upstream : encode 0 ((done ++ rest).map Frame.text ++ (split 0 (p.server.received ++ got)).1) ++
      ((split 0 (p.server.received ++ got)).2 ++ toServer) = encode 0 (p.sent appended) := by
    rw [encode_append,List.append_assoc,← List.append_assoc (encode 0 (split 0 _).1),halves,
      List.append_assoc,← up]
    exact echoing.upstream
  -- what the server closes was sent, so it is one of the recorded commands
  have known : ∀ text ∈ (split 0 (p.server.received ++ got)).1, 0 ∉ text ∧ text.length ≤ bound := by
    have before := prefix_of_encode 0 _ _ _ ((frames_free (done ++ rest)).append closed) (echoing.free.take _) upstream
    intro text member
    have sent := before.subset (List.mem_append_right _ member)
    exact echoing.legal text (List.mem_of_mem_take sent)
  obtain ⟨frames,same,players,bytes⟩ := echo_frames _ fun text member =>
    ⟨(known text member).1,Nat.lt_of_le_of_lt (Nat.add_le_add_right (known text member).2 9) small⟩
  refine ⟨frames,echoing.input,echoing.present,echoing.reads,echoing.legal,inside,?_,?_,?_,?_⟩
  · rw [tail]
    exact unclosed
  · rw [← List.append_assoc done,List.map_append,same,tail]
    exact upstream
  · have downstream := demux_extend _ _ _ _ _ frames echoing.downstream
    rw [idle,List.flatten_nil,List.append_nil,← bytes] at downstream
    exact downstream
  · intro frame member
    rw [← List.append_assoc] at member
    rcases List.mem_append.mp member with earlier | last
    · exact echoing.echoed frame earlier
    · exact players frame last

theorem Echoing.serverWrite (echoing : Echoing bound appended p done rest) (bytes toClient : List Byte)
    (more : List (List Byte)) (write : Write) (next : p.pending = bytes::more)
    (step : networkWrite p.toClient bytes write = (some bytes.length,toClient)) :
    Echoing bound appended {p with pending := more, toClient := toClient} done rest := by
  have downstream := echoing.downstream
  rw [next,List.flatten_cons,← List.append_assoc,← networkWrite_complete _ _ _ _ step] at downstream
  exact ⟨echoing.input,echoing.present,echoing.reads,echoing.legal,echoing.inside,echoing.unclosed,
    echoing.upstream,downstream,echoing.echoed⟩

theorem Echoing.io (echoing : Echoing bound appended p done rest) (conn : Connection) (toClient : List Byte)
    (up : Bool) (poll : Poll) (read : Read) (step : connectionIo p.conn p.toClient poll read = .ok (up,conn,toClient)) :
    Echoing bound appended {p with conn := conn, toClient := toClient} done rest :=
  ⟨echoing.input,echoing.present,echoing.reads,echoing.legal,echoing.inside,echoing.unclosed,
    echoing.upstream,io_demux _ _ _ _ _ _ _ _ _ _ _ echoing.downstream step,echoing.echoed⟩

theorem Echoing.processing (echoing : Echoing bound appended p done rest) (result : Bool) (conn : Connection)
    (gameRecord : Recordings) (step : connectionProcessing p.conn p.gameRecord = .ok (result,conn,gameRecord)) :
    ∃ now later, rest = now ++ later ∧
      Echoing bound appended {p with conn := conn, gameRecord := gameRecord} (done ++ now) later := by
  obtain ⟨now,later,cut,moved,_,_⟩ := processing_demux _ _ _ _ _ _ _ _ echoing.downstream step
  have upstream := echoing.upstream
  have echoed := echoing.echoed
  rw [cut,← List.append_assoc done now later] at upstream echoed
  exact ⟨now,later,cut,echoing.input,echoing.present,echoing.reads,echoing.legal,echoing.inside,
    echoing.unclosed,upstream,moved,echoed⟩

end Steps

theorem run_echoing (bound : Nat) (appended : List (List Byte)) (p : Pipeline) (small : bound + 9 < 2^31)
    (run : Run bound appended p) : ∃ done rest, Echoing bound appended p done rest := by
  induction run with
  | start => exact ⟨[],[],echoing_start bound⟩
  | append appended p text record closed write run nulFree short present step ih =>
    obtain ⟨done,rest,echoing⟩ := ih
    exact ⟨done,rest,echoing.append text record closed write nulFree short present step⟩
  | send appended p conn input toServer write run step complete ih =>
    obtain ⟨done,rest,echoing⟩ := ih
    exact ⟨done,rest,echoing.send conn input toServer write step complete⟩
  | serverRead appended p writes server toServer poll count run idle step ih =>
    obtain ⟨done,rest,echoing⟩ := ih
    obtain ⟨frames,echoing⟩ := echoing.serverRead small writes server toServer poll count idle step
    exact ⟨done,rest ++ frames,echoing⟩
  | serverWrite appended p bytes more toClient write run next step ih =>
    obtain ⟨done,rest,echoing⟩ := ih
    exact ⟨done,rest,echoing.serverWrite bytes toClient more write next step⟩
  | io appended p conn toClient up poll read run step ih =>
    obtain ⟨done,rest,echoing⟩ := ih
    exact ⟨done,rest,echoing.io conn toClient up poll read step⟩
  | processing appended p result conn gameRecord run step ih =>
    obtain ⟨done,rest,echoing⟩ := ih
    obtain ⟨now,later,_,echoing⟩ := echoing.processing result conn gameRecord step
    exact ⟨done ++ now,later,echoing⟩

theorem send_succeeds (conn : Connection) (input : RecordRW) (wire : List Byte) (log : List (List Byte)) (k count : Nat)
    (written : Written input log) (present : input.record ≠ none) (free : Free 0 log) (cursor : Cursor log k input.read)
    (more : k < log.length) (whole : log[k].length + 1 ≤ count) :
    ∃ next, connectionSend conn input wire (.upto count) =
      .ok (some (conn,{input with read := next},wire ++ (log[k] ++ [0]))) := by
  obtain ⟨record,found⟩ := Option.ne_none_iff_exists'.mp present
  have all : (log[k] ++ [0]).take count = log[k] ++ [0] := List.take_of_length_le (by simpa using whole)
  rcases send_reads conn input wire (.upto count) record log k found (written.holds record found) free cursor with
    ⟨_,next,_,send⟩ | ⟨last,_⟩
  · refine ⟨next,?_⟩
    rw [send]
    simp [networkWrite,all]
  · omega

theorem echo_one (bound : Nat) (text : List Byte) (nulFree : 0 ∉ text) (short : text.length ≤ bound)
    (small : text.length + 1 ≤ 4096) : ∃ (p : Pipeline) (frame : Frame), Run bound [text] p ∧ frame.text = text ∧
      p.toClient = frame.bytes ∧ p.conn = .initial ∧ p.gameRecord = fun _ => .empty := by
  obtain ⟨closed,write,append⟩ := append_succeeds recordAlloc [] text .zero holds_alloc (cursor_zero [])
    small (by simp; omega)
  have run := Run.append _ _ _ _ _ _ .start nulFree short rfl append
  have free : Free 0 [text] := by simpa [Free] using nulFree
  have written := (written_empty.alloc rfl).append _ _ _ _ rfl append
  obtain ⟨next,send⟩ := send_succeeds Connection.initial _ [] [text] 0 (text.length + 1) written (by simp) free
    (cursor_zero _) (by simp) (Nat.le_refl _)
  have run := Run.send _ _ _ _ _ _ run send rfl
  have start : Server.initial.usedReceiveBuffer = 0 := rfl
  obtain ⟨writes,server,read⟩ := serverRound_reads Server.initial ([] ++ (text ++ [0])) (text.length + 1)
    (by omega) (by simp) rfl
  obtain ⟨got,all,echoed,_⟩ := serverRound_ok _ _ _ _ _ _ _ (by omega) List.not_mem_nil read
  have whole : got = text ++ [0] := by simpa using all.symm
  have command := split_encode 0 [text] [] free List.not_mem_nil
  rw [encode_singleton,List.append_nil] at command
  have echo : writes = messageWrites text := by
    rw [echoed,whole]
    change (split 0 (text ++ [0])).1.flatMap messageWrites = _
    rw [command]
    simp
  have run := Run.serverRead _ _ _ _ _ _ _ run rfl read
  have run := Run.serverWrite _ _ _ _ _ _ run echo (networkWrite_full _ _)
  have run := Run.serverWrite _ _ _ _ _ _ run rfl (networkWrite_full _ _)
  have run := Run.serverWrite _ _ _ _ _ _ run rfl (networkWrite_full _ _)
  refine ⟨_,⟨0,text,nulFree,by omega⟩,run,rfl,?_,rfl,rfl⟩
  simp [Frame.bytes,Frame.header,Pipeline.initial]

theorem texts_all (frames : List Frame) (mine : ∀ frame ∈ frames, frame.player = 0) :
    texts 0 frames = frames.map Frame.text := by
  have all : frames.filter (fun frame => frame.player = 0) = frames :=
    List.filter_eq_self.mpr fun frame member => by simp [mine frame member]
  rw [texts,all]

theorem texts_none (player : Fin 4) (frames : List Frame) (other : player ≠ 0)
    (mine : ∀ frame ∈ frames, frame.player = 0) : texts player frames = [] := by
  have empty : frames.filter (fun frame => frame.player = player) = [] :=
    List.filter_eq_nil_iff.mpr fun frame member => by simp [mine frame member,Ne.symm other]
  rw [texts,empty,List.map_nil]

/-! Runs that can be computed: steps with the answers of the system given, every write taken whole. -/

inductive Move where
  | append (text : List Byte)
  | send
  | serverRead (count : Nat)
  | serverWrite
  | io (count : Nat)
  | processing

def Move.recorded : Move → List (List Byte)
  | .append text => [text]
  | _ => []

def Move.run (p : Pipeline) : Move → Option Pipeline
  | .append text => do
    let record ← p.input.record
    let (closed,write) ← (recordAppend text.length text record p.input.write).toOption
    return {p with input := {p.input with record := some closed, write := write}}
  | .send => do
    let sent ← (connectionSend p.conn p.input p.toServer (.upto (2^31))).toOption
    let (conn,input,toServer) ← sent
    if conn.buffering then none else some {p with conn := conn, input := input, toServer := toServer}
  | .serverRead count => do
    let (result,toServer) ← (serverRound p.server p.toServer (.revents pollIn) (.upto count)).toOption
    let (writes,server) ← result
    if p.pending = [] then some {p with server := server, toServer := toServer, pending := writes} else none
  | .serverWrite =>
    match p.pending with
    | [] => none
    | bytes::more => some {p with pending := more, toClient := p.toClient ++ bytes}
  | .io count => do
    let (_,conn,toClient) ← (connectionIo p.conn p.toClient (.revents (pollIn ||| pollOut)) (.upto count)).toOption
    return {p with conn := conn, toClient := toClient}
  | .processing => do
    let (_,conn,gameRecord) ← (connectionProcessing p.conn p.gameRecord).toOption
    return {p with conn := conn, gameRecord := gameRecord}

theorem toOption_ok {α : Type} (answer : Except Stop α) (a : α) (found : answer.toOption = some a) : answer = .ok a := by
  cases answer with
  | error stop => cases found
  | ok b =>
    cases found
    rfl

theorem move_run (bound : Nat) (appended : List (List Byte)) (p q : Pipeline) (move : Move) (run : Run bound appended p)
    (legal : ∀ text ∈ move.recorded, 0 ∉ text ∧ text.length ≤ bound) (ok : move.run p = some q) :
    Run bound (appended ++ move.recorded) q := by
  cases move with
  | append text =>
    obtain ⟨record,present,ok⟩ := Option.bind_eq_some_iff.mp ok
    obtain ⟨⟨closed,write⟩,append,same⟩ := Option.bind_eq_some_iff.mp ok
    cases same
    obtain ⟨nulFree,short⟩ := legal text List.mem_cons_self
    exact .append _ _ _ _ _ _ run nulFree short present (toOption_ok _ _ append)
  | send =>
    obtain ⟨sent,send,rest⟩ := Option.bind_eq_some_iff.mp ok
    obtain ⟨⟨conn,input,toServer⟩,rfl,last⟩ := Option.bind_eq_some_iff.mp rest
    dsimp only at last
    change Run bound (appended ++ []) _
    rw [List.append_nil]
    split at last
    · cases last
    · next complete =>
      cases last
      exact .send _ _ _ _ _ _ run (toOption_ok _ _ send) (Bool.eq_false_iff.mpr complete)
  | serverRead count =>
    obtain ⟨⟨result,toServer⟩,round,rest⟩ := Option.bind_eq_some_iff.mp ok
    obtain ⟨⟨writes,server⟩,rfl,last⟩ := Option.bind_eq_some_iff.mp rest
    dsimp only at last
    change Run bound (appended ++ []) _
    rw [List.append_nil]
    split at last
    · next idle =>
      cases last
      exact .serverRead _ _ _ _ _ _ _ run idle (toOption_ok _ _ round)
    · cases last
  | serverWrite =>
    change Run bound (appended ++ []) _
    rw [List.append_nil]
    dsimp only [Move.run] at ok
    split at ok
    · cases ok
    · next next =>
      cases ok
      exact .serverWrite _ _ _ _ _ _ run next (networkWrite_full _ _)
  | io count =>
    obtain ⟨⟨up,conn,toClient⟩,io,same⟩ := Option.bind_eq_some_iff.mp ok
    cases same
    change Run bound (appended ++ []) _
    rw [List.append_nil]
    exact .io _ _ _ _ _ _ _ run (toOption_ok _ _ io)
  | processing =>
    obtain ⟨⟨result,conn,gameRecord⟩,processing,same⟩ := Option.bind_eq_some_iff.mp ok
    cases same
    change Run bound (appended ++ []) _
    rw [List.append_nil]
    exact .processing _ _ _ _ _ run (toOption_ok _ _ processing)

theorem moves_run (bound : Nat) (appended : List (List Byte)) (p q : Pipeline) (moves : List Move)
    (run : Run bound appended p)
    (legal : ∀ text ∈ moves.flatMap Move.recorded, 0 ∉ text ∧ text.length ≤ bound)
    (ok : moves.foldlM Move.run p = some q) : Run bound (appended ++ moves.flatMap Move.recorded) q := by
  induction moves generalizing appended p with
  | nil =>
    cases ok
    rw [List.flatMap_nil,List.append_nil]
    exact run
  | cons move moves ih =>
    rw [List.foldlM_cons] at ok
    obtain ⟨middle,first,rest⟩ := Option.bind_eq_some_iff.mp ok
    rw [List.flatMap_cons] at legal
    rw [List.flatMap_cons,← List.append_assoc]
    exact ih _ middle (move_run bound appended p middle move run
      (fun text member => legal text (List.mem_append_left _ member)) first)
      (fun text member => legal text (List.mem_append_right _ member)) rest

/-- Two commands through the server and back: the first decoding opens the record, the second stores both. -/
def twoMoves : List Move :=
  [.append [65],.append [66,67],.send,.send,.serverRead 100,.serverWrite,.serverWrite,.serverWrite,.serverWrite,
    .serverWrite,.serverWrite,.io 100,.processing,.processing]

/-- The stored commands are the first ones sent, whatever the interleaving. -/
theorem echo_in_order (appended : List (List Byte)) (p : Pipeline) (run : Run 4087 appended p) :
    commands p.input = .ok appended ∧ ∃ stored, commands (p.gameRecord 0) = .ok stored ∧
      stored <+: p.sent appended ∧ (p.gameRecord 0).write.commandCount = stored.length ∧
      ∀ i, i ≠ 0 → commands (p.gameRecord i) = .ok [] := by
  obtain ⟨done,rest,echoing⟩ := run_echoing 4087 appended p (by decide) run
  have free : Free 0 appended := echoing.free
  have mine : ∀ frame ∈ done, frame.player = 0 := fun frame member =>
    echoing.echoed frame (List.mem_append_left _ member)
  have stored := echoing.downstream.written 0
  rw [texts_all done mine] at stored
  refine ⟨commands_written _ _ echoing.input free,done.map Frame.text,
    commands_written _ _ stored (frames_free done),?_,stored.cursor.commands,?_⟩
  · have echoed := prefix_of_encode 0 _ _ _ (frames_free (done ++ rest)) (free.take _) echoing.upstream
    rw [List.map_append] at echoed
    exact (List.prefix_append _ _).trans echoed
  · intro i other
    have empty := echoing.downstream.written i
    rw [texts_none i done other mine] at empty
    exact commands_written _ _ empty (by simp [Free])

theorem echo_in_order_two : ∃ p, Run 4087 [[65],[66,67]] p ∧ commands p.input = .ok [[65],[66,67]] ∧
    commands (p.gameRecord 0) = .ok [[65],[66,67]] ∧ p.sent [[65],[66,67]] = [[65],[66,67]] := by
  have counts : (twoMoves.foldlM Move.run .initial).map (fun p => ((p.gameRecord 0).write.commandCount,
      p.input.read.commandCount)) = some (2,2) := by decide +kernel
  obtain ⟨p,moves,same⟩ := Option.map_eq_some_iff.mp counts
  obtain ⟨stored_two,sent_two⟩ := Prod.mk.inj same
  have run := moves_run 4087 [] .initial p twoMoves .start (by decide) moves
  obtain ⟨input,stored,all,before,count,_⟩ := echo_in_order [[65],[66,67]] p run
  have sent : p.sent [[65],[66,67]] = [[65],[66,67]] := by
    rw [Pipeline.sent,sent_two]
    rfl
  rw [sent] at before
  have whole : stored = [[65],[66,67]] := before.eq_of_length (count.symm.trans stored_two)
  exact ⟨p,run,input,by rw [all,whole],sent⟩

theorem send_buffering (conn after : Connection) (input read : RecordRW) (wire left : List Byte) (write : Write)
    (step : connectionSend conn input wire write = .ok (some (after,read,left)))
    (complete : after.buffering = false) : conn.buffering = false := by
  unfold connectionSend at step
  split at step
  · cases step
  · obtain ⟨⟨cmd,next⟩,_,step⟩ := (bind_ok _ _ _).mp step
    cases cmd with
    | none => cases step
    | some cmd =>
      cases step
      exact (Bool.or_eq_false_iff.mp complete).1

theorem sendLoop_buffering (target : Nat) (writes : Nat → Write) (fuel k : Nat) (conn after : Connection)
    (input read : RecordRW) (wire left : List Byte) (status : ConnStatus)
    (step : sendLoop target writes fuel k conn input wire = .ok (status,after,read,left))
    (complete : after.buffering = false) : conn.buffering = false := by
  induction fuel generalizing k conn input wire with
  | zero =>
    cases step
    exact complete
  | succ fuel ih =>
    unfold sendLoop at step
    split at step
    · obtain ⟨sent,send,step⟩ := (bind_ok _ _ _).mp step
      cases sent with
      | none =>
        cases step
        exact complete
      | some sent => exact send_buffering _ _ _ _ _ _ _ send (ih _ _ _ _ step)
    · cases step
      exact complete

theorem sendLoop_run (bound target : Nat) (appended : List (List Byte)) (writes : Nat → Write) (fuel k : Nat)
    (p : Pipeline) (conn : Connection) (input : RecordRW) (left : List Byte) (status : ConnStatus)
    (run : Run bound appended p)
    (step : sendLoop target writes fuel k p.conn p.input p.toServer = .ok (status,conn,input,left))
    (complete : conn.buffering = false) :
    Run bound appended {p with input := input, toServer := left, conn := conn} := by
  induction fuel generalizing k p with
  | zero =>
    cases step
    exact run
  | succ fuel ih =>
    unfold sendLoop at step
    split at step
    · obtain ⟨sent,send,step⟩ := (bind_ok _ _ _).mp step
      cases sent with
      | none =>
        cases step
        exact run
      | some sent =>
        obtain ⟨middle,read,toServer⟩ := sent
        have quiet := sendLoop_buffering _ _ _ _ _ _ _ _ _ _ _ step complete
        have next := Run.send _ _ _ _ _ _ run send quiet
        exact ih (k+1) {p with conn := middle, input := read, toServer := toServer} next step
    · cases step
      exact run

/-- A whole synchronization is a run of the steps above. -/
theorem sync_run (bound target : Nat) (appended : List (List Byte)) (p : Pipeline) (kernel : Kernel)
    (status : ConnStatus) (conn : Connection) (wires : Wires) (input : RecordRW) (gameRecord : Recordings)
    (run : Run bound appended p)
    (step : connectionSync target p.conn ⟨p.toClient,p.toServer⟩ p.input p.gameRecord kernel =
      .ok (status,conn,wires,input,gameRecord))
    (complete : conn.buffering = false) :
    Run bound appended {p with
      input := input, toServer := wires.outgoing, toClient := wires.incoming, conn := conn, gameRecord := gameRecord} := by
  obtain ⟨⟨up,read,incoming⟩,io,step⟩ := (bind_ok _ _ _).mp step
  have run := Run.io _ _ _ _ _ _ _ run io
  dsimp only at step
  split at step
  · cases step
    exact run
  · obtain ⟨⟨same,decoded,stored⟩,processing,step⟩ := (bind_ok _ _ _).mp step
    have run := Run.processing _ _ _ _ _ run processing
    dsimp only at step
    split at step
    · cases step
      exact run
    · obtain ⟨⟨_,_,_,_⟩,send,step⟩ := (bind_ok _ _ _).mp step
      cases step
      exact sendLoop_run _ _ _ _ _ _ _ _ _ _ _ run send complete

end Craftsman.Echo
