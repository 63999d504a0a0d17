import Craftsman.Progress
import Craftsman.Stream.Draining
import Craftsman.Wedge
import Mathlib.Data.Fintype.Card

/-! Whether what was sent arrives. A step of the pipeline that moves something lowers
a potential, and where none is left to take, every sent command is stored. So the
commands arrive in whatever order the parties go on, if only they go on. -/
namespace Craftsman.Delivery
open Craftsman.Memory Craftsman.Recording Craftsman.CommandLog Craftsman.Network Craftsman.Client
open Craftsman.NetworkServer Craftsman.Frames Craftsman.Demultiplex Craftsman.Echo Craftsman.Wedge
open Craftsman.Stream.Delimited Craftsman.Stream.Draining

/-- Neither socket has reported an error. -/
structure Alive (p : Pipeline) : Prop where
  client : p.conn.clientEp = endpointFromFd
  server : p.server.ep = endpointFromFd

/-- The steps of the pipeline that get something done: bytes are read or written,
frames are stored, or a record is opened for a player. -/
inductive Move (p : Pipeline) : Pipeline → Prop
  | serverRead (writes : List (List Byte)) (server : Server) (toServer : List Byte) (poll : Poll) (count : Nat)
      (idle : p.pending = [])
      (step : serverRound p.server p.toServer poll (.upto count) = .ok (some (writes,server),toServer))
      (read : toServer.length < p.toServer.length) (up : server.ep = endpointFromFd) :
      Move p {p with server := server, toServer := toServer, pending := writes}
  | serverWrite (bytes : List Byte) (more : List (List Byte)) (toClient : List Byte) (write : Write)
      (next : p.pending = bytes::more) (step : networkWrite p.toClient bytes write = (some bytes.length,toClient)) :
      Move p {p with pending := more, toClient := toClient}
  | io (conn : Connection) (toClient : List Byte) (result : Bool) (poll : Poll) (read : Read)
      (step : connectionIo p.conn p.toClient poll read = .ok (result,conn,toClient))
      (received : toClient.length < p.toClient.length) (up : conn.clientEp = endpointFromFd) :
      Move p {p with conn := conn, toClient := toClient}
  | processing (result : Bool) (conn : Connection) (gameRecord : Recordings)
      (step : connectionProcessing p.conn p.gameRecord = .ok (result,conn,gameRecord))
      (stored : conn.received.length < p.conn.received.length ∨ known gameRecord ≠ known p.gameRecord) :
      Move p {p with conn := conn, gameRecord := gameRecord}

section Potential

/-- A write of the server counts for itself and, twice, for its bytes. -/
def owed (writes : List (List Byte)) : Nat := (writes.map fun bytes => 1 + 2 * bytes.length).sum

def strangers (recording : Recordings) : Nat := (Finset.univ.filter fun i => known recording i = false).card

/-- A byte counts for more the further it has to go, and a NUL on its way up for the frame it closes. -/
def potential (p : Pipeline) : Nat :=
  4 * p.toServer.length + 36 * p.toServer.count 0 + 3 * p.server.received.length + owed p.pending +
    2 * p.toClient.length + p.conn.received.length + strangers p.gameRecord

theorem owed_messages (closed : List (List Byte)) :
    owed (closed.flatMap messageWrites) = 2 * (encode 0 closed).length + 19 * closed.length := by
  induction closed with
  | nil => rfl
  | cons text closed ih =>
    have header : (le32 (text.length + 1)).length = 4 := rfl
    have one : owed (messageWrites text) = 2 * (text.length + 1) + 19 := by
      simp only [owed,messageWrites,List.map_cons,List.map_nil,List.sum_cons,List.sum_nil,header,List.length_append,
        List.length_cons,List.length_nil]
      omega
    have parts : owed (messageWrites text ++ closed.flatMap messageWrites) =
        owed (messageWrites text) + owed (closed.flatMap messageWrites) := by
      rw [owed,List.map_append,List.sum_append]
      rfl
    rw [List.flatMap_cons,parts,one,ih,encode_cons,List.length_append,List.length_cons,List.length_cons]
    omega

theorem strangers_fewer (before after : Recordings) (player : Fin 4) (absent : known before player = false)
    (grown : known after = Function.update (known before) player true) : strangers after < strangers before := by
  apply Finset.card_lt_card
  rw [Finset.ssubset_iff_of_subset]
  · refine ⟨player,by simp [absent],?_⟩
    simp [grown]
  · intro i member
    rw [Finset.mem_filter,grown] at member
    rcases eq_or_ne i player with rfl | other
    · simp [absent]
    · rw [Function.update_of_ne other] at member
      exact Finset.mem_filter.mpr member

end Potential

section Moves
variable {appended : List (List Byte)} {p q : Pipeline} {done rest : List Frame}

theorem move_run (bound : Nat) (run : Run bound appended p) (move : Move p q) : Run bound appended q := by
  cases move with
  | serverRead writes server toServer poll count idle step read up =>
    exact .serverRead _ _ _ _ _ _ _ run idle step
  | serverWrite bytes more toClient write next step => exact .serverWrite _ _ _ _ _ _ run next step
  | io conn toClient result poll read step received up => exact .io _ _ _ _ _ _ _ run step
  | processing result conn gameRecord step stored => exact .processing _ _ _ _ _ run step

theorem processing_ep (conn after : Connection) (recording stored : Recordings) (result : Bool)
    (ok : connectionProcessing conn recording = .ok (result,after,stored)) : after.clientEp = conn.clientEp := by
  induction conn, recording using connectionProcessing.induct with
  | case1 conn recording stop round =>
    rw [processing_stops _ _ _ round] at ok
    cases ok
  | case2 conn recording ended last kept round =>
    rw [processing_done _ _ _ _ _ round] at ok
    cases ok
    rcases round_ok _ _ _ round with ⟨_,same⟩ | ⟨_,_,_,_,⟨_,same⟩ | ⟨_,_,_,_,_,same⟩⟩
    · cases same
      rfl
    · cases same
      rfl
    · cases same
  | case3 conn recording next moved round ih =>
    rw [processing_next _ _ _ _ round] at ok
    obtain ⟨_,_,_,ep⟩ := round_next _ _ _ _ round
    exact (ih ok).trans ep

theorem move_alive (alive : Alive p) (move : Move p q) : Alive q := by
  cases move with
  | serverRead writes server toServer poll count idle step read up => exact ⟨alive.client,up⟩
  | serverWrite bytes more toClient write next step => exact ⟨alive.client,alive.server⟩
  | io conn toClient result poll read step received up => exact ⟨up,alive.server⟩
  | processing result conn gameRecord step stored =>
    exact ⟨(processing_ep _ _ _ _ _ step).trans alive.client,alive.server⟩

theorem move_sent (move : Move p q) : q.input = p.input := by
  cases move <;> rfl

/-- Every move lowers the potential. -/
theorem move_lowers (echoing : Echoing 4087 appended p done rest) (move : Move p q) : potential q < potential p := by
  cases move with
  | serverRead writes server toServer poll count idle step read up =>
    obtain ⟨got,way,rfl,tail,_⟩ := serverRound_ok _ _ _ _ _ _ _ echoing.inside echoing.unclosed step
    have halves := congrArg List.length (split_wire 0 (p.server.received ++ got))
    have closes := split_count 0 (p.server.received ++ got)
    have unclosed := List.count_eq_zero.mpr echoing.unclosed
    rw [List.count_append,unclosed,Nat.zero_add] at closes
    have empty : owed p.pending = 0 := by rw [idle]; rfl
    simp only [List.length_append] at halves
    simp only [potential,owed_messages,tail,empty,way,List.length_append,List.count_append,closes]
    rw [way,List.length_append] at read
    omega
  | serverWrite bytes more toClient write next step =>
    have written := networkWrite_complete _ _ _ _ step
    have owes : owed p.pending = 1 + 2 * bytes.length + owed more := by rw [next]; rfl
    simp only [potential,owes,written,List.length_append]
    omega
  | io conn toClient result poll read step received up =>
    have before := congrArg List.length echoing.downstream.unread
    have after := congrArg List.length (io_demux _ _ _ _ _ _ _ _ _ _ _ echoing.downstream step).unread
    simp only [List.length_append] at before after
    simp only [potential]
    omega
  | processing result conn gameRecord step stored =>
    obtain ⟨now,later,cut,moved,ending,_⟩ := processing_demux _ _ _ _ _ _ _ _ echoing.downstream step
    have before := congrArg List.length echoing.downstream.unread
    have after := congrArg List.length moved.unread
    rw [cut,wire_append] at before
    simp only [List.length_append] at before after
    simp only [potential]
    cases ending with
    | drained _ same _ =>
      have kept : strangers gameRecord = strangers p.gameRecord := by rw [strangers,same]; rfl
      have fewer := stored.resolve_right fun changed => changed same
      omega
    | stopped frame more absent grown =>
      have opened := strangers_fewer _ _ frame.player absent grown
      omega

end Moves

section Processing

theorem round_total (conn : Connection) (recording : Recordings) (incoming : List Byte) (done rest : List Frame)
    (demux : Demux conn recording incoming done rest) (room : ∀ i, (encode 0 (texts i (done ++ rest))).length ≤ 2^31) :
    ∃ round, processingRound conn recording = .ok round := by
  by_cases short : conn.usedReceiveBuffer < 8
  · exact ⟨_,by rw [processingRound,if_pos short]⟩
  have received := received_length conn demux.high
  obtain ⟨frame,more,rfl⟩ := wire_head rest conn.received incoming
    (by rw [← List.length_pos_iff_ne_nil,received]; omega) demux.unread
  obtain ⟨_,_,length⟩ := demux.header (by omega)
  by_cases incomplete : conn.usedReceiveBuffer < conn.length
  · exact ⟨_,by rw [processingRound,if_neg short,if_pos incomplete]⟩
  have complete : frame.size ≤ conn.usedReceiveBuffer := by omega
  cases present : known recording frame.player with
  | false => exact ⟨_,Progress.round_opens conn recording incoming done more frame demux complete (by simpa [known] using present)⟩
  | true =>
    have bound := room frame.player
    have one : texts frame.player (frame::more) = frame.text::texts frame.player more := by simp [texts]
    rw [texts_append,one,encode_append,encode_cons,List.length_append,List.length_append,List.length_cons] at bound
    obtain ⟨after,stored,round,_⟩ := round_progress conn recording incoming done more frame demux complete present (by omega)
    exact ⟨_,round⟩

theorem processing_total (conn : Connection) (recording : Recordings) (incoming : List Byte) (done rest : List Frame)
    (demux : Demux conn recording incoming done rest) (room : ∀ i, (encode 0 (texts i (done ++ rest))).length ≤ 2^31) :
    ∃ result after stored, connectionProcessing conn recording = .ok (result,after,stored) := by
  induction conn, recording using connectionProcessing.induct generalizing done rest with
  | case1 conn recording stop round =>
    obtain ⟨other,fine⟩ := round_total conn recording incoming done rest demux room
    rw [round] at fine
    cases fine
  | case2 conn recording ended last kept round => exact ⟨_,_,_,processing_done _ _ _ _ _ round⟩
  | case3 conn recording next moved round ih =>
    rcases round_demux _ _ _ _ _ _ demux round with ⟨same,_⟩ | ⟨_,_,_,_,same⟩ | ⟨frame,more,_,_,rfl,_,same,after,_⟩
    · cases same
    · cases same
    · cases same
      obtain ⟨result,last,stored,rest⟩ := ih (done ++ [frame]) more after fun i => by rw [List.append_assoc]; exact room i
      exact ⟨result,last,stored,(processing_next _ _ _ _ round).trans rest⟩

/-- A call that finds a whole frame stores it, or opens a record for its player. -/
theorem processing_moves (conn after : Connection) (recording stored : Recordings) (incoming : List Byte) (done more : List Frame)
    (frame : Frame) (result : Bool) (demux : Demux conn recording incoming done (frame::more))
    (complete : frame.size ≤ conn.usedReceiveBuffer)
    (ok : connectionProcessing conn recording = .ok (result,after,stored)) :
    after.received.length < conn.received.length ∨ known stored ≠ known recording := by
  obtain ⟨now,later,cut,moved,ending,_⟩ := processing_demux _ _ _ _ _ _ _ _ demux ok
  cases ending with
  | drained _ _ incomplete =>
    refine .inl ?_
    have before := received_length conn demux.high
    have behind := received_length after moved.high
    cases now with
    | nil =>
      have same := demux.unread.trans ((congrArg wire cut).trans moved.unread.symm)
      have short := incomplete frame more cut.symm
      rw [List.append_cancel_right same] at before
      have low := demux.low
      have low' := moved.low
      omega
    | cons first now =>
      have whole := congrArg List.length demux.unread
      have left := congrArg List.length moved.unread
      rw [cut,wire_append,wire_cons] at whole
      simp only [List.length_append,bytes_length,Frame.size] at whole left
      omega
  | stopped frame _ absent grown =>
    refine .inr ?_
    intro same
    have here := congrFun grown frame.player
    rw [same,absent,Function.update_self] at here
    cases here

end Processing

section Settling
variable {appended : List (List Byte)} {p : Pipeline} {done rest : List Frame}

theorem serverRound_ep (server after : Server) (wire left : List Byte) (writes : List (List Byte)) (poll : Poll)
    (count : Nat) (ok : serverRound server wire poll (.upto count) = .ok (some (writes,after),left)) :
    after.ep = (networkPoll server.ep poll).1 := by
  unfold serverRound at ok
  split at ok
  · cases ok
  · dsimp only at ok
    split at ok
    · cases ok
    · split at ok
      · simp only [networkRead] at ok
        rcases ite_eq_iff.mp ok with ⟨_,same⟩ | ⟨_,ok⟩
        · cases same
        · obtain ⟨received,deliver,ok⟩ := (bind_ok _ _ _).mp ok
          obtain ⟨_,_,bounded,polled⟩ := server_deliver _ _ _ deliver
          obtain ⟨compacted,process,_,_,kept⟩ := server_process received bounded
          rw [process] at ok
          cases ok
          exact kept.trans polled
      · cases ok
        rfl

theorem echoing_front (echoing : Echoing 4087 appended p done rest) :
    (done ++ rest).map Frame.text <+: p.sent appended :=
  prefix_of_encode 0 _ _ _ (frames_free (done ++ rest)) (echoing.free.take _) echoing.upstream

theorem echoing_room (echoing : Echoing 4087 appended p done rest) (room : (encode 0 appended).length ≤ 2^31) (i : Fin 4) :
    (encode 0 (texts i (done ++ rest))).length ≤ 2^31 := by
  rcases eq_or_ne i 0 with rfl | other
  · rw [texts_all _ echoing.echoed]
    exact (encode_front 0 _ _ ((echoing_front echoing).trans (List.take_prefix _ _))).trans room
  · rw [texts_none i _ other echoing.echoed]
    exact Nat.zero_le _

theorem echoing_small (echoing : Echoing 4087 appended p done rest) (frame : Frame) (member : frame ∈ rest) :
    frame.size ≤ 4096 := by
  have sent := (echoing_front echoing).subset (List.mem_map_of_mem (List.mem_append_right done member))
  have short := (echoing.legal _ (List.mem_of_mem_take sent)).2
  unfold Frame.size
  omega

/-- What each buffer and each wire of a settled pipeline holds, from the server's writes to the client's buffer. -/
theorem settled_empty (echoing : Echoing 4087 appended p done rest) (alive : Alive p)
    (room : (encode 0 appended).length ≤ 2^31) (settled : Settled Move p) :
    p.pending = [] ∧ p.toServer = [] ∧ p.toClient = [] ∧ rest = [] ∧ p.conn.received = [] := by
  have demux := echoing.downstream
  have received := received_length p.conn demux.high
  have low := demux.low
  have high := demux.high
  have idle : p.pending = [] := by
    cases owes : p.pending with
    | nil => rfl
    | cons bytes more => exact absurd (.serverWrite bytes more _ _ owes (networkWrite_full p.toClient bytes)) (settled _)
  have up : p.toServer = [] := by
    by_contra some_bytes
    have server := server_not_full 4087 appended p done rest (by decide) echoing
    have arrived := List.length_pos_iff_ne_nil.mpr some_bytes
    obtain ⟨writes,after,read⟩ := serverRound_reads p.server p.toServer 1 (by omega) arrived alive.server
    have ep := serverRound_ep _ _ _ _ _ _ _ read
    rw [alive.server] at ep
    exact settled _ (.serverRead writes after _ _ 1 idle read (by rw [List.length_drop]; omega) ep)
  -- a whole frame in the client's buffer would be stored
  have partial_frame (frame : Frame) (more : List Frame) (head : rest = frame::more) :
      p.conn.usedReceiveBuffer < frame.size := by
    by_contra complete
    obtain ⟨result,after,stored,step⟩ := processing_total _ _ _ _ _ demux (echoing_room echoing room)
    rw [head] at demux
    exact settled _ (.processing result after stored step
      (processing_moves _ _ _ _ _ _ _ frame _ demux (Int.not_lt.mp complete) step))
  have down : p.toClient = [] := by
    by_contra some_bytes
    have arrived := List.length_pos_iff_ne_nil.mpr some_bytes
    have space : p.conn.usedReceiveBuffer < 4096 := by
      by_contra full
      obtain ⟨frame,more,head⟩ := wire_head rest p.conn.received _
        (by rw [← List.length_pos_iff_ne_nil,received]; omega) demux.unread
      have incomplete := partial_frame frame more head
      have small := echoing_small echoing frame (by rw [head]; exact List.mem_cons_self)
      omega
    obtain ⟨after,io,_,ep⟩ := io_reads p.conn p.toClient 1 low (by omega) arrived alive.client
    exact settled _ (.io after _ true _ _ io (by rw [List.length_drop]; omega) ep)
  have unread := demux.unread
  rw [down,idle,List.flatten_nil,List.append_nil,List.append_nil] at unread
  cases rest with
  | nil => exact ⟨idle,up,down,rfl,unread⟩
  | cons frame more =>
    have incomplete := partial_frame frame more rfl
    have whole := congrArg List.length unread
    rw [received,wire_cons,List.length_append,bytes_length] at whole
    omega

/-- A settled pipeline has stored all that was sent. -/
theorem settled_stored (echoing : Echoing 4087 appended p done rest) (alive : Alive p)
    (room : (encode 0 appended).length ≤ 2^31) (settled : Settled Move p) :
    commands (p.gameRecord 0) = .ok (p.sent appended) ∧ p.server.received = [] := by
  obtain ⟨_,up,_,rfl,_⟩ := settled_empty echoing alive room settled
  have upstream := echoing.upstream
  rw [List.append_nil,up,List.append_nil,← List.append_nil (encode 0 (p.sent appended))] at upstream
  obtain ⟨all,empty⟩ := encode_unique 0 _ _ _ _ (frames_free done) (echoing.free.take _) echoing.unclosed List.not_mem_nil
    upstream
  have written := echoing.downstream.written 0
  rw [texts_all done fun frame member => echoing.echoed frame (List.mem_append_left _ member),all] at written
  exact ⟨commands_written _ _ written (echoing.free.take _),empty⟩

end Settling

section Arrival
variable {appended : List (List Byte)}

/-- The states in which the pipeline can go on. -/
def Going (appended : List (List Byte)) (p : Pipeline) : Prop := Run 4087 appended p ∧ Alive p

theorem moves_drain (appended : List (List Byte)) : Drains Move (Going appended) potential where
  keeps := fun _ _ going move => ⟨move_run 4087 going.1 move,move_alive going.2 move⟩
  lowers := by
    intro p q going move
    obtain ⟨done,rest,echoing⟩ := run_echoing 4087 appended p (by decide) going.1
    exact move_lowers echoing move

theorem walk_input {p q : Pipeline} {n : Nat} (walk : Walk Move p n q) : q.input = p.input := by
  induction walk with
  | stay => rfl
  | go n a b _ next ih => exact (move_sent next).trans ih

/-- What was sent arrives: from every state, in whatever order the parties take their
steps, they come to an end after no more steps than the potential says, and where they
do, exactly the sent commands are stored and nothing is under way. -/
theorem delivered (appended : List (List Byte)) (p : Pipeline) (run : Run 4087 appended p)
    (room : (encode 0 appended).length ≤ 2^31) (alive : Alive p) :
    (∀ n q, Walk Move p n q → n ≤ potential p) ∧ (∃ n q, Walk Move p n q ∧ Settled Move q) ∧
      ∀ n q, Walk Move p n q → Settled Move q →
        commands (q.gameRecord 0) = .ok (p.sent appended) ∧ q.toServer = [] ∧ q.server.received = [] ∧ q.pending = [] ∧
          q.toClient = [] ∧ q.conn.received = [] := by
  have drains := moves_drain appended
  have going : Going appended p := ⟨run,alive⟩
  refine ⟨?_,drains.settles going,?_⟩
  · intro n q walk
    have total := (drains.walk going walk).2
    omega
  · intro n q walk settled
    obtain ⟨run',alive'⟩ := (drains.walk going walk).1
    obtain ⟨done,rest,echoing⟩ := run_echoing 4087 appended q (by decide) run'
    obtain ⟨idle,up,down,_,empty⟩ := settled_empty echoing alive' room settled
    obtain ⟨stored,received⟩ := settled_stored echoing alive' room settled
    rw [Pipeline.sent,walk_input walk] at stored
    exact ⟨stored,up,received,idle,down,empty⟩

/-- The letter A, sent and not yet read. -/
theorem delivered_letter : ∃ p, Run 4087 [[65]] p ∧ p.toServer = [65,0] ∧
    ∃ n q, Walk Move p n q ∧ commands (q.gameRecord 0) = .ok [[65]] := by
  obtain ⟨closed,write,append⟩ := append_succeeds recordAlloc [] [65] .zero holds_alloc (cursor_zero [])
    (by decide) (by decide)
  have recorded := Run.append _ _ _ _ _ _ (Run.start : Run 4087 [] .initial) (by decide) (by decide) rfl append
  have written := (written_empty.alloc rfl).append _ _ _ _ rfl append
  have free : Free 0 [([65] : List Byte)] := by simp [Free]
  obtain ⟨next,send⟩ := send_succeeds Connection.initial _ [] [[65]] 0 2 written (by simp) free (cursor_zero _)
    (by decide) (Nat.le_refl _)
  obtain ⟨_,moved,_,cursor,same,_⟩ := send_ok _ _ _ _ _ _ _ _ _ written free (cursor_zero _) rfl send
  obtain rfl : next = moved := congrArg RecordRW.read same
  have run := Run.send _ _ _ _ _ _ recorded send rfl
  obtain ⟨_,⟨n,q,walk,settled⟩,all⟩ := delivered [[65]] _ run (by decide) ⟨rfl,rfl⟩
  refine ⟨_,run,rfl,n,q,walk,?_⟩
  rw [(all n q walk settled).1,Pipeline.sent,cursor.commands]
  rfl

end Arrival

end Craftsman.Delivery
