import Craftsman.Echo

/-! Whether the four buffers of the pipeline fit each other. A frame is nine
bytes longer than its command, so the client's buffer, and not the server's, is
the one that bounds the commands. -/
namespace Craftsman.Wedge
open Craftsman.Memory Craftsman.Recording Craftsman.CommandLog Craftsman.Network Craftsman.Client
open Craftsman.NetworkServer Craftsman.Frames Craftsman.Demultiplex Craftsman.Echo
open Craftsman.Stream.Delimited

/-- After a call that returned true the client can read more, and so can the server. -/
structure Unwedged (p : Pipeline) : Prop where
  client : ∀ conn gameRecord, connectionProcessing p.conn p.gameRecord = .ok (true,conn,gameRecord) →
    conn.usedReceiveBuffer ≠ 4096
  server : p.server.usedReceiveBuffer ≠ 4096

theorem server_not_full (bound : Nat) (appended : List (List Byte)) (p : Pipeline) (done rest : List Frame)
    (small : bound < 4096) (echoing : Echoing bound appended p done rest) : p.server.usedReceiveBuffer < 4096 := by
  have free : Free 0 appended := fun text member => (echoing.legal text member).1
  have received := server_received_length p.server echoing.inside
  obtain ⟨later,sent⟩ := prefix_of_encode 0 _ _ _ (frames_free (done ++ rest)) (free.take _) echoing.upstream
  have open_part : p.server.received ++ p.toServer = encode 0 later := by
    have upstream := echoing.upstream
    rw [Pipeline.sent,← sent,encode_append,List.append_cancel_left_eq] at upstream
    exact upstream
  rcases List.eq_nil_or_concat' p.server.received with empty | ⟨_,_,nonempty⟩
  · rw [empty,List.length_nil] at received
    omega
  · obtain ⟨text,more,first,inside⟩ :=
      open_of_encode 0 later _ _ echoing.unclosed (by simp [nonempty]) open_part
    have member : text ∈ p.sent appended := by
      rw [Pipeline.sent,← sent,first]
      simp
    have short := (echoing.legal text (List.mem_of_mem_take member)).2
    have := inside.length_le
    omega

theorem client_not_full (bound : Nat) (appended : List (List Byte)) (p : Pipeline) (done rest : List Frame)
    (small : bound ≤ 4087) (echoing : Echoing bound appended p done rest) (conn : Connection)
    (gameRecord : Recordings) (ok : connectionProcessing p.conn p.gameRecord = .ok (true,conn,gameRecord)) :
    conn.usedReceiveBuffer ≠ 4096 := by
  intro full
  have free : Free 0 appended := fun text member => (echoing.legal text member).1
  obtain ⟨now,later,cut,moved,ending,_⟩ := processing_demux _ _ _ _ _ _ _ _ echoing.downstream ok
  have received := received_length conn moved.high
  obtain ⟨frame,more,head⟩ := wire_head later conn.received _
    (by rw [← List.length_pos_iff_ne_nil,received,full]; decide) moved.unread
  cases ending with
  | drained _ _ incomplete =>
    have larger := incomplete frame more head
    have echoed := prefix_of_encode 0 _ _ _ (frames_free (done ++ rest)) (free.take _) echoing.upstream
    have member : frame.text ∈ (done ++ rest).map Frame.text :=
      List.mem_map_of_mem (by simp [cut,head])
    have short := (echoing.legal _ (List.mem_of_mem_take (echoed.subset member))).2
    unfold Frame.size at larger
    omega

theorem long_wedges (text : List Byte) (bound : Nat) (nulFree : 0 ∉ text) (short : text.length ≤ bound)
    (small : text.length + 1 ≤ 4096) (long : 4088 ≤ text.length) : ∃ p conn gameRecord, Run bound [text] p ∧
      connectionProcessing p.conn p.gameRecord = .ok (true,conn,gameRecord) ∧ conn.usedReceiveBuffer = 4096 := by
  have beyond : (4096 : Int) < (text.length + 9 : Nat) := by omega
  obtain ⟨p,frame,run,same,bytes,conn,records⟩ := echo_one bound text nulFree short small
  have size : frame.size = text.length + 9 := by rw [Frame.size,same]
  have start : Connection.initial.usedReceiveBuffer = 0 := rfl
  have empty : Demux p.conn p.gameRecord ([] ++ wire []) [] [] := by
    rw [conn,records]
    exact (echoing_start bound).downstream
  have demux := demux_extend _ _ _ _ _ [frame] empty
  obtain ⟨after,io,used,_⟩ := io_reads p.conn p.toClient 4096 (by simp [conn,start]) (by simp [conn,start])
    (by rw [bytes,bytes_length,size]; omega) (by rw [conn]; rfl)
  have incoming : ([] ++ wire []) ++ wire [frame] = p.toClient ++ [] := by simp [bytes]
  rw [incoming] at demux
  have filled := io_demux _ _ _ _ _ _ _ _ _ _ _ demux io
  have full : after.usedReceiveBuffer = 4096 := by rw [used,conn,start]; rfl
  obtain ⟨_,_,length⟩ := filled.header (by rw [full]; decide)
  have longer : after.usedReceiveBuffer < after.length := by
    rw [full,length,size]
    exact beyond
  have round : processingRound after p.gameRecord = .ok (.done true after p.gameRecord) := by
    rw [processingRound,if_neg (by rw [full]; decide),if_pos longer]
  exact ⟨_,after,p.gameRecord,.io _ _ _ _ _ _ _ run io,processing_done _ _ _ _ _ round,full⟩

/-- The buffers fit each other exactly when no command is longer than 4087 bytes. -/
theorem unwedged_iff (bound : Nat) : (∀ appended p, Run bound appended p → Unwedged p) ↔ bound ≤ 4087 := by
  constructor
  · intro unwedged
    by_contra large
    obtain ⟨p,conn,gameRecord,run,processed,full⟩ := long_wedges (List.replicate 4088 65) bound
      (by rw [List.mem_replicate]; simp) (by rw [List.length_replicate]; omega)
      (by rw [List.length_replicate]; omega) (by rw [List.length_replicate])
    exact (unwedged _ p run).client conn gameRecord processed full
  · intro small appended p run
    obtain ⟨done,rest,echoing⟩ := run_echoing bound appended p (by omega) run
    exact ⟨client_not_full bound appended p done rest small echoing,
      Nat.ne_of_lt (server_not_full bound appended p done rest (by omega) echoing)⟩

/-- A line of 4088 bytes, which the input can deliver. -/
theorem line_4088_wedges : ∃ p conn gameRecord, Run 4094 [List.replicate 4088 65] p ∧
    connectionProcessing p.conn p.gameRecord = .ok (true,conn,gameRecord) ∧ conn.usedReceiveBuffer = 4096 :=
  long_wedges (List.replicate 4088 65) 4094 (by rw [List.mem_replicate]; simp)
    (by rw [List.length_replicate]; omega) (by rw [List.length_replicate]; omega) (by rw [List.length_replicate])

end Craftsman.Wedge
