import Craftsman.CommandLog
import Craftsman.Frames

/-! Demultiplexing of the multiplayer stream. One invariant accounts for every
byte of a stream of frames: the processed frames are in their players' records,
the received rest is in the buffer, and what follows has not arrived. -/
namespace Craftsman.Demultiplex
open Craftsman.Memory Craftsman.Recording Craftsman.Network Craftsman.Client Craftsman.Frames
open Craftsman.CommandLog
open Craftsman.Stream.Delimited (Free)

/-- The frames `done` are processed, `rest` is not, and `incoming` has not been received. -/
structure Demux (conn : Connection) (recording : Recordings) (incoming : List Byte)
    (done rest : List Frame) : Prop where
  low : 0 ≤ conn.usedReceiveBuffer
  high : conn.usedReceiveBuffer ≤ 4096
  unread : conn.received ++ incoming = wire rest
  written : ∀ i, Written (recording i) (texts i done)
  messages : ∀ i, conn.messagesProcessed i = u32 (texts i done).length
  bytes : ∀ i, conn.bytesProcessed i = u32 (bytesOf i done)

def known (recording : Recordings) (i : Fin 4) : Bool := (recording i).record.isSome

theorem known_update (recording : Recordings) (player : Fin 4) (rw : RecordRW) :
    known (Function.update recording player rw) = Function.update (known recording) player rw.record.isSome := by
  funext i
  by_cases same : i = player
  · subst i
    simp [known]
  · simp [known,same]

theorem u32_add (a b : Nat) : u32 (u32 a + b) = u32 (a + b) := by
  unfold u32; omega

theorem Demux.header {conn : Connection} {recording : Recordings} {incoming : List Byte} {done more : List Frame}
    {frame : Frame} (demux : Demux conn recording incoming done (frame::more)) (enough : 8 ≤ conn.usedReceiveBuffer) :
    conn.blockLen = frame.text.length + 1 ∧ conn.clientId = frame.player.val ∧ conn.length = frame.size := by
  have total := received_length conn demux.high
  obtain ⟨block,player⟩ := header_read frame conn.received incoming (wire more) (by omega) demux.unread
  have buffer := header_received conn enough
  rw [buffer.1] at block
  rw [buffer.2] at player
  have small := frame.encodable
  refine ⟨block,player,?_⟩
  rw [Connection.length,int32_of_bounds (by omega) (by omega),block]
  unfold Frame.size
  omega

/-- Behind the header of a whole frame stand its text and the NUL that closes it. -/
theorem Demux.behind {conn : Connection} {recording : Recordings} {incoming : List Byte} {done more : List Frame}
    {frame : Frame} (demux : Demux conn recording incoming done (frame::more))
    (complete : frame.size ≤ conn.usedReceiveBuffer) : ∃ rest, conn.receiveBuffer.drop 8 = frame.text ++ 0::rest := by
  have received := received_length conn demux.high
  obtain ⟨split,_⟩ := wire_complete frame more conn.received incoming (by omega) demux.unread
  refine ⟨conn.received.drop frame.size ++ conn.receiveBuffer.drop conn.usedReceiveBuffer.toNat,?_⟩
  calc
    _ = (conn.received ++ conn.receiveBuffer.drop conn.usedReceiveBuffer.toNat).drop 8 := by
      rw [Connection.received,List.take_append_drop]
    _ = ((frame.bytes ++ conn.received.drop frame.size) ++
        conn.receiveBuffer.drop conn.usedReceiveBuffer.toNat).drop 8 := by rw [← split]
    _ = _ := by
      rw [Frame.bytes,List.append_assoc,List.append_assoc,List.drop_left' (header_length frame)]
      simp

theorem Demux.printable {conn : Connection} {recording : Recordings} {incoming : List Byte} {done more : List Frame}
    {frame : Frame} (demux : Demux conn recording incoming done (frame::more))
    (complete : frame.size ≤ conn.usedReceiveBuffer) : conn.Printable := by
  obtain ⟨rest,behind⟩ := demux.behind complete
  have closed : 0 ∈ conn.receiveBuffer.drop 8 := by
    rw [behind]
    exact List.mem_append_right _ List.mem_cons_self
  exact fun _ => ⟨List.drop_subset_drop_left _ (by decide) closed,closed⟩

theorem Demux.input {conn : Connection} {recording : Recordings} {incoming : List Byte} {done more : List Frame}
    {frame : Frame} (demux : Demux conn recording incoming done (frame::more))
    (complete : frame.size ≤ conn.usedReceiveBuffer) (record : Record) (off : RecordOffset) :
    recordAppend frame.text.length (conn.receiveBuffer.drop 8) record off =
      recordAppend frame.text.length frame.text record off := by
  obtain ⟨rest,behind⟩ := demux.behind complete
  rw [behind]
  exact recordAppend_congr _ _ _ _ _ (by simp) (Nat.le_refl _) (by simp)

theorem store_demux (conn after : Connection) (recording stored : Recordings) (incoming : List Byte)
    (done more : List Frame) (frame : Frame) (record : Record)
    (demux : Demux conn recording incoming done (frame::more))
    (present : (recording frame.player).record = some record)
    (blockLen : conn.blockLen = frame.text.length + 1) (complete : frame.size ≤ conn.usedReceiveBuffer)
    (left : after.received = conn.received.drop conn.length.toNat)
    (store : storeMessage conn recording frame.player record = .ok (after,stored)) :
    Demux after stored incoming (done ++ [frame]) more ∧ known stored = known recording ∧
      ∀ j, j ≠ frame.player → stored j = recording j := by
  have text : (conn.blockLen - 1).toNat = frame.text.length := by omega
  have low := demux.low
  have high := demux.high
  have received := received_length conn high
  obtain ⟨closed,write,append,_,length,_,_,used,_,messages,bytes,rfl⟩ := storeMessage_ok _ _ _ _ _ _ store
  have total : conn.length.toNat = frame.size := by unfold Frame.size; omega
  have bounds : 0 ≤ conn.usedReceiveBuffer - conn.length ∧ conn.usedReceiveBuffer - conn.length ≤ 4096 := by omega
  obtain ⟨_,rest⟩ := wire_complete frame more conn.received incoming (by omega) demux.unread
  rw [text,demux.input complete] at append
  have logged := (demux.written frame.player).append record closed frame.text write present append
  refine ⟨⟨by rw [used]; exact bounds.1,by rw [used]; exact bounds.2,?_,?_,?_,?_⟩,?_,?_⟩
  · rw [left,total]; exact rest
  · intro i
    by_cases same : i = frame.player
    · subst i
      rw [texts_append,texts_same,Function.update_self]
      exact logged
    · rw [texts_append,texts_other frame i same,List.append_nil,Function.update_of_ne same]
      exact demux.written i
  · intro i
    rw [messages]
    by_cases same : i = frame.player
    · subst i
      rw [Function.update_self,demux.messages,texts_append,texts_same,List.length_append,u32_add]
      rfl
    · rw [Function.update_of_ne same,demux.messages,texts_append,texts_other frame i same,List.append_nil]
  · intro i
    rw [bytes,total]
    by_cases same : i = frame.player
    · subst i
      rw [Function.update_self,demux.bytes,bytesOf_append,bytesOf_same,u32_add]
    · rw [Function.update_of_ne same,demux.bytes,bytesOf_append,bytesOf_other frame i same,Nat.add_zero]
  · rw [known_update,Option.isSome_some]
    exact Function.update_eq_self_iff.mpr (by simp [known,present])
  · intro j other
    exact Function.update_of_ne other _ _

theorem round_demux (conn : Connection) (recording : Recordings) (incoming : List Byte)
    (done rest : List Frame) (round : Round) (demux : Demux conn recording incoming done rest)
    (ok : processingRound conn recording = .ok round) :
    (round = .done true conn recording ∧ ∀ frame more, rest = frame::more → conn.usedReceiveBuffer < frame.size) ∨
    (∃ frame more, rest = frame::more ∧ (recording frame.player).record = none ∧
      round = .done false conn (Function.update recording frame.player
        {recording frame.player with record := some recordAlloc})) ∨
    (∃ frame more after stored, rest = frame::more ∧ (recording frame.player).record ≠ none ∧
      round = .next after stored ∧ Demux after stored incoming (done ++ [frame]) more ∧
      known stored = known recording ∧ ∀ j, j ≠ frame.player → stored j = recording j) := by
  have low := demux.low
  have high := demux.high
  have total := received_length conn high
  rcases round_ok _ _ _ ok with ⟨short,same⟩ | ⟨enough,complete,id,player,next⟩
  · refine .inl ⟨same,?_⟩
    intro frame more head
    rcases Int.lt_or_le conn.usedReceiveBuffer 8 with few | enough
    · unfold Frame.size; omega
    · subst head
      obtain ⟨_,_,length⟩ := demux.header enough
      omega
  · obtain ⟨frame,more,head⟩ := wire_head rest conn.received incoming
      (by rw [← List.length_pos_iff_ne_nil,total]; omega) demux.unread
    subst head
    obtain ⟨block,mine,length⟩ := demux.header enough
    obtain rfl : id = frame.player := Fin.ext (by omega)
    rcases next with ⟨absent,same⟩ | ⟨record,after,stored,present,store,same⟩
    · exact .inr (.inl ⟨frame,more,rfl,absent,same⟩)
    · subst same
      obtain ⟨moved,others⟩ := store_demux _ _ _ _ _ _ _ _ _ demux present block (by omega)
        (round_next_received _ _ _ _ ok high) store
      exact .inr (.inr ⟨frame,more,after,stored,rfl,by simp [present],rfl,moved,others⟩)

def opened (before after : Recordings) : List (Fin 4) :=
  (List.finRange 4).filter fun i => !known before i && known after i

theorem opened_one (before after : Recordings) (player : Fin 4) (absent : known before player = false)
    (grown : known after = Function.update (known before) player true) :
    opened before after = [player] := by
  have newcomer (i : Fin 4) : (!known before i && known after i) = decide (i = player) := by
    rw [grown]
    by_cases same : i = player
    · subst i
      simp [absent]
    · simp [same]
  simp only [opened,newcomer]
  clear absent grown newcomer
  revert player
  decide

theorem round_progress (conn : Connection) (recording : Recordings) (incoming : List Byte)
    (done more : List Frame) (frame : Frame) (demux : Demux conn recording incoming done (frame::more))
    (complete : frame.size ≤ conn.usedReceiveBuffer) (present : known recording frame.player = true)
    (room : (Stream.Delimited.encode 0 (texts frame.player done)).length + frame.text.length + 1 ≤ 2^31) :
    ∃ after stored, processingRound conn recording = .ok (.next after stored) ∧
      Demux after stored incoming (done ++ [frame]) more ∧ known stored = known recording ∧
      after.usedReceiveBuffer = conn.usedReceiveBuffer - frame.size ∧ after.clientEp = conn.clientEp := by
  have high := demux.high
  have size : frame.size = frame.text.length + 9 := rfl
  obtain ⟨block,player,length⟩ := demux.header (by omega)
  obtain ⟨record,found⟩ := Option.isSome_iff_exists.mp present
  have written := demux.written frame.player
  obtain ⟨closed,write,append⟩ := append_succeeds _ _ _ _ (written.holds record found) written.cursor
    (by omega) room
  rw [← demux.input complete] at append
  have text : (conn.blockLen - 1).toNat = frame.text.length := by omega
  obtain ⟨after,round⟩ := round_block conn recording frame.player record closed write high (by omega) (by omega)
    (demux.printable complete) player found (by rw [text]; exact append)
  obtain ⟨_,_,used,ep⟩ := round_next _ _ _ _ round
  rcases round_demux _ _ _ _ _ _ demux round with ⟨same,_⟩ | ⟨_,_,_,_,same⟩ |
    ⟨_,_,_,_,head,_,same,moved,kept,_⟩
  · cases same
  · cases same
  · cases same
    cases head
    exact ⟨after,_,round,moved,kept,by rw [used,length],ep⟩

/-- How a whole call ends: every complete frame processed, or stopped in front
of the first frame of a player without a record. -/
inductive Ending (before after : Recordings) (conn : Connection) : Bool → List Frame → Prop
  | drained (later : List Frame) (same : known after = known before)
      (incomplete : ∀ frame more, later = frame::more → conn.usedReceiveBuffer < frame.size) :
      Ending before after conn true later
  | stopped (frame : Frame) (more : List Frame) (absent : known before frame.player = false)
      (grown : known after = Function.update (known before) frame.player true) :
      Ending before after conn false (frame::more)

theorem Ending.earlier {before middle after : Recordings} {conn : Connection} {result : Bool}
    {later : List Frame} (same : known middle = known before) (ending : Ending middle after conn result later) :
    Ending before after conn result later := by
  cases ending with
  | drained later kept incomplete => exact .drained later (kept.trans same) incomplete
  | stopped frame more absent grown => exact .stopped frame more (same ▸ absent) (same ▸ grown)

theorem Demux.opened {conn : Connection} {recording : Recordings} {incoming : List Byte}
    {done rest : List Frame} (demux : Demux conn recording incoming done rest) (player : Fin 4)
    (absent : (recording player).record = none) :
    Demux conn (Function.update recording player {recording player with record := some recordAlloc})
      incoming done rest := by
  refine ⟨demux.low,demux.high,demux.unread,?_,demux.messages,demux.bytes⟩
  intro i
  by_cases same : i = player
  · subst i
    rw [Function.update_self]
    exact (demux.written player).alloc absent
  · rw [Function.update_of_ne same]
    exact demux.written i

/-- A whole call processes the frames `now` and touches nobody else's commands. -/
theorem processing_demux (conn after : Connection) (recording stored : Recordings) (incoming : List Byte)
    (done rest : List Frame) (result : Bool) (demux : Demux conn recording incoming done rest)
    (ok : connectionProcessing conn recording = .ok (result,after,stored)) :
    ∃ now later, rest = now ++ later ∧ Demux after stored incoming (done ++ now) later ∧
      Ending recording stored after result later ∧
      ∀ i, (∀ frame ∈ now, frame.player ≠ i) → known stored i = known recording i → stored i = recording i := by
  induction conn, recording using connectionProcessing.induct generalizing done rest with
  | case1 conn recording stop round =>
    rw [processing_stops _ _ _ round] at ok
    cases ok
  | case2 conn recording ended last kept round =>
    rw [processing_done _ _ _ _ _ round] at ok
    cases ok
    rcases round_demux _ _ _ _ _ _ demux round with ⟨same,short⟩ | ⟨frame,more,head,absent,same⟩ | ⟨_,_,_,_,_,_,same,_⟩
    · cases same
      exact ⟨[],rest,rfl,by simpa using demux,.drained rest rfl short,fun i _ _ => rfl⟩
    · cases same
      subst head
      refine ⟨[],frame::more,rfl,?_,.stopped frame more (by simp [known,absent]) (known_update _ _ _),?_⟩
      · simpa using demux.opened frame.player absent
      · intro i _ same
        refine Function.update_of_ne ?_ _ _
        rintro rfl
        simp [known,absent] at same
    · cases same
  | case3 conn recording next moved round ih =>
    rw [processing_next _ _ _ _ round] at ok
    rcases round_demux _ _ _ _ _ _ demux round with ⟨same,_⟩ | ⟨_,_,_,_,same⟩ |
      ⟨frame,more,_,_,head,present,same,demuxNext,kept,others⟩
    · cases same
    · cases same
    · cases same
      subst head
      obtain ⟨now,later,cut,demuxLater,ending,untouched⟩ := ih _ _ demuxNext ok
      refine ⟨frame::now,later,by rw [cut]; rfl,by simpa using demuxLater,ending.earlier kept,?_⟩
      intro i foreign same
      rw [untouched i (fun other member => foreign other (by simp [member])) (by rw [kept]; exact same)]
      exact others i (Ne.symm (foreign frame (by simp)))

/-- A read only moves the border between the received bytes and those on their
way; `more` is what the channel does not hold yet. -/
theorem io_demux (conn after : Connection) (recording : Recordings) (incoming left more : List Byte)
    (done rest : List Frame) (poll : Poll) (read : Read) (up : Bool)
    (demux : Demux conn recording (incoming ++ more) done rest)
    (ok : connectionIo conn incoming poll read = .ok (up,after,left)) :
    Demux after recording (left ++ more) done rest := by
  obtain ⟨got,rfl,received,low,high,bytes,messages⟩ := io_ok _ _ _ _ _ _ _ demux.low demux.high ok
  refine ⟨low,high,?_,demux.written,messages ▸ demux.messages,bytes ▸ demux.bytes⟩
  rw [received,← demux.unread]
  simp only [List.append_assoc]

structure Receiver where
  conn : Connection
  recording : Recordings
  incoming : List Byte

def Receiver.initial (frames : List Frame) (allocated : Fin 4 → Bool) : Receiver :=
  ⟨.initial,fun i => {RecordRW.empty with record := if allocated i then some recordAlloc else none},wire frames⟩

/-- The runs over a stream of frames, with the players that got their record in
each call that returned false. Reads cut the stream anywhere. -/
inductive Run (frames : List Frame) (allocated : Fin 4 → Bool) : List (List (Fin 4)) → Receiver → Prop
  | start : Run frames allocated [] (.initial frames allocated)
  | io (stops state conn incoming up) (poll : Poll) (read : Read) (run : Run frames allocated stops state)
      (step : connectionIo state.conn state.incoming poll read = .ok (up,conn,incoming)) :
      Run frames allocated stops {state with conn := conn, incoming := incoming}
  | processed (stops state conn recording) (run : Run frames allocated stops state)
      (step : connectionProcessing state.conn state.recording = .ok (true,conn,recording)) :
      Run frames allocated stops {state with conn := conn, recording := recording}
  | changed (stops state conn recording) (run : Run frames allocated stops state)
      (step : connectionProcessing state.conn state.recording = .ok (false,conn,recording)) :
      Run frames allocated (stops ++ [opened state.recording recording])
        {state with conn := conn, recording := recording}

def commands (rw : RecordRW) : Except Stop (List (List Byte)) :=
  match rw.record with
  | none => .ok []
  | some record => recordPlaybackAll record

theorem commands_written (rw : RecordRW) (log : List (List Byte)) (written : Written rw log)
    (free : Stream.Delimited.Free 0 log) : commands rw = .ok log := by
  unfold commands
  split
  · rename_i absent
    rw [written.absent absent]
  · rename_i record found
    exact playback_log _ _ (written.holds record found) free

/-- Every byte of the stream is accounted for: the frames `done` are in their
players' records, and the rest of the stream is in the buffer or on its way. -/
structure Accounted (frames : List Frame) (state : Receiver) (done rest : List Frame) : Prop where
  stream : frames = done ++ rest
  unread : state.conn.received ++ state.incoming = wire rest
  inside : 0 ≤ state.conn.usedReceiveBuffer ∧ state.conn.usedReceiveBuffer ≤ 4096
  stored : ∀ i, commands (state.recording i) = .ok (texts i done)
  messages : ∀ i, state.conn.messagesProcessed i = (texts i done).length
  bytes : ∀ i, state.conn.bytesProcessed i = bytesOf i done % 2^32

theorem Demux.accounted {frames done rest : List Frame} {state : Receiver} (stream : frames = done ++ rest)
    (demux : Demux state.conn state.recording state.incoming done rest) : Accounted frames state done rest := by
  refine ⟨stream,demux.unread,⟨demux.low,demux.high⟩,
    fun i => commands_written _ _ (demux.written i) (texts_free i done),?_,demux.bytes⟩
  intro i
  rw [demux.messages]
  refine u32_of_lt ?_
  rcases found : (state.recording i).record with _ | record
  · simp [(demux.written i).absent found]
  · exact Nat.lt_of_le_of_lt ((demux.written i).holds record found).count_le (by decide)

theorem initial_demux (frames : List Frame) (allocated : Fin 4 → Bool) :
    Demux (Receiver.initial frames allocated).conn (Receiver.initial frames allocated).recording
      (Receiver.initial frames allocated).incoming [] frames := by
  refine ⟨Int.le_refl _,(by decide : (0 : Int) ≤ 4096),rfl,?_,fun _ => rfl,fun _ => rfl⟩
  intro i
  unfold Receiver.initial
  dsimp only
  cases allocated i with
  | false => exact written_empty
  | true => exact written_empty.alloc rfl

structure Stops (allocated : Fin 4 → Bool) (recording : Recordings) (stops : List (List (Fin 4)))
    (order : List (Fin 4)) : Prop where
  each : stops = order.map fun player => [player]
  once : order.Nodup
  fresh : ∀ player ∈ order, allocated player = false ∧ known recording player = true
  kept : ∀ player, allocated player = true → known recording player = true

theorem run_demux (frames : List Frame) (allocated : Fin 4 → Bool) (stops : List (List (Fin 4)))
    (state : Receiver) (run : Run frames allocated stops state) :
    ∃ done rest order, frames = done ++ rest ∧
      Demux state.conn state.recording state.incoming done rest ∧ Stops allocated state.recording stops order := by
  induction run with
  | start =>
    refine ⟨[],frames,[],rfl,initial_demux frames allocated,rfl,List.nodup_nil,by simp,?_⟩
    intro player present
    simp [known,Receiver.initial,present]
  | io stops state conn incoming up poll read run step ih =>
    obtain ⟨done,rest,order,stream,demux,history⟩ := ih
    have moved := io_demux _ _ _ _ _ [] _ _ _ _ _ (by simpa using demux) step
    exact ⟨done,rest,order,stream,by simpa using moved,history⟩
  | processed stops state conn recording run step ih =>
    obtain ⟨done,rest,order,stream,demux,history⟩ := ih
    obtain ⟨now,later,cut,moved,ending,_⟩ := processing_demux _ _ _ _ _ _ _ _ demux step
    cases ending with
    | drained _ same _ =>
      refine ⟨done ++ now,later,order,by rw [stream,cut,List.append_assoc],moved,history.each,history.once,?_,?_⟩
      · rw [same]; exact history.fresh
      · rw [same]; exact history.kept
  | changed stops state conn recording run step ih =>
    obtain ⟨done,rest,order,stream,demux,history⟩ := ih
    obtain ⟨now,later,cut,moved,ending,_⟩ := processing_demux _ _ _ _ _ _ _ _ demux step
    cases ending with
    | stopped frame more absent grown =>
      have stays (player : Fin 4) (present : known state.recording player = true) :
          known recording player = true := by
        rw [grown]
        by_cases same : player = frame.player
        · simp [same]
        · simp [same,present]
      refine ⟨done ++ now,_,order ++ [frame.player],by rw [stream,cut,List.append_assoc],moved,?_,?_,?_,?_⟩
      · rw [history.each,opened_one _ _ _ absent grown]
        simp
      · refine List.nodup_append.mpr ⟨history.once,by simp,?_⟩
        intro player member other last same
        simp only [List.mem_singleton] at last
        have present := (history.fresh player member).2
        rw [same,last,absent] at present
        cases present
      · intro player member
        rcases List.mem_append.mp member with earlier | last
        · exact ⟨(history.fresh player earlier).1,stays _ (history.fresh player earlier).2⟩
        · simp only [List.mem_singleton] at last
          subst last
          refine ⟨?_,by simp [grown]⟩
          cases already : allocated frame.player with
          | false => rfl
          | true => exact absurd (history.kept _ already) (by simp [absent])
      · intro player present
        exact stays _ (history.kept player present)

theorem round_stop (conn : Connection) (recording : Recordings) (incoming : List Byte)
    (done rest : List Frame) (stop : Stop) (demux : Demux conn recording incoming done rest)
    (fits : ∀ frame ∈ rest, frame.text.length + 1 ≤ 4088)
    (failed : processingRound conn recording = .error stop) : stop = .crash := by
  unfold processingRound at failed
  split at failed
  · simp at failed
  · rename_i enough
    split at failed
    · simp at failed
    · rename_i complete
      have received := received_length conn demux.high
      obtain ⟨frame,more,head⟩ := wire_head rest conn.received incoming
        (by rw [← List.length_pos_iff_ne_nil,received]; omega) demux.unread
      subst head
      obtain ⟨block,mine,length⟩ := demux.header (by omega)
      have player := frame.player.isLt
      rw [if_neg (not_not.mpr (demux.printable (by omega))),if_neg (by omega),dif_pos (by omega)] at failed
      have found : (⟨conn.clientId.toNat,by omega⟩ : Fin 4) = frame.player := Fin.ext (by simp only []; omega)
      dsimp only at failed
      rw [found] at failed
      split at failed
      · simp at failed
      · rename_i record present
        have written := demux.written frame.player
        have small := fits frame (by simp)
        have narrowed : size (int32 (conn.blockLen - 1)) = frame.text.length := by
          rw [block,int32_of_bounds (by omega) (by omega),size_of_bounds (by omega) (by omega)]
          omega
        have appended (stop : Stop) (fault : recordAppend frame.text.length frame.text record
            (recording frame.player).write = .error stop) : stop = .crash := by
          cases stop with
          | crash => rfl
          | fault =>
            exact absurd fault (append_no_fault _ _ _ _ (written.holds record present) written.cursor (by omega))
        rcases (bind_error _ _ _).mp failed with store | ⟨_,_,rest⟩
        · unfold storeMessage at store
          rw [narrowed,demux.input (by omega)] at store
          rcases (bind_error _ _ _).mp store with append | ⟨⟨closed,write⟩,_,rest⟩
          · exact appended _ append
          · dsimp only at rest
            unfold Connection.consume at rest
            rw [dif_pos (by unfold Frame.size at length; omega)] at rest
            cases rest
        · cases rest

theorem processing_stop (conn : Connection) (recording : Recordings) (incoming : List Byte)
    (done rest : List Frame) (stop : Stop) (demux : Demux conn recording incoming done rest)
    (fits : ∀ frame ∈ rest, frame.text.length + 1 ≤ 4088)
    (failed : connectionProcessing conn recording = .error stop) : stop = .crash := by
  induction conn, recording using connectionProcessing.induct generalizing done rest with
  | case1 conn recording other round =>
    rw [processing_stops _ _ _ round] at failed
    cases failed
    exact round_stop _ _ _ _ _ _ demux fits round
  | case2 conn recording ended last kept round =>
    rw [processing_done _ _ _ _ _ round] at failed
    cases failed
  | case3 conn recording next moved round ih =>
    rw [processing_next _ _ _ _ round] at failed
    rcases round_demux _ _ _ _ _ _ demux round with ⟨same,_⟩ | ⟨_,_,_,_,same⟩ |
      ⟨frame,more,_,_,head,_,same,demuxNext,_⟩
    · cases same
    · cases same
    · cases same
      subst head
      exact ih _ _ demuxNext (fun other member => fits other (by simp [member])) failed

/-- The demultiplexing of any stream of frames, cut and interleaved in any way. -/
theorem demultiplexed (frames : List Frame) (allocated : Fin 4 → Bool) (stops : List (List (Fin 4)))
    (state : Receiver) (run : Run frames allocated stops state) :
    ∃ done rest, Accounted frames state done rest ∧
      (∃ order : List (Fin 4), stops = order.map (fun player => [player]) ∧ order.Nodup ∧
        ∀ player ∈ order, allocated player = false) ∧
      (∀ result conn recording, connectionProcessing state.conn state.recording = .ok (result,conn,recording) →
        ∃ now later, rest = now ++ later ∧
          Accounted frames {state with conn := conn, recording := recording} (done ++ now) later ∧
          Ending state.recording recording conn result later ∧
          ∀ i, (∀ frame ∈ now, frame.player ≠ i) → known recording i = known state.recording i →
            recording i = state.recording i) ∧
      ((∀ frame ∈ frames, frame.text.length + 1 ≤ 4088) →
        ∀ stop, connectionProcessing state.conn state.recording = .error stop → stop = .crash) := by
  obtain ⟨done,rest,order,stream,demux,history⟩ := run_demux frames allocated stops state run
  refine ⟨done,rest,demux.accounted stream,⟨order,history.each,history.once,?_⟩,?_,?_⟩
  · intro player member
    exact (history.fresh player member).1
  · intro result conn recording ok
    obtain ⟨now,later,cut,moved,ending,untouched⟩ := processing_demux _ _ _ _ _ _ _ _ demux ok
    refine ⟨now,later,cut,?_,ending,untouched⟩
    exact Demux.accounted (by rw [stream,cut,List.append_assoc]) moved
  · intro fits stop failed
    refine processing_stop _ _ _ _ _ _ demux ?_ failed
    intro frame member
    exact fits frame (by rw [stream]; exact List.mem_append_right _ member)

def emptyFrame : Frame := ⟨0,[],List.not_mem_nil,by decide⟩

theorem flood (n k : Nat) (inside : k ≤ n) (small : n ≤ 2^31) :
    ∃ state, Run (List.replicate n emptyFrame) (fun _ => true) [] state ∧
      Demux state.conn state.recording state.incoming (List.replicate k emptyFrame)
        (List.replicate (n-k) emptyFrame) ∧
      known state.recording 0 = true ∧ state.conn.usedReceiveBuffer = 0 ∧ state.conn.clientEp = endpointFromFd := by
  induction k with
  | zero =>
    exact ⟨_,.start,initial_demux _ _,rfl,rfl,rfl⟩
  | succ k ih =>
    obtain ⟨state,run,demux,present,used,ep⟩ := ih (by omega)
    have more : List.replicate (n-k) emptyFrame = emptyFrame::List.replicate (n-(k+1)) emptyFrame := by
      rw [← List.replicate_succ]
      congr 1
      omega
    rw [more] at demux
    have nine : emptyFrame.size = 9 := rfl
    have arrived : 9 ≤ state.incoming.length := by
      have unread := congrArg List.length demux.unread
      rw [List.length_append,received_length _ demux.high,used,wire_cons,List.length_append,bytes_length] at unread
      omega
    obtain ⟨filled,io,full,ep⟩ := io_reads state.conn state.incoming 9 demux.low (by omega) arrived ep
    have unread := io_demux _ _ _ _ _ [] _ _ _ _ _ (by simpa using demux) io
    rw [List.append_nil] at unread
    have room : (Stream.Delimited.encode 0 (texts 0 (List.replicate k emptyFrame))).length + 0 + 1 ≤ 2^31 := by
      have texts : texts 0 (List.replicate k emptyFrame) = List.replicate k [] := by
        simp [Frames.texts,emptyFrame]
      have length : (Stream.Delimited.encode (0 : Byte) (List.replicate k [])).length = k := by
        simp [Stream.Delimited.encode]
      rw [texts,length]
      omega
    obtain ⟨after,stored,round,moved,kept,left,ep⟩ := round_progress _ _ _ _ _ _ unread (by omega) present room
    have drained : processingRound after stored = .ok (.done true after stored) := by
      rw [processingRound,if_pos (by omega)]
    have processed : connectionProcessing filled state.recording = .ok (true,after,stored) := by
      rw [processing_next _ _ _ _ round,processing_done _ _ _ _ _ drained]
    refine ⟨_,.processed _ _ _ _ (.io _ _ _ _ _ _ _ run io) processed,?_,?_,?_,?_⟩
    · rw [List.replicate_succ']
      exact moved
    · rw [kept]
      exact present
    · dsimp only
      omega
    · exact ep.trans (by assumption)

theorem demultiplexed_two_frames : ∃ state done rest,
    Run (List.replicate 2 emptyFrame) (fun _ => true) [] state ∧
      Accounted (List.replicate 2 emptyFrame) state done rest := by
  obtain ⟨state,run,_⟩ := flood 2 2 (by decide) (by decide)
  obtain ⟨done,rest,accounted,_⟩ := demultiplexed _ _ _ _ run
  exact ⟨state,done,rest,run,accounted⟩

theorem flood_counts (n : Nat) (small : n ≤ 2^31) : ∃ state,
    Run (List.replicate n emptyFrame) (fun _ => true) [] state ∧ state.conn.bytesProcessed 0 = u32 (n * 9) ∧
      ∀ done rest, List.replicate n emptyFrame = done ++ rest →
        state.conn.received ++ state.incoming = wire rest → bytesOf 0 done = n * 9 := by
  have total : bytesOf 0 (List.replicate n emptyFrame) = n * 9 := by
    simp [bytesOf,emptyFrame,Frame.size]
  obtain ⟨state,run,demux,_,_,_⟩ := flood n n (Nat.le_refl _) small
  refine ⟨state,run,by rw [demux.bytes 0,total],?_⟩
  intro done rest stream unread
  rw [demux.unread,Nat.sub_self,List.replicate_zero,wire_nil] at unread
  cases rest with
  | nil =>
    rw [List.append_nil] at stream
    rw [← stream,total]
  | cons frame more =>
    have lengths := congrArg List.length unread
    rw [wire_cons,List.length_append,bytes_length,Frame.size,List.length_nil] at lengths
    omega

/-- 477218589 empty commands are 2^32 + 5 bytes. -/
theorem bytes_processed_wraps : ∃ state, Run (List.replicate 477218589 emptyFrame) (fun _ => true) [] state ∧
    ¬∃ done rest, List.replicate 477218589 emptyFrame = done ++ rest ∧
      state.conn.received ++ state.incoming = wire rest ∧ ∀ i, state.conn.bytesProcessed i = bytesOf i done := by
  obtain ⟨state,run,wrapped,total⟩ := flood_counts 477218589 (by decide)
  refine ⟨state,run,?_⟩
  rintro ⟨done,rest,stream,unread,counted⟩
  rw [counted 0,total done rest stream unread] at wrapped
  exact absurd wrapped (by decide)

theorem send_reads (conn : Connection) (input : RecordRW) (outgoing : List Byte) (write : Write) (record : Record)
    (log : List (List Byte)) (k : Nat) (present : input.record = some record) (holds : Holds record log)
    (free : Free 0 log) (cursor : Cursor log k input.read) :
    (∃ (more : k < log.length) (next : RecordOffset), Cursor log (k + 1) next ∧
      connectionSend conn input outgoing write = .ok (some
        ({conn with buffering := conn.buffering ||
            (networkWrite outgoing (log[k] ++ [0]) write).1 != some (log[k] ++ [0]).length},
          {input with read := next},(networkWrite outgoing (log[k] ++ [0]) write).2))) ∨
    k = log.length ∧ connectionSend conn input outgoing write = .ok none := by
  unfold connectionSend
  rw [present]
  dsimp only
  rcases Nat.lt_or_eq_of_le cursor.inside with more | last
  · obtain ⟨next,reads,moved⟩ := read_next record log k input.read holds free cursor more
    refine .inl ⟨more,next,moved,?_⟩
    rw [reads,ok_bind]
    rfl
  · subst last
    rw [read_end record log input.read holds cursor]
    exact .inr ⟨rfl,rfl⟩

end Craftsman.Demultiplex
