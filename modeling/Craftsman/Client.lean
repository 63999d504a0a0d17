import Craftsman.Network
import Craftsman.Recording

/-! The client side of the connection: the receive buffer, the decoder of its
frames and the sender of the recorded commands. -/
namespace Craftsman.Client
open Craftsman.Memory Craftsman.Recording Craftsman.Network

abbrev Recordings := Fin 4 → RecordRW

structure Connection where
  receiveBuffer : List Byte
  usedReceiveBuffer : Int
  bytesReceived : Nat
  bytesProcessed : Fin 4 → Nat
  messagesProcessed : Fin 4 → Nat
  buffering : Bool
  clientEp : EndPoint
  sized : receiveBuffer.length = 4096

def Connection.initial : Connection where
  receiveBuffer := List.replicate 4096 0
  usedReceiveBuffer := 0
  bytesReceived := 0
  bytesProcessed := fun _ => 0
  messagesProcessed := fun _ => 0
  buffering := false
  clientEp := endpointFromFd
  sized := blank_length

/-- `char` is signed. -/
def signedChar (c : Byte) : Int := Int.bmod c.toNat 256

def digitAtoi (c : Byte) : Int := signedChar c - 48

def fixedAtoi (a b c : Byte) : Int := digitAtoi a * 100 + digitAtoi b * 10 + digitAtoi c

/-- A little-endian `int` at the start of the bytes. -/
def readInt (bytes : List Byte) : Int :=
  int32 ((bytes[0]?.getD 0).toNat + 256 * (bytes[1]?.getD 0).toNat +
    65536 * (bytes[2]?.getD 0).toNat + 16777216 * (bytes[3]?.getD 0).toNat : Nat)

def Connection.blockLen (conn : Connection) : Int := readInt conn.receiveBuffer

def Connection.length (conn : Connection) : Int := int32 (8 + conn.blockLen)

def playerId (bytes : List Byte) : Int :=
  fixedAtoi (bytes[4]?.getD 0) (bytes[5]?.getD 0) (bytes[6]?.getD 0)

def Connection.clientId (conn : Connection) : Int := playerId conn.receiveBuffer

def Connection.received (conn : Connection) : List Byte :=
  conn.receiveBuffer.take conn.usedReceiveBuffer.toNat

/-- The two strings that are printed of a block longer than one byte end in the buffer. -/
def Connection.Printable (conn : Connection) : Prop :=
  9 < conn.length → 0 ∈ conn.receiveBuffer.drop 4 ∧ 0 ∈ conn.receiveBuffer.drop 8

instance printable_decidable (conn : Connection) : Decidable conn.Printable :=
  inferInstanceAs (Decidable (_ → _))

def Connection.deliver (conn : Connection) (bytes : List Byte) : Except Stop Connection :=
  if inside : 0 ≤ conn.usedReceiveBuffer ∧
      conn.usedReceiveBuffer.toNat + bytes.length ≤ conn.receiveBuffer.length then
    .ok {conn with
      receiveBuffer := overwrite conn.receiveBuffer conn.usedReceiveBuffer.toNat bytes
      bytesReceived := u32 (conn.bytesReceived + bytes.length)
      usedReceiveBuffer := conn.usedReceiveBuffer + bytes.length
      sized := (overwrite_length _ _ _ inside.2).trans conn.sized}
  else .error .fault

def connectionIo (conn : Connection) (wire : List Byte) (poll : Poll) (read : Read) :
    Except Stop (Bool × Connection × List Byte) :=
  if conn.clientEp.disconnected then .ok (false,conn,wire)
  else
    let (ep,events) := networkPoll conn.clientEp poll
    let polled := {conn with clientEp := ep}
    if !flagged events pollOut then .ok (false,polled,wire)
    else if flagged events pollIn then
      match networkRead wire (size (4096 - conn.usedReceiveBuffer)) read with
      | (none,rest) =>
        -- The counter takes the failure's -1 before the failure is tested.
        .ok (false,{polled with bytesReceived := u32 (polled.bytesReceived + (2^32 - 1))},rest)
      | (some bytes,rest) => do
        let received ← polled.deliver bytes
        if flagged events pollHup then return (bytes.length != 0,received,rest)
        else return (true,received,rest)
    else .ok (true,polled,wire)

/-- The buffer after the first `length` bytes were moved out. -/
def Connection.consume (conn : Connection) (length : Int) : Except Stop Connection :=
  if inside : 0 ≤ length ∧ length ≤ 4096 then
    .ok {conn with
      receiveBuffer := moveDown conn.receiveBuffer length.toNat (4096 - length.toNat)
      usedReceiveBuffer := conn.usedReceiveBuffer - length
      sized := (moveDown_length _ _ _ (by rw [conn.sized]; omega)).trans conn.sized}
  else .error .fault

inductive Round where
  | done (result : Bool) (conn : Connection) (recording : Recordings)
  | next (conn : Connection) (recording : Recordings)

def storeMessage (conn : Connection) (recording : Recordings) (id : Fin 4) (record : Record) :
    Except Stop (Connection × Recordings) := do
  let (record,write) ← recordAppend (size (int32 (conn.blockLen - 1)))
    (conn.receiveBuffer.drop 8) record (recording id).write
  let consumed ← conn.consume conn.length
  let counted := {consumed with
    messagesProcessed := Function.update conn.messagesProcessed id (u32 (conn.messagesProcessed id + 1))
    bytesProcessed := Function.update conn.bytesProcessed id
      (u32 (conn.bytesProcessed id + size conn.length))}
  return (counted,Function.update recording id {recording id with record := some record, write := write})

def processingRound (conn : Connection) (recording : Recordings) : Except Stop Round :=
  if conn.usedReceiveBuffer < 8 then .ok (.done true conn recording)
  else if conn.usedReceiveBuffer < conn.length then .ok (.done true conn recording)
  else if ¬ conn.Printable then .error .fault
  else if conn.clientId ≥ 4 then .error .crash
  else if inside : 0 ≤ conn.clientId ∧ conn.clientId < 4 then
    let id : Fin 4 := ⟨conn.clientId.toNat,by omega⟩
    match (recording id).record with
    | none =>
      .ok (.done false conn (Function.update recording id {recording id with record := some recordAlloc}))
    | some record => do
      let (conn,recording) ← storeMessage conn recording id record
      return .next conn recording
  else .error .fault

theorem deliver_ok (conn after : Connection) (bytes : List Byte)
    (ok : conn.deliver bytes = .ok after) :
    0 ≤ conn.usedReceiveBuffer ∧ conn.usedReceiveBuffer.toNat + bytes.length ≤ 4096 ∧
      after.receiveBuffer = overwrite conn.receiveBuffer conn.usedReceiveBuffer.toNat bytes ∧
      after.usedReceiveBuffer = conn.usedReceiveBuffer + bytes.length ∧
      after.bytesProcessed = conn.bytesProcessed ∧ after.messagesProcessed = conn.messagesProcessed := by
  unfold Connection.deliver at ok
  split at ok
  · rename_i inside
    rw [conn.sized] at inside
    obtain rfl := Except.ok.inj ok
    exact ⟨inside.1,inside.2,rfl,rfl,rfl,rfl⟩
  · simp at ok

theorem deliver_received (conn after : Connection) (bytes : List Byte)
    (ok : conn.deliver bytes = .ok after) : after.received = conn.received ++ bytes := by
  obtain ⟨low,room,buffer,used,_⟩ := deliver_ok _ _ _ ok
  have total : (conn.usedReceiveBuffer + bytes.length).toNat = conn.usedReceiveBuffer.toNat + bytes.length := by
    omega
  rw [Connection.received,buffer,used,total,take_overwrite _ _ _ (by rw [conn.sized]; exact room),
    Connection.received]

theorem consume_ok (conn after : Connection) (length : Int) (ok : conn.consume length = .ok after) :
    0 ≤ length ∧ length ≤ 4096 ∧
      after.receiveBuffer = moveDown conn.receiveBuffer length.toNat (4096 - length.toNat) ∧
      after.usedReceiveBuffer = conn.usedReceiveBuffer - length ∧ after.clientEp = conn.clientEp := by
  unfold Connection.consume at ok
  split at ok
  · rename_i inside
    obtain rfl := Except.ok.inj ok
    exact ⟨inside.1,inside.2,by dsimp only,by dsimp only,by dsimp only⟩
  · simp at ok

theorem blockLen_range (conn : Connection) : -2^31 ≤ conn.blockLen ∧ conn.blockLen < 2^31 := by
  unfold Connection.blockLen readInt
  exact int32_range _

theorem block_positive (conn : Connection)
    (readable : size (int32 (conn.blockLen - 1)) ≤ (conn.receiveBuffer.drop 8).length) :
    1 ≤ conn.blockLen ∧ conn.blockLen + 7 ≤ 4096 ∧ conn.length = 8 + conn.blockLen ∧
      size (int32 (conn.blockLen - 1)) = (conn.blockLen - 1).toNat := by
  rw [List.length_drop,conn.sized] at readable
  have block := blockLen_range conn
  have positive : 1 ≤ conn.blockLen ∧ conn.blockLen ≤ 4089 := by
    rcases Int.lt_or_le (-2^31) conn.blockLen with inside | lowest
    · rw [int32_of_bounds (by omega) (by omega)] at readable
      unfold size at readable
      omega
    · have same : conn.blockLen = -2^31 := by omega
      rw [same] at readable
      exact absurd readable (by decide)
  refine ⟨positive.1,by omega,int32_of_bounds (by omega) (by omega),?_⟩
  rw [int32_of_bounds (by omega) (by omega),size_of_bounds (by omega) (by omega)]

theorem storeMessage_ok (conn after : Connection) (recording stored : Recordings)
    (id : Fin 4) (record : Record) (ok : storeMessage conn recording id record = .ok (after,stored)) :
    ∃ closed write,
      recordAppend (conn.blockLen - 1).toNat (conn.receiveBuffer.drop 8) record (recording id).write =
        .ok (closed,write) ∧
      1 ≤ conn.blockLen ∧ conn.length = 8 + conn.blockLen ∧ conn.length ≤ 4096 ∧
      after.receiveBuffer = moveDown conn.receiveBuffer conn.length.toNat (4096 - conn.length.toNat) ∧
      after.usedReceiveBuffer = conn.usedReceiveBuffer - conn.length ∧
      after.clientEp = conn.clientEp ∧
      after.messagesProcessed = Function.update conn.messagesProcessed id (u32 (conn.messagesProcessed id + 1)) ∧
      after.bytesProcessed = Function.update conn.bytesProcessed id
        (u32 (conn.bytesProcessed id + conn.length.toNat)) ∧
      stored = Function.update recording id {recording id with record := some closed, write := write} := by
  obtain ⟨⟨closed,write⟩,append,rest⟩ := (bind_ok _ _ _).mp ok
  obtain ⟨consumed,consume,rest⟩ := (bind_ok _ _ _).mp rest
  simp only [pure,Except.pure,Except.ok.injEq,Prod.mk.injEq] at rest
  obtain ⟨rfl,rfl⟩ := rest
  obtain ⟨_,_,readable,_⟩ := recordAppend_ok _ _ _ _ _ _ append
  obtain ⟨positive,_,length,narrowed⟩ := block_positive conn readable
  obtain ⟨_,bounded,buffer,used,ep⟩ := consume_ok _ _ _ consume
  rw [narrowed] at append
  have counted : size conn.length = conn.length.toNat := size_of_bounds (by omega) (by omega)
  exact ⟨closed,write,append,positive,length,bounded,buffer,used,ep,rfl,by rw [counted],rfl⟩

theorem header_received (conn : Connection) (enough : 8 ≤ conn.usedReceiveBuffer) :
    readInt conn.received = conn.blockLen ∧ playerId conn.received = conn.clientId := by
  have kept (i : Nat) (small : i < 8) : conn.received[i]? = conn.receiveBuffer[i]? := by
    rw [Connection.received,List.getElem?_take_of_lt (by omega)]
  unfold Connection.blockLen Connection.clientId readInt playerId
  rw [kept 0 (by decide),kept 1 (by decide),kept 2 (by decide),kept 3 (by decide),kept 4 (by decide),
    kept 5 (by decide),kept 6 (by decide)]
  exact ⟨rfl,rfl⟩

theorem received_length (conn : Connection) (high : conn.usedReceiveBuffer ≤ 4096) :
    conn.received.length = conn.usedReceiveBuffer.toNat := by
  rw [Connection.received,List.length_take_of_le (by rw [conn.sized]; omega)]

/-- The ways a round can end well, with everything it did. -/
theorem round_ok (conn : Connection) (recording : Recordings) (round : Round)
    (ok : processingRound conn recording = .ok round) :
    ((conn.usedReceiveBuffer < 8 ∨ conn.usedReceiveBuffer < conn.length) ∧ round = .done true conn recording) ∨
    (8 ≤ conn.usedReceiveBuffer ∧ conn.length ≤ conn.usedReceiveBuffer ∧
      ∃ id : Fin 4, conn.clientId = id.val ∧
        (((recording id).record = none ∧ round = .done false conn
            (Function.update recording id {recording id with record := some recordAlloc})) ∨
          ∃ record after stored, (recording id).record = some record ∧
            storeMessage conn recording id record = .ok (after,stored) ∧ round = .next after stored)) := by
  unfold processingRound at ok
  split at ok
  · rename_i short
    exact .inl ⟨.inl short,(Except.ok.inj ok).symm⟩
  · split at ok
    · rename_i short
      exact .inl ⟨.inr short,(Except.ok.inj ok).symm⟩
    · split at ok
      · cases ok
      · split at ok
        · cases ok
        · split at ok
          · rename_i enough complete prints high inside
            refine .inr ⟨by omega,by omega,⟨conn.clientId.toNat,by omega⟩,by simp only []; omega,?_⟩
            dsimp only at ok
            split at ok
            · rename_i absent
              exact .inl ⟨absent,(Except.ok.inj ok).symm⟩
            · rename_i record present
              obtain ⟨⟨after,stored⟩,store,same⟩ := (bind_ok _ _ _).mp ok
              simp only [pure,Except.pure,Except.ok.injEq] at same
              exact .inr ⟨record,after,stored,present,store,same.symm⟩
          · cases ok

theorem round_next (conn after : Connection) (recording stored : Recordings)
    (ok : processingRound conn recording = .ok (.next after stored)) :
    9 ≤ conn.length ∧ conn.length ≤ conn.usedReceiveBuffer ∧
      after.usedReceiveBuffer = conn.usedReceiveBuffer - conn.length ∧ after.clientEp = conn.clientEp := by
  rcases round_ok _ _ _ ok with ⟨_,same⟩ | ⟨_,complete,id,_,⟨_,same⟩ | ⟨record,_,_,_,store,same⟩⟩
  · cases same
  · cases same
  · cases same
    obtain ⟨_,_,_,positive,length,_,_,used,ep,_⟩ := storeMessage_ok _ _ _ _ _ _ store
    exact ⟨by omega,complete,used,ep⟩

theorem round_next_received (conn after : Connection) (recording stored : Recordings)
    (ok : processingRound conn recording = .ok (.next after stored)) (inside : conn.usedReceiveBuffer ≤ 4096) :
    after.received = conn.received.drop conn.length.toNat := by
  obtain ⟨positive,complete,used,_⟩ := round_next _ _ _ _ ok
  rcases round_ok _ _ _ ok with ⟨_,same⟩ | ⟨_,_,id,_,⟨_,same⟩ | ⟨record,_,_,_,store,same⟩⟩
  · cases same
  · cases same
  · cases same
    obtain ⟨_,_,_,_,_,_,buffer,_⟩ := storeMessage_ok _ _ _ _ _ _ store
    have left : (conn.usedReceiveBuffer - conn.length).toNat =
        conn.usedReceiveBuffer.toNat - conn.length.toNat := by omega
    rw [Connection.received,buffer,used,left,
      take_moveDown _ _ _ _ (by rw [conn.sized]; omega) (by omega),Connection.received,List.drop_take]

theorem round_block (conn : Connection) (recording : Recordings) (id : Fin 4) (record closed : Record)
    (write : RecordOffset) (inside : conn.usedReceiveBuffer ≤ 4096) (positive : 1 ≤ conn.blockLen)
    (complete : 8 + conn.blockLen ≤ conn.usedReceiveBuffer) (prints : conn.Printable) (player : conn.clientId = id.val)
    (present : (recording id).record = some record)
    (append : recordAppend (conn.blockLen - 1).toNat (conn.receiveBuffer.drop 8) record (recording id).write =
      .ok (closed,write)) :
    ∃ after, processingRound conn recording = .ok (.next after
      (Function.update recording id {recording id with record := some closed, write := write})) := by
  have length : conn.length = 8 + conn.blockLen := int32_of_bounds (by omega) (by omega)
  have narrowed : size (int32 (conn.blockLen - 1)) = (conn.blockLen - 1).toNat := by
    rw [int32_of_bounds (by omega) (by omega),size_of_bounds (by omega) (by omega)]
  have found : (⟨conn.clientId.toNat,by omega⟩ : Fin 4) = id := Fin.ext (by simp only []; omega)
  unfold processingRound
  rw [if_neg (by omega),if_neg (by omega),if_neg (not_not.mpr prints),if_neg (by omega),dif_pos (by omega)]
  dsimp only
  rw [found,present]
  simp only [storeMessage,narrowed,append,Connection.consume]
  rw [dif_pos (by omega)]
  exact ⟨_,rfl⟩

theorem io_ok (conn after : Connection) (incoming left : List Byte) (poll : Poll) (read : Read) (up : Bool)
    (low : 0 ≤ conn.usedReceiveBuffer) (high : conn.usedReceiveBuffer ≤ 4096)
    (ok : connectionIo conn incoming poll read = .ok (up,after,left)) :
    ∃ got, incoming = got ++ left ∧ after.received = conn.received ++ got ∧
      0 ≤ after.usedReceiveBuffer ∧ after.usedReceiveBuffer ≤ 4096 ∧
      after.bytesProcessed = conn.bytesProcessed ∧ after.messagesProcessed = conn.messagesProcessed := by
  unfold connectionIo at ok
  split at ok
  · cases ok
    exact ⟨[],rfl,by simp,low,high,rfl,rfl⟩
  · dsimp only at ok
    split at ok
    · cases ok
      exact ⟨[],rfl,by simp [Connection.received],low,high,rfl,rfl⟩
    · split at ok
      · cases read with
        | failed errno =>
          cases ok
          exact ⟨[],rfl,by simp [Connection.received],low,high,rfl,rfl⟩
        | upto count =>
          simp only [networkRead] at ok
          obtain ⟨received,deliver,ok⟩ := (bind_ok _ _ _).mp ok
          have same : received = after ∧ left = incoming.drop (min count (size (4096 - conn.usedReceiveBuffer))) := by
            split at ok <;> cases ok <;> exact ⟨rfl,rfl⟩
          obtain ⟨rfl,rfl⟩ := same
          obtain ⟨_,room,_,used,bytes,messages⟩ := deliver_ok _ _ _ deliver
          dsimp only at room used
          have behind := deliver_received _ _ _ deliver
          exact ⟨_,(List.take_append_drop _ _).symm,behind,by rw [used]; omega,by rw [used]; omega,bytes,messages⟩
      · cases ok
        exact ⟨[],rfl,by simp [Connection.received],low,high,rfl,rfl⟩

theorem io_reads (conn : Connection) (incoming : List Byte) (count : Nat) (low : 0 ≤ conn.usedReceiveBuffer)
    (fits : conn.usedReceiveBuffer + count ≤ 4096) (arrived : count ≤ incoming.length)
    (ep : conn.clientEp = endpointFromFd) :
    ∃ after, connectionIo conn incoming (.revents (pollIn ||| pollOut)) (.upto count) =
        .ok (true,after,incoming.drop count) ∧
      after.usedReceiveBuffer = conn.usedReceiveBuffer + count ∧ after.clientEp = endpointFromFd := by
  have asked : min count (size (4096 - conn.usedReceiveBuffer)) = count := by
    rw [size_of_bounds (by omega) (by omega)]
    omega
  have taken : (incoming.take count).length = count := List.length_take_of_le arrived
  have room : 0 ≤ conn.usedReceiveBuffer ∧
      conn.usedReceiveBuffer.toNat + (incoming.take count).length ≤ conn.receiveBuffer.length := by
    rw [conn.sized,taken]
    omega
  simp only [connectionIo,ep,endpointFromFd,networkPoll,networkRead,asked,Connection.deliver]
  rw [dif_pos room]
  refine ⟨_,rfl,?_,rfl⟩
  simp only [taken]

/-- The decoder's loop. Every round that goes on shortens the used bytes. -/
def connectionProcessing (conn : Connection) (recording : Recordings) :
    Except Stop (Bool × Connection × Recordings) :=
  match _round : processingRound conn recording with
  | .error stop => .error stop
  | .ok (.done result conn recording) => .ok (result,conn,recording)
  | .ok (.next after stored) => connectionProcessing after stored
termination_by conn.usedReceiveBuffer.toNat
decreasing_by
  have shorter := round_next _ _ _ _ _round
  omega

theorem processing_stops (conn : Connection) (recording : Recordings) (stop : Stop)
    (round : processingRound conn recording = .error stop) :
    connectionProcessing conn recording = .error stop := by
  unfold connectionProcessing
  split <;> simp_all

theorem processing_done (conn last : Connection) (recording kept : Recordings) (result : Bool)
    (round : processingRound conn recording = .ok (.done result last kept)) :
    connectionProcessing conn recording = .ok (result,last,kept) := by
  unfold connectionProcessing
  split <;> simp_all

theorem processing_next (conn after : Connection) (recording stored : Recordings)
    (round : processingRound conn recording = .ok (.next after stored)) :
    connectionProcessing conn recording = connectionProcessing after stored := by
  conv_lhs => unfold connectionProcessing
  split <;> simp_all

inductive ConnStatus where
  | ok
  | term
  | change
  | corrupt
  deriving DecidableEq, Repr

/-- One command of the send loop: no result when the record has no next command. -/
def connectionSend (conn : Connection) (input : RecordRW) (wire : List Byte) (write : Write) :
    Except Stop (Option (Connection × RecordRW × List Byte)) :=
  match input.record with
  | none => .error .fault
  | some record => do
    let (cmd,read) ← recordRead record input.read
    match cmd with
    | none => return none
    | some cmd =>
      let bytes := cmd ++ [0]
      let (written,wire) := networkWrite wire bytes write
      return some ({conn with buffering := conn.buffering || written != some bytes.length},
        {input with read := read},wire)

/-- The send loop; `writes` gives the kernel's answer to each write in turn.
Every round advances the command count, so the difference bounds the rounds. -/
def sendLoop (targetFrame : Nat) (writes : Nat → Write) :
    Nat → Nat → Connection → RecordRW → List Byte → Except Stop (ConnStatus × Connection × RecordRW × List Byte)
  | 0,_,conn,input,wire => .ok (.ok,conn,input,wire)
  | fuel+1,k,conn,input,wire =>
    if targetFrame > input.read.commandCount then do
      match ← connectionSend conn input wire (writes k) with
      | none => return (.corrupt,conn,input,wire)
      | some (conn,input,wire) => sendLoop targetFrame writes fuel (k+1) conn input wire
    else .ok (.ok,conn,input,wire)

structure Kernel where
  poll : Poll
  read : Read
  writes : Nat → Write

structure Wires where
  incoming : List Byte
  outgoing : List Byte

def connectionSync (targetFrame : Nat) (conn : Connection) (wires : Wires) (input : RecordRW)
    (gameRecord : Recordings) (kernel : Kernel) :
    Except Stop (ConnStatus × Connection × Wires × RecordRW × Recordings) := do
  let (up,conn,incoming) ← connectionIo conn wires.incoming kernel.poll kernel.read
  if !up then return (.term,conn,⟨incoming,wires.outgoing⟩,input,gameRecord)
  let (same,conn,gameRecord) ← connectionProcessing conn gameRecord
  if !same then return (.change,conn,⟨incoming,wires.outgoing⟩,input,gameRecord)
  let (status,conn,input,outgoing) ← sendLoop targetFrame kernel.writes
    (targetFrame - input.read.commandCount) 0 conn input wires.outgoing
  return (status,conn,⟨incoming,outgoing⟩,input,gameRecord)

end Craftsman.Client
