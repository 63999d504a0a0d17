import Craftsman.Network
import Craftsman.Stream.Delimited

/-! The server in the client's process: every command it receives, closed by its
NUL, is sent back to the client as a frame of player 0. -/
namespace Craftsman.NetworkServer
open Craftsman.Memory Craftsman.Network
open Craftsman.Stream.Delimited

structure Server where
  receiveBuffer : List Byte
  usedReceiveBuffer : Nat
  bytesReceived : Nat
  ep : EndPoint
  sized : receiveBuffer.length = 4096

def Server.initial : Server where
  receiveBuffer := List.replicate 4096 0
  usedReceiveBuffer := 0
  bytesReceived := 0
  ep := endpointFromFd
  sized := blank_length

def Server.received (server : Server) : List Byte := server.receiveBuffer.take server.usedReceiveBuffer

/-- The three writes of one message, from a buffer that continues behind it. -/
def serverMessage (n : Nat) (message : List Byte) : List (List Byte) :=
  [le32 (n + 1),[48,48,48,0],message.take (n + 1)]

def processFrom (bytes : List Byte) : Nat → Nat → Nat → List (List Byte) × Nat
  | 0,_,msgStart => ([],msgStart)
  | left+1,i,msgStart =>
    if bytes[i]? = some 0 then
      let (writes,last) := processFrom bytes left (i + 1) (i + 1)
      (serverMessage (i - msgStart) (bytes.drop msgStart) ++ writes,last)
    else processFrom bytes left (i + 1) msgStart

def serverProcess (n : Nat) (bytes : List Byte) : Except Stop (List (List Byte) × Nat) :=
  if n ≤ bytes.length then .ok (processFrom bytes n 0 0) else .error .fault

def errnoWouldBlock (errno : Nat) : Bool := errno == eagain

/-- `-1` comes with the error number of the failed read. -/
def serverHalt (bytes : Option Nat) (errno : Nat) (pollhup : Bool) : Bool :=
  match bytes with
  | none => !errnoWouldBlock errno
  | some 0 => pollhup
  | some (_+1) => false

def Server.compact (server : Server) (processed : Nat) : Except Stop Server :=
  if inside : processed ≤ server.usedReceiveBuffer ∧ server.usedReceiveBuffer ≤ 4096 then
    .ok {server with
      receiveBuffer := moveDown server.receiveBuffer processed (server.usedReceiveBuffer - processed)
      usedReceiveBuffer := server.usedReceiveBuffer - processed
      sized := (moveDown_length _ _ _ (by rw [server.sized]; omega)).trans server.sized}
  else .error .fault

/-- What a read left in the buffer, counted in 64 and in 32 bits; a read that
would have blocked counts as -1. -/
def Server.deliver (server : Server) (got : Option (List Byte)) : Except Stop Server :=
  match got with
  | none => .ok {server with
      bytesReceived := (server.bytesReceived + (2^64 - 1)) % 2^64
      usedReceiveBuffer := u32 (server.usedReceiveBuffer + (2^32 - 1))}
  | some bytes =>
    if inside : server.usedReceiveBuffer + bytes.length ≤ server.receiveBuffer.length then
      .ok {server with
        receiveBuffer := overwrite server.receiveBuffer server.usedReceiveBuffer bytes
        bytesReceived := (server.bytesReceived + bytes.length) % 2^64
        usedReceiveBuffer := u32 (server.usedReceiveBuffer + bytes.length)
        sized := (overwrite_length _ _ _ inside).trans server.sized}
    else .error .fault

def Server.process (server : Server) : Except Stop (List (List Byte) × Server) :=
  match serverProcess server.usedReceiveBuffer server.receiveBuffer with
  | .error stop => .error stop
  | .ok (writes,processed) =>
    if processed = 0 then .ok (writes,server)
    else (server.compact processed).map fun compacted => (writes,compacted)

def Read.errno : Read → Nat
  | .failed errno => errno
  | .upto _ => 0

/-- One round of the server's loop: the writes it makes and the state for the
next round, or none when the loop ends. The buffer is the server's own, so
compacting it before the writes are made changes nothing. -/
def serverRound (server : Server) (wire : List Byte) (poll : Poll) (read : Read) :
    Except Stop (Option (List (List Byte) × Server) × List Byte) :=
  if server.ep.disconnected then .ok (none,wire)
  else
    let (ep,events) := networkPoll server.ep poll
    let polled := {server with ep := ep}
    if flagged events pollNval then .ok (none,wire)
    else if flagged events pollIn then
      let (got,wire) := networkRead wire (size (4096 - server.usedReceiveBuffer)) read
      if serverHalt (got.map List.length) (Read.errno read) (flagged events pollHup) then .ok (none,wire)
      else do
        let received ← polled.deliver got
        let (writes,left) ← received.process
        return (some (writes,left),wire)
    else .ok (some ([],polled),wire)

def messageWrites (text : List Byte) : List (List Byte) := [le32 (text.length + 1),[48,48,48,0],text ++ [0]]

theorem processFrom_split (front begun rest back : List Byte) (unclosed : 0 ∉ begun) :
    processFrom (front ++ (begun ++ (rest ++ back))) rest.length (front.length + begun.length) front.length =
      ((split 0 (begun ++ rest)).1.flatMap messageWrites,
        front.length + (encode 0 (split 0 (begun ++ rest)).1).length) := by
  induction rest generalizing front begun with
  | nil =>
    rw [List.append_nil,split_open 0 begun unclosed]
    rfl
  | cons b rest ih =>
    have here : (front ++ (begun ++ (b::rest ++ back)))[front.length + begun.length]? = some b := by
      rw [← List.append_assoc,List.getElem?_append_right (by simp)]
      simp
    rw [List.length_cons,processFrom,here]
    by_cases closes : b = 0
    · subst b
      have cut := split_segment 0 begun rest unclosed
      have behind := ih (front ++ (begun ++ [0])) [] List.not_mem_nil
      have place : (front ++ (begun ++ [0])).length = front.length + begun.length + 1 := by simp; omega
      simp only [place,List.length_nil,Nat.add_zero,List.nil_append,List.append_assoc,
        List.cons_append] at behind
      have message : serverMessage (front.length + begun.length - front.length)
          ((front ++ (begun ++ (0::rest ++ back))).drop front.length) = messageWrites begun := by
        rw [List.drop_left' rfl,Nat.add_sub_cancel_left]
        simp [serverMessage,messageWrites,List.take_append]
      rw [if_pos rfl,message,cut,List.cons_append,behind]
      simp only [List.flatMap_cons,encode_cons,List.length_append,List.length_cons,Prod.mk.injEq,true_and]
      omega
    · have further : 0 ∉ begun ++ [b] := by
        simp [unclosed,Ne.symm closes]
      have behind := ih front (begun ++ [b]) further
      simp only [List.append_assoc,List.cons_append,List.nil_append,List.length_append,List.length_singleton] at behind
      rw [if_neg (by simpa using closes),← behind,Nat.add_assoc,List.cons_append]

theorem serverProcess_split (n : Nat) (bytes : List Byte) (inside : n ≤ bytes.length) :
    serverProcess n bytes = .ok ((split 0 (bytes.take n)).1.flatMap messageWrites,
      (encode 0 (split 0 (bytes.take n)).1).length) := by
  have whole := processFrom_split [] [] (bytes.take n) (bytes.drop n) List.not_mem_nil
  rw [List.nil_append,List.nil_append,List.take_append_drop,List.length_take_of_le inside] at whole
  rw [serverProcess,if_pos inside]
  simpa using whole

theorem server_received_length (server : Server) (high : server.usedReceiveBuffer ≤ 4096) :
    server.received.length = server.usedReceiveBuffer := by
  rw [Server.received,List.length_take_of_le (by rw [server.sized]; exact high)]

theorem server_deliver (server after : Server) (bytes : List Byte) (ok : server.deliver (some bytes) = .ok after) :
    after.received = server.received ++ bytes ∧ after.usedReceiveBuffer = server.usedReceiveBuffer + bytes.length ∧
      after.usedReceiveBuffer ≤ 4096 ∧ after.ep = server.ep := by
  simp only [Server.deliver] at ok
  split at ok
  · rename_i inside
    have high := server.sized
    cases ok
    have total : u32 (server.usedReceiveBuffer + bytes.length) = server.usedReceiveBuffer + bytes.length :=
      u32_of_lt (by omega)
    refine ⟨?_,total,by dsimp only; omega,rfl⟩
    simp only [Server.received,total]
    exact take_overwrite _ _ _ inside
  · cases ok

theorem server_blocked (server : Server) (high : server.usedReceiveBuffer ≤ 4096) :
    ∃ after, server.deliver none = .ok after ∧ (server.usedReceiveBuffer = 0 → 4096 < after.usedReceiveBuffer) ∧
      (0 < server.usedReceiveBuffer → after.usedReceiveBuffer + 1 = server.usedReceiveBuffer) := by
  refine ⟨_,rfl,?_,?_⟩
  · intro empty
    dsimp only
    rw [empty]
    decide
  · intro some
    dsimp only
    unfold u32
    omega

theorem server_compact (server : Server) (processed : Nat) (low : processed ≤ server.usedReceiveBuffer)
    (high : server.usedReceiveBuffer ≤ 4096) : ∃ after, server.compact processed = .ok after ∧
      after.received = server.received.drop processed ∧
      after.usedReceiveBuffer = server.usedReceiveBuffer - processed ∧ after.ep = server.ep := by
  unfold Server.compact
  rw [dif_pos ⟨low,high⟩]
  refine ⟨_,rfl,?_,rfl,rfl⟩
  simp only [Server.received]
  rw [take_moveDown _ _ _ _ (by rw [server.sized]; omega) (Nat.le_refl _),List.drop_take]

theorem server_process (server : Server) (high : server.usedReceiveBuffer ≤ 4096) :
    ∃ after, server.process = .ok ((split 0 server.received).1.flatMap messageWrites,after) ∧
      after.received = (split 0 server.received).2 ∧ after.usedReceiveBuffer ≤ 4096 ∧ after.ep = server.ep := by
  have process : serverProcess server.usedReceiveBuffer server.receiveBuffer = .ok
      ((split 0 server.received).1.flatMap messageWrites,(encode 0 (split 0 server.received).1).length) :=
    serverProcess_split server.usedReceiveBuffer server.receiveBuffer (by rw [server.sized]; exact high)
  have wire := split_wire 0 server.received
  have total := congrArg List.length wire
  rw [List.length_append,server_received_length _ high] at total
  have tail : server.received.drop (encode 0 (split 0 server.received).1).length = (split 0 server.received).2 := by
    conv_lhs => rw [← wire]
    rw [List.drop_left' (by rw [wire])]
  simp only [Server.process,process]
  by_cases none : (encode 0 (split 0 server.received).1).length = 0
  · refine ⟨server,if_pos none,?_,high,rfl⟩
    rw [← tail,none,List.drop_zero]
  · obtain ⟨after,compact,received,used,ep⟩ :=
      server_compact server (encode 0 (split 0 server.received).1).length (by omega) high
    exact ⟨after,by rw [if_neg none,compact]; rfl,received.trans tail,by omega,ep⟩

theorem serverRound_ok (server after : Server) (wire left : List Byte) (writes : List (List Byte)) (poll : Poll)
    (count : Nat) (high : server.usedReceiveBuffer ≤ 4096) (unclosed : 0 ∉ server.received)
    (ok : serverRound server wire poll (.upto count) = .ok (some (writes,after),left)) :
    ∃ got, wire = got ++ left ∧ writes = (split 0 (server.received ++ got)).1.flatMap messageWrites ∧
      after.received = (split 0 (server.received ++ got)).2 ∧ after.usedReceiveBuffer ≤ 4096 := by
  unfold serverRound at ok
  split at ok
  · cases ok
  · dsimp only at ok
    split at ok
    · cases ok
    · split at ok
      · simp only [networkRead] at ok
        rcases ite_eq_iff.mp ok with ⟨_,same⟩ | ⟨_,ok⟩
        · cases same
        · obtain ⟨received,deliver,ok⟩ := (bind_ok _ _ _).mp ok
          obtain ⟨behind,_,bounded,_⟩ := server_deliver _ _ _ deliver
          obtain ⟨compacted,process,tail,fits,_⟩ := server_process received bounded
          rw [process] at ok
          cases ok
          have joined : received.received = server.received ++
              wire.take (min count (size (4096 - server.usedReceiveBuffer))) := behind
          rw [joined] at tail
          exact ⟨_,(List.take_append_drop _ _).symm,by rw [joined],tail,fits⟩
      · cases ok
        refine ⟨[],rfl,?_,?_,high⟩
        · rw [List.append_nil,split_open 0 _ unclosed]
          rfl
        · rw [List.append_nil,split_open 0 _ unclosed]
          rfl

theorem serverRound_reads (server : Server) (wire : List Byte) (count : Nat)
    (fits : server.usedReceiveBuffer + count ≤ 4096) (arrived : count ≤ wire.length)
    (ep : server.ep = endpointFromFd) :
    ∃ writes after, serverRound server wire (.revents pollIn) (.upto count) =
      .ok (some (writes,after),wire.drop count) := by
  have asked : min count (size (4096 - server.usedReceiveBuffer)) = count := by
    rw [size_of_bounds (by omega) (by omega)]
    omega
  have taken : (wire.take count).length = count := List.length_take_of_le arrived
  have delivered : ∃ after, {server with ep := endpointFromFd}.deliver (some (wire.take count)) = .ok after := by
    simp only [Server.deliver]
    rw [dif_pos (by rw [server.sized,taken]; exact fits)]
    exact ⟨_,rfl⟩
  obtain ⟨received,deliver⟩ := delivered
  obtain ⟨_,_,bounded,_⟩ := server_deliver _ _ _ deliver
  obtain ⟨after,process,_⟩ := server_process received bounded
  have runs : serverHalt (some count) 0 false = false := by
    cases count <;> rfl
  refine ⟨(split 0 received.received).1.flatMap messageWrites,after,?_⟩
  have polled : networkPoll endpointFromFd (.revents pollIn) = (endpointFromFd,pollIn) := rfl
  simp only [serverRound,ep,polled,networkRead,asked,Option.map_some,taken]
  have quiet : flagged pollIn pollHup = false := rfl
  rw [quiet]
  simp only [Read.errno,runs,deliver,process,bind,Except.bind]
  rfl

end Craftsman.NetworkServer
