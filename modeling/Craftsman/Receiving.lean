import Craftsman.Client
import Craftsman.NetworkServer
import Craftsman.StandardInput

/-! The fill counters of the three receive loops. Each loop runs next to an
account of the bytes that its reads delivered and of those that it consumed. -/
namespace Craftsman.Receiving
open Craftsman.Memory Craftsman.Network Craftsman.Client Craftsman.NetworkServer Craftsman.StandardInput
open Craftsman.Stream.Delimited

structure Receiver (σ : Type) where
  state : σ
  delivered : Nat
  consumed : Nat

/-- The counter is what was delivered and not consumed, and the next read starts and
ends inside the buffer. -/
structure Balanced {σ : Type} (receiver : Receiver σ) (used : Int) (size : Nat) : Prop where
  counter : used = (receiver.delivered : Int) - receiver.consumed
  low : 0 ≤ used
  high : used ≤ size

section Runs
variable {σ α : Type}

inductive Run (step : σ → α → Except Stop σ) (condition : σ → α → Prop) (start : σ) : σ → Prop
  | start : Run step condition start start
  | step (before after : σ) (action : α) (run : Run step condition start before) (met : condition before action)
      (ok : step before action = .ok after) : Run step condition start after

theorem run_keeps (step : σ → α → Except Stop σ) (condition : σ → α → Prop) (start last : σ) (Good : σ → Prop)
    (begins : Good start) (keeps : ∀ before after action, Good before → condition before action →
      step before action = .ok after → Good after)
    (run : Run step condition start last) : Good last := by
  induction run with
  | start => exact begins
  | step before after action run met ok ih => exact keeps before after action ih met ok

theorem run_exact (step : σ → α → Except Stop σ) (condition : σ → α → Prop) (start last : σ) (Good : σ → Prop)
    (begins : Good start) (exact_step : ∀ before action, Good before → (condition before action ↔
      ∃ after, step before action = .ok after ∧ Good after))
    (run : Run step condition start last) : Good last := by
  apply run_keeps step condition start last Good begins _ run
  intro before after action good met ok
  obtain ⟨next,same,kept⟩ := (exact_step before action good).mp met
  cases same.symm.trans ok
  exact kept

end Runs

/-! The standard input. -/
section Input

inductive InputAction where
  | poll (wire : List Byte) (poll : Poll) (read : Read)
  | shutdown

/-- The buffer that a poll searches for lines, if it reads. -/
def searched (input : Input) (wire : List Byte) : Poll → Read → Option Input
  | .failed _,_ => none
  | .revents bits,read =>
    if flagged bits pollIn then
      match (networkRead wire (size (bufLen - input.usedBuf)) read).1 with
      | none => some {input with usedBuf := input.usedBuf - 1}
      | some bytes => (input.deliver bytes).toOption
    else none

def lineBytes (events : List Event) : Nat := (events.map fun event => event.1 + 1).sum

/-- The lines with their newlines, or all of a full buffer without a line. -/
def cutOut (input : Input) : Nat :=
  lineBytes (drainLines input).1 + if (drainLines input).2.usedBuf = bufLen then bufLen else 0

/-- The end of a session throws away what was delivered and not consumed. -/
def inputStep (receiver : Receiver Input) : InputAction → Except Stop (Receiver Input)
  | .poll wire poll read => do
    let (_,input,left,_) ← inputPoll receiver.state wire poll read
    return ⟨input,receiver.delivered + (wire.length - left.length),
      receiver.consumed + ((searched receiver.state wire poll read).map cutOut).getD 0⟩
  | .shutdown => .ok ⟨inputShutdown receiver.state,receiver.delivered,receiver.delivered⟩

/-- A poll that reads does not fail, and no newline that the search sees stands behind the bytes in use. -/
def InputSteady (receiver : Receiver Input) : InputAction → Prop
  | .poll wire (.revents bits) read => flagged bits pollIn = true → ∃ count bytes, read = .upto count ∧
      bytes = wire.take (min count (size (bufLen - receiver.state.usedBuf))) ∧
      newline ∉ (visible (overwrite receiver.state.buf receiver.state.usedBuf.toNat bytes)).drop
        (receiver.state.usedBuf.toNat + bytes.length)
  | _ => True

theorem drain_used (input : Input) :
    (drainLines input).2.usedBuf = input.usedBuf - lineBytes (drainLines input).1 := by
  induction input using drainLines.induct with
  | case1 input absent =>
    rw [drain_none _ absent]
    simp [lineBytes]
  | case2 input k found _ _ _ ih =>
    rw [drain_line _ _ found,ih]
    simp only [lineBytes,List.map_cons,List.sum_cons,Input.takeLine]
    omega

theorem drop_used (input : Input) :
    (drainLines input).2.dropLong.usedBuf = input.usedBuf - cutOut input := by
  have drained := drain_used input
  unfold cutOut Input.dropLong
  split
  · next full =>
    rw [full] at drained
    dsimp only
    push_cast
    omega
  · rw [drained]
    push_cast
    omega

theorem lines_inside (input : Input) (used : Nat) :
    newline ∉ (visible input.buf).drop used ↔ lineBytes (drainLines input).1 ≤ used := by
  have closed : 0 ∈ input.buf := List.mem_of_getElem? input.terminated
  obtain ⟨rest,same⟩ := visible_split input.buf closed
  obtain ⟨events,_⟩ := drain_visible input (visible input.buf) rest (visible_free _) same
  have total : lineBytes (drainLines input).1 = (encode newline (split newline (visible input.buf)).1).length := by
    rw [events]
    generalize (split newline (visible input.buf)).1 = lines
    induction lines with
    | nil => rfl
    | cons line lines ih =>
      rw [List.map_cons,lineBytes,List.map_cons,List.sum_cons,← lineBytes,ih,encode_cons,List.length_append,
        List.length_cons]
      omega
  rw [total]
  exact free_behind newline (visible input.buf) used

theorem deliver_inside (input : Input) (bytes : List Byte) (low : 0 ≤ input.usedBuf)
    (fits : input.usedBuf.toNat + bytes.length ≤ bufLen) :
    ∃ received, input.deliver bytes = .ok received ∧ received.usedBuf = input.usedBuf + bytes.length ∧
      received.buf = overwrite input.buf input.usedBuf.toNat bytes := by
  unfold Input.deliver
  by_cases empty : bytes = []
  · refine ⟨input,if_pos empty,by simp [empty],?_⟩
    rw [empty,overwrite,List.append_nil,List.length_nil,Nat.add_zero,List.take_append_drop]
  · rw [if_neg empty,dif_pos ⟨low,fits⟩]
    exact ⟨_,rfl,rfl,rfl⟩

theorem poll_idle (receiver : Receiver Input) (wire : List Byte) (poll : Poll) (read : Read)
    (idle : ∀ bits, poll = .revents bits → flagged bits pollIn = false) :
    inputStep receiver (.poll wire poll read) = .ok receiver := by
  cases poll with
  | failed errno => simp [inputStep,inputPoll,searched,bind,Except.bind,pure,Except.pure]
  | revents bits => simp [inputStep,inputPoll,searched,idle bits rfl,bind,Except.bind,pure,Except.pure]

theorem poll_failed (receiver : Receiver Input) (wire : List Byte) (bits errno : Nat)
    (readable : flagged bits pollIn = true) :
    inputStep receiver (.poll wire (.revents bits) (.failed errno)) =
      .ok ⟨(drainLines {receiver.state with usedBuf := receiver.state.usedBuf - 1}).2.dropLong,receiver.delivered,
        receiver.consumed + cutOut {receiver.state with usedBuf := receiver.state.usedBuf - 1}⟩ := by
  simp [inputStep,inputPoll,searched,readable,networkRead,bind,Except.bind,pure,Except.pure]

theorem poll_reads (receiver : Receiver Input) (wire bytes : List Byte) (bits count : Nat)
    (readable : flagged bits pollIn = true) (low : 0 ≤ receiver.state.usedBuf) (high : receiver.state.usedBuf ≤ bufLen)
    (got : bytes = wire.take (min count (size (bufLen - receiver.state.usedBuf)))) :
    ∃ received, inputStep receiver (.poll wire (.revents bits) (.upto count)) =
        .ok ⟨(drainLines received).2.dropLong,receiver.delivered + bytes.length,
          receiver.consumed + cutOut received⟩ ∧
      received.usedBuf = receiver.state.usedBuf + bytes.length ∧ received.usedBuf ≤ bufLen ∧
      received.buf = overwrite receiver.state.buf receiver.state.usedBuf.toNat bytes := by
  have asked := space_left receiver.state.usedBuf low high
  have length : bytes.length = wire.length -
      (wire.drop (min count (size (bufLen - receiver.state.usedBuf)))).length := by
    rw [got,List.length_take,List.length_drop]
    omega
  have fits : receiver.state.usedBuf.toNat + bytes.length ≤ bufLen := by
    rw [got,List.length_take,asked]
    omega
  obtain ⟨received,deliver,used,buf⟩ := deliver_inside receiver.state bytes low fits
  refine ⟨received,?_,used,by omega,buf⟩
  simp only [inputStep,inputPoll,searched,readable,networkRead,← got,deliver,if_true,bind,Except.bind,pure,
    Except.pure,Except.toOption,Option.map_some,Option.getD_some,length]

/-- A failed read leaves the counter one short. -/
theorem poll_failed_unbalanced (receiver after : Receiver Input) (wire : List Byte) (bits errno : Nat)
    (readable : flagged bits pollIn = true) (balanced : Balanced receiver receiver.state.usedBuf bufLen)
    (ok : inputStep receiver (.poll wire (.revents bits) (.failed errno)) = .ok after) :
    ¬ Balanced after after.state.usedBuf bufLen := by
  have counter := balanced.counter
  cases (poll_failed receiver wire bits errno readable).symm.trans ok
  intro later
  have off := later.counter
  rw [drop_used] at off
  dsimp only at off
  omega

/-- Giving up a full buffer aside, the counter stays above zero when the lines end inside the bytes in use. -/
theorem drop_low (input : Input) : 0 ≤ (drainLines input).2.dropLong.usedBuf ↔
    (lineBytes (drainLines input).1 : Int) ≤ input.usedBuf := by
  have drained := drain_used input
  unfold Input.dropLong
  split
  · next full =>
    rw [full] at drained
    have room : (0 : Int) ≤ bufLen := by decide
    exact ⟨fun _ => by omega,fun _ => Int.le_refl 0⟩
  · omega

theorem poll_reads_exact (receiver : Receiver Input) (wire : List Byte) (bits count : Nat)
    (readable : flagged bits pollIn = true) (balanced : Balanced receiver receiver.state.usedBuf bufLen) :
    InputSteady receiver (.poll wire (.revents bits) (.upto count)) ↔
      ∃ after, inputStep receiver (.poll wire (.revents bits) (.upto count)) = .ok after ∧
        Balanced after after.state.usedBuf bufLen := by
  have low := balanced.low
  have counter := balanced.counter
  obtain ⟨received,step,used,room,buf⟩ := poll_reads receiver wire _ bits count readable low balanced.high rfl
  generalize got : wire.take (min count (size (bufLen - receiver.state.usedBuf))) = bytes at step used buf
  have inside := lines_inside received received.usedBuf.toNat
  have total : received.usedBuf.toNat = receiver.state.usedBuf.toNat + bytes.length := by omega
  rw [total,buf] at inside
  have dropped := drop_used received
  -- the counter can only leave the buffer downwards, past a newline behind the bytes in use
  have stays := drop_low received
  constructor
  · intro steady
    obtain ⟨_,_,same,here,clear⟩ := steady readable
    cases same
    rw [got] at here
    subst here
    have ends := inside.mp clear
    refine ⟨_,step,?_,stays.mpr (by omega),?_⟩
    · dsimp only
      rw [dropped]
      push_cast
      omega
    · dsimp only
      rw [dropped]
      omega
  · rintro ⟨after,other,later⟩
    cases step.symm.trans other
    have ends := stays.mp later.low
    exact fun _ => ⟨count,bytes,rfl,got.symm,inside.mpr (by omega)⟩

theorem input_exact (receiver : Receiver Input) (action : InputAction)
    (balanced : Balanced receiver receiver.state.usedBuf bufLen) :
    InputSteady receiver action ↔
      ∃ after, inputStep receiver action = .ok after ∧ Balanced after after.state.usedBuf bufLen := by
  cases action with
  | shutdown =>
    refine ⟨fun _ => ⟨_,rfl,(Int.sub_self _).symm,Int.le_refl 0,?_⟩,fun _ => trivial⟩
    exact Int.le_trans balanced.low balanced.high
  | poll wire poll read =>
    cases poll with
    | failed errno => exact ⟨fun _ => ⟨_,poll_idle _ _ _ _ (fun _ same => nomatch same),balanced⟩,fun _ => trivial⟩
    | revents bits =>
      cases readable : flagged bits pollIn with
      | false =>
        refine ⟨fun _ => ⟨_,poll_idle _ _ _ _ ?_,balanced⟩,fun _ ready => absurd ready (by simp [readable])⟩
        rintro _ ⟨rfl⟩
        exact readable
      | true =>
        cases read with
        | upto count => exact poll_reads_exact receiver wire bits count readable balanced
        | failed errno =>
          constructor
          · intro steady
            obtain ⟨_,_,failed,_⟩ := steady readable
            cases failed
          · rintro ⟨after,step,later⟩
            exact absurd later (poll_failed_unbalanced receiver after wire bits errno readable balanced step)

end Input

/-! The client. -/
section Client

inductive ClientAction where
  | io (incoming : List Byte) (poll : Poll) (read : Read)
  | processing (recording : Recordings)

/-- The bytes of the blocks that a call stores. -/
def processedBytes (conn : Connection) (recording : Recordings) : Nat :=
  match _round : processingRound conn recording with
  | .error _ => 0
  | .ok (.done _ _ _) => 0
  | .ok (.next after stored) => conn.length.toNat + processedBytes after stored
termination_by conn.usedReceiveBuffer.toNat
decreasing_by
  have shorter := round_next _ _ _ _ _round
  omega

def clientStep (receiver : Receiver Connection) : ClientAction → Except Stop (Receiver Connection)
  | .io incoming poll read => do
    let (_,conn,left) ← connectionIo receiver.state incoming poll read
    return ⟨conn,receiver.delivered + (incoming.length - left.length),receiver.consumed⟩
  | .processing recording => do
    let (_,conn,_) ← connectionProcessing receiver.state recording
    return ⟨conn,receiver.delivered,receiver.consumed + processedBytes receiver.state recording⟩

structure IoReads (conn : Connection) (poll : Poll) : Prop where
  up : conn.clientEp.disconnected = false
  writable : flagged (networkPoll conn.clientEp poll).2 pollOut = true
  readable : flagged (networkPoll conn.clientEp poll).2 pollIn = true

/-- A call that reads does not fail. -/
def ClientSteady (receiver : Receiver Connection) : ClientAction → Prop
  | .io _ poll read => IoReads receiver.state poll → ∃ count, read = .upto count
  | .processing _ => True

def total (counts : Fin 4 → Nat) : Nat := counts 0 + counts 1 + counts 2 + counts 3

def totalProcessed (conn : Connection) : Nat := total conn.bytesProcessed

/-- The counter is balanced, and the totals agree in the arithmetic of 32 bits. -/
structure Accounted (receiver : Receiver Connection) : Prop where
  balanced : Balanced receiver receiver.state.usedReceiveBuffer 4096
  received : receiver.state.bytesReceived =
    u32 (totalProcessed receiver.state + receiver.state.usedReceiveBuffer.toNat)
  processed : totalProcessed receiver.state ≤ receiver.consumed

theorem Accounted.plain {receiver : Receiver Connection} (accounted : Accounted receiver)
    (small : receiver.delivered < 2^32) :
    (receiver.state.bytesReceived : Int) = totalProcessed receiver.state + receiver.state.usedReceiveBuffer := by
  have counter := accounted.balanced.counter
  have low := accounted.balanced.low
  have processed := accounted.processed
  rw [accounted.received,u32_of_lt (by omega)]
  omega

theorem processed_next (conn after : Connection) (recording stored : Recordings)
    (round : processingRound conn recording = .ok (.next after stored)) :
    processedBytes conn recording = conn.length.toNat + processedBytes after stored := by
  conv_lhs => unfold processedBytes
  split <;> simp_all

theorem processed_done (conn last : Connection) (recording kept : Recordings) (result : Bool)
    (round : processingRound conn recording = .ok (.done result last kept)) : processedBytes conn recording = 0 := by
  unfold processedBytes
  split <;> simp_all

theorem total_update (counts : Fin 4 → Nat) (player : Fin 4) (length : Nat) :
    total (Function.update counts player (u32 (counts player + length))) ≤ total counts + length ∧
      u32 (total (Function.update counts player (u32 (counts player + length)))) = u32 (total counts + length) := by
  have wraps := Nat.mod_le (counts player + length) (2^32)
  simp only [total,Function.update_apply,u32]
  match player with
  | 0 | 1 | 2 | 3 =>
    simp
    omega

theorem round_counts (conn after : Connection) (recording stored : Recordings)
    (round : processingRound conn recording = .ok (.next after stored)) :
    after.bytesReceived = conn.bytesReceived ∧ totalProcessed after ≤ totalProcessed conn + conn.length.toNat ∧
      u32 (totalProcessed after) = u32 (totalProcessed conn + conn.length.toNat) := by
  rcases round_ok _ _ _ round with ⟨_,same⟩ | ⟨_,_,player,_,⟨_,same⟩ | ⟨record,_,_,_,store,same⟩⟩
  · cases same
  · cases same
  · cases same
    obtain ⟨_,_,_,_,_,_,_,_,_,_,bytes,_⟩ := storeMessage_ok _ _ _ _ _ _ store
    refine ⟨?_,?_⟩
    · obtain ⟨_,_,rest⟩ := (bind_ok _ _ _).mp store
      obtain ⟨consumed,consume,rest⟩ := (bind_ok _ _ _).mp rest
      simp only [pure,Except.pure,Except.ok.injEq,Prod.mk.injEq] at rest
      unfold Connection.consume at consume
      split at consume
      · rw [← rest.1,← Except.ok.inj consume]
      · cases consume
    · rw [totalProcessed,totalProcessed,bytes]
      exact total_update conn.bytesProcessed player conn.length.toNat

theorem processing_counts (conn after : Connection) (recording stored : Recordings) (result : Bool)
    (low : 0 ≤ conn.usedReceiveBuffer) (ok : connectionProcessing conn recording = .ok (result,after,stored)) :
    after.bytesReceived = conn.bytesReceived ∧ 0 ≤ after.usedReceiveBuffer ∧
      after.usedReceiveBuffer + processedBytes conn recording = conn.usedReceiveBuffer ∧
      totalProcessed after ≤ totalProcessed conn + processedBytes conn recording ∧
      u32 (totalProcessed after) = u32 (totalProcessed conn + processedBytes conn recording) := by
  induction conn, recording using connectionProcessing.induct with
  | case1 conn recording stop round =>
    rw [processing_stops _ _ _ round] at ok
    cases ok
  | case2 conn recording ended last kept round =>
    have none := processed_done _ _ _ _ _ round
    rw [processing_done _ _ _ _ _ round] at ok
    cases ok
    have same : after = conn := by
      rcases round_ok _ _ _ round with ⟨_,same⟩ | ⟨_,_,_,_,⟨_,same⟩ | ⟨_,_,_,_,_,same⟩⟩ <;> cases same <;> rfl
    rw [same,none]
    exact ⟨rfl,low,Int.add_zero _,Nat.le_refl _,rfl⟩
  | case3 conn recording next moved round ih =>
    rw [processing_next _ _ _ _ round] at ok
    obtain ⟨positive,complete,used,_⟩ := round_next _ _ _ _ round
    obtain ⟨same,total,wrapped⟩ := round_counts _ _ _ _ round
    obtain ⟨received,inside,left,more,again⟩ := ih (by omega) ok
    rw [processed_next _ _ _ _ round]
    refine ⟨received.trans same,inside,by omega,by omega,?_⟩
    unfold u32 at *
    omega

theorem io_cases (conn after : Connection) (incoming left : List Byte) (poll : Poll) (read : Read) (up : Bool)
    (ok : connectionIo conn incoming poll read = .ok (up,after,left)) :
    ¬ IoReads conn poll ∧ left = incoming ∧ after = {conn with clientEp := after.clientEp} ∨
    IoReads conn poll ∧ (∃ errno, read = .failed errno) ∧ after.usedReceiveBuffer = conn.usedReceiveBuffer ∧
      after.bytesProcessed = conn.bytesProcessed ∧ after.bytesReceived = u32 (conn.bytesReceived + (2^32 - 1)) ∨
    IoReads conn poll ∧ ∃ count bytes, read = .upto count ∧
      bytes = incoming.take (min count (size (4096 - conn.usedReceiveBuffer))) ∧ left = incoming.drop bytes.length ∧
      conn.usedReceiveBuffer + bytes.length ≤ 4096 ∧
      after.usedReceiveBuffer = conn.usedReceiveBuffer + bytes.length ∧ after.bytesProcessed = conn.bytesProcessed ∧
      after.bytesReceived = u32 (conn.bytesReceived + bytes.length) := by
  unfold connectionIo at ok
  split at ok
  · next down =>
    cases ok
    exact .inl ⟨fun reads => absurd down (by simp [reads.up]),rfl,rfl⟩
  · next connected =>
    dsimp only at ok
    split at ok
    · next unwritable =>
      cases ok
      exact .inl ⟨fun reads => absurd unwritable (by simp [reads.writable]),rfl,rfl⟩
    · next writable =>
      split at ok
      · next readable =>
        have reads : IoReads conn poll := ⟨by simpa using connected,by simpa using writable,readable⟩
        cases read with
        | failed errno =>
          cases ok
          exact .inr (.inl ⟨reads,⟨errno,rfl⟩,rfl,rfl,rfl⟩)
        | upto count =>
          simp only [networkRead] at ok
          obtain ⟨middle,deliver,rest⟩ := (bind_ok _ _ _).mp ok
          have same : middle = after ∧ left = incoming.drop (min count (size (4096 - conn.usedReceiveBuffer))) := by
            split at rest <;> cases rest <;> exact ⟨rfl,rfl⟩
          obtain ⟨rfl,rfl⟩ := same
          obtain ⟨low,room,_,used,processed,_⟩ := deliver_ok _ _ _ deliver
          dsimp only at low room used processed
          refine .inr (.inr ⟨reads,count,_,rfl,rfl,?_,by omega,used,processed,?_⟩)
          · rw [List.length_take]
            exact List.drop_eq_drop_min
          · unfold Connection.deliver at deliver
            split at deliver
            · rw [← Except.ok.inj deliver]
            · cases deliver
      · next unreadable =>
        cases ok
        exact .inl ⟨fun reads => absurd reads.readable unreadable,rfl,rfl⟩

theorem accounted_start (ep : EndPoint) : Accounted ⟨{Connection.initial with clientEp := ep},0,0⟩ := by
  have none : totalProcessed {Connection.initial with clientEp := ep} = 0 := rfl
  refine ⟨⟨rfl,Int.le_refl 0,(by decide : (0 : Int) ≤ 4096)⟩,?_,by rw [none]⟩
  rw [none]
  rfl

theorem io_exact (receiver : Receiver Connection) (conn : Connection) (incoming left : List Byte) (poll : Poll)
    (read : Read) (up : Bool) (accounted : Accounted receiver)
    (io : connectionIo receiver.state incoming poll read = .ok (up,conn,left)) :
    Accounted ⟨conn,receiver.delivered + (incoming.length - left.length),receiver.consumed⟩ ↔
      (IoReads receiver.state poll → ∃ count, read = .upto count) := by
  obtain ⟨⟨counter,low,high⟩,received,processed⟩ := accounted
  rcases io_cases _ conn incoming left poll read up io with
    ⟨idle,rest,same⟩ | ⟨reads,⟨errno,failed⟩,used,players,counted⟩ |
    ⟨reads,count,bytes,upto,got,rest,room,used,players,counted⟩
  · refine ⟨fun _ reads => absurd reads idle,fun _ => ?_⟩
    rw [same,rest,Nat.sub_self]
    exact ⟨⟨counter,low,high⟩,received,processed⟩
  · have same : totalProcessed conn = totalProcessed receiver.state := congrArg total players
    constructor
    · intro later
      have off := later.received
      dsimp only at off
      rw [counted,received,used,same] at off
      unfold u32 at off
      omega
    · intro steady
      obtain ⟨count,upto⟩ := steady reads
      rw [failed] at upto
      cases upto
  · refine ⟨fun _ _ => ⟨count,upto⟩,fun _ => ?_⟩
    have same : totalProcessed conn = totalProcessed receiver.state := congrArg total players
    have length : incoming.length - left.length = bytes.length := by
      have short : bytes.length ≤ incoming.length := by
        rw [got,List.length_take]
        exact Nat.min_le_right _ _
      rw [rest,List.length_drop]
      omega
    rw [length]
    refine ⟨⟨?_,?_,?_⟩,?_,?_⟩
    · dsimp only
      push_cast
      omega
    · dsimp only
      omega
    · dsimp only
      omega
    · have more : (receiver.state.usedReceiveBuffer + bytes.length).toNat =
          receiver.state.usedReceiveBuffer.toNat + bytes.length := by omega
      dsimp only
      rw [counted,received,used,same,more]
      unfold u32
      omega
    · dsimp only
      rw [same]
      exact processed

theorem processing_accounted (receiver : Receiver Connection) (conn : Connection) (recording stored : Recordings)
    (result : Bool) (accounted : Accounted receiver)
    (process : connectionProcessing receiver.state recording = .ok (result,conn,stored)) :
    Accounted ⟨conn,receiver.delivered,receiver.consumed + processedBytes receiver.state recording⟩ := by
  obtain ⟨⟨counter,low,high⟩,received,processed⟩ := accounted
  obtain ⟨same,inside,left,more,again⟩ := processing_counts _ conn recording stored result low process
  refine ⟨⟨?_,inside,?_⟩,?_,?_⟩
  · dsimp only
    push_cast
    omega
  · dsimp only
    omega
  · dsimp only
    rw [same,received]
    unfold u32 at *
    omega
  · dsimp only
    omega

theorem client_exact (receiver after : Receiver Connection) (action : ClientAction) (accounted : Accounted receiver)
    (ok : clientStep receiver action = .ok after) : Accounted after ↔ ClientSteady receiver action := by
  cases action with
  | io incoming poll read =>
    obtain ⟨⟨up,conn,left⟩,io,same⟩ := (bind_ok _ _ _).mp ok
    cases same
    exact io_exact receiver conn incoming left poll read up accounted io
  | processing recording =>
    obtain ⟨⟨result,conn,stored⟩,process,same⟩ := (bind_ok _ _ _).mp ok
    cases same
    exact ⟨fun _ => trivial,fun _ => processing_accounted receiver conn recording stored result accounted process⟩

end Client

/-! The server. -/
section Server

structure ServerAction where
  wire : List Byte
  poll : Poll
  read : Read

structure RoundReads (server : Server) (poll : Poll) : Prop where
  up : server.ep.disconnected = false
  valid : flagged (networkPoll server.ep poll).2 pollNval = false
  readable : flagged (networkPoll server.ep poll).2 pollIn = true

/-- The buffer behind the read of a round, if it reads and the loop goes on. -/
def behindRead (server : Server) (action : ServerAction) : Option Server :=
  if server.ep.disconnected then none
  else
    let (ep,events) := networkPoll server.ep action.poll
    if flagged events pollNval then none
    else if flagged events pollIn then
      let got := (networkRead action.wire (size (4096 - server.usedReceiveBuffer)) action.read).1
      if serverHalt (got.map List.length) (Read.errno action.read) (flagged events pollHup) then none
      else ({server with ep := ep}.deliver got).toOption
    else none

def closedBytes (server : Server) : Nat :=
  match serverProcess server.usedReceiveBuffer server.receiveBuffer with
  | .error _ => 0
  | .ok (_,processed) => processed

/-- A round after which the loop ends leaves the buffer as it is. -/
def serverStep (receiver : Receiver Server) (action : ServerAction) : Except Stop (Receiver Server) := do
  match ← serverRound receiver.state action.wire action.poll action.read with
  | (none,_) => return receiver
  | (some (_,server),left) =>
    return ⟨server,receiver.delivered + (action.wire.length - left.length),
      receiver.consumed + ((behindRead receiver.state action).map closedBytes).getD 0⟩

/-- No read is answered that it would block. -/
def ServerSteady (receiver : Receiver Server) (action : ServerAction) : Prop :=
  RoundReads receiver.state action.poll → ∀ errno, action.read = .failed errno → errnoWouldBlock errno = false

theorem process_used (server : Server) (high : server.usedReceiveBuffer ≤ 4096) :
    ∃ writes after, server.process = .ok (writes,after) ∧
      after.usedReceiveBuffer + closedBytes server = server.usedReceiveBuffer := by
  have bytes : closedBytes server = (encode 0 (split 0 server.received).1).length := by
    rw [closedBytes,serverProcess_split _ _ (by rw [server.sized]; exact high)]
    rfl
  have total := congrArg List.length (split_wire 0 server.received)
  rw [List.length_append,server_received_length server high] at total
  obtain ⟨after,process,received,bound,_⟩ := server_process server high
  refine ⟨_,after,process,?_⟩
  rw [← server_received_length after bound,received,bytes]
  omega

theorem round_idle (receiver : Receiver Server) (action : ServerAction)
    (idle : RoundReads receiver.state action.poll → ∃ errno, action.read = .failed errno ∧ errnoWouldBlock errno = false) :
    ∃ after, serverStep receiver action = .ok after ∧
      after.state.usedReceiveBuffer = receiver.state.usedReceiveBuffer ∧ after.delivered = receiver.delivered ∧
      after.consumed = receiver.consumed := by
  unfold serverStep serverRound behindRead
  by_cases down : receiver.state.ep.disconnected = true
  · simp [down,bind,Except.bind,pure,Except.pure]
  · by_cases invalid : flagged (networkPoll receiver.state.ep action.poll).2 pollNval = true
    · simp [down,invalid,bind,Except.bind,pure,Except.pure]
    · by_cases readable : flagged (networkPoll receiver.state.ep action.poll).2 pollIn = true
      · obtain ⟨errno,failed,halts⟩ := idle ⟨by simpa using down,by simpa using invalid,readable⟩
        simp [down,invalid,readable,failed,networkRead,serverHalt,Read.errno,halts,bind,Except.bind,pure,Except.pure]
      · simp [down,invalid,readable,bind,Except.bind,pure,Except.pure]

theorem round_reads (receiver : Receiver Server) (action : ServerAction) (count : Nat)
    (reads : RoundReads receiver.state action.poll) (upto : action.read = .upto count)
    (balanced : Balanced receiver receiver.state.usedReceiveBuffer 4096) :
    ∃ after, serverStep receiver action = .ok after ∧ Balanced after after.state.usedReceiveBuffer 4096 := by
  obtain ⟨counter,low,high⟩ := balanced
  have up := reads.up
  have valid := reads.valid
  have readable := reads.readable
  have asked : size (4096 - receiver.state.usedReceiveBuffer) = 4096 - receiver.state.usedReceiveBuffer := by
    rw [size_of_bounds (by omega) (by omega)]
    omega
  generalize got : action.wire.take (min count (size (4096 - receiver.state.usedReceiveBuffer))) = bytes
  have fits : receiver.state.usedReceiveBuffer + bytes.length ≤ 4096 := by
    rw [← got,List.length_take,asked]
    omega
  have length : action.wire.length -
      (action.wire.length - min count (size (4096 - receiver.state.usedReceiveBuffer))) = bytes.length := by
    rw [← got,List.length_take]
    omega
  by_cases halts : serverHalt (some bytes.length) 0
      (flagged (networkPoll receiver.state.ep action.poll).2 pollHup) = true
  · refine ⟨receiver,?_,counter,low,high⟩
    simp [serverStep,serverRound,up,valid,readable,upto,networkRead,got,Read.errno,halts,bind,Except.bind,pure,
      Except.pure]
  · have delivered : ∃ received, {receiver.state with ep := (networkPoll receiver.state.ep action.poll).1}.deliver
        (some bytes) = .ok received := by
      simp only [Server.deliver]
      rw [dif_pos (by rw [receiver.state.sized]; exact fits)]
      exact ⟨_,rfl⟩
    obtain ⟨received,deliver⟩ := delivered
    obtain ⟨_,used,bounded,_⟩ := server_deliver _ _ _ deliver
    obtain ⟨writes,after,process,left⟩ := process_used received bounded
    have step : serverStep receiver action =
        .ok ⟨after,receiver.delivered + bytes.length,receiver.consumed + closedBytes received⟩ := by
      simp [serverStep,serverRound,behindRead,up,valid,readable,upto,networkRead,got,Read.errno,halts,deliver,process,bind,
        Except.bind,pure,Except.pure,Except.toOption,length]
    dsimp only at used
    refine ⟨_,step,?_,Int.natCast_nonneg _,?_⟩
    · dsimp only
      push_cast
      omega
    · dsimp only
      omega

theorem round_blocked (receiver : Receiver Server) (action : ServerAction) (errno : Nat)
    (reads : RoundReads receiver.state action.poll) (failed : action.read = .failed errno)
    (blocks : errnoWouldBlock errno = true) (high : receiver.state.usedReceiveBuffer ≤ 4096) :
    ∃ received, (receiver.state.usedReceiveBuffer = 0 → 4096 < received.usedReceiveBuffer) ∧
      (0 < receiver.state.usedReceiveBuffer → received.usedReceiveBuffer + 1 = receiver.state.usedReceiveBuffer) ∧
      serverStep receiver action = (received.process >>= fun result =>
        .ok ⟨result.2,receiver.delivered,receiver.consumed + closedBytes received⟩) := by
  obtain ⟨received,deliver,outside,less⟩ :=
    server_blocked {receiver.state with ep := (networkPoll receiver.state.ep action.poll).1} high
  refine ⟨received,outside,less,?_⟩
  have up := reads.up
  have valid := reads.valid
  have readable := reads.readable
  simp only [serverStep,serverRound,behindRead,up,valid,readable,failed,networkRead,Read.errno,serverHalt,blocks,
    Option.map_none,deliver,Bool.not_true,Bool.false_eq_true,if_false,if_true,Except.toOption,Option.map_some,
    Option.getD_some,ok_bind]
  cases received.process with
  | error stop => rfl
  | ok result =>
    rw [ok_bind,ok_bind]
    simp only [bind,Except.bind,pure,Except.pure,Nat.sub_self,Nat.add_zero]

theorem round_faults (receiver : Receiver Server) (action : ServerAction) (errno : Nat)
    (reads : RoundReads receiver.state action.poll) (failed : action.read = .failed errno)
    (blocks : errnoWouldBlock errno = true) (empty : receiver.state.usedReceiveBuffer = 0) :
    serverStep receiver action = .error .fault := by
  obtain ⟨received,outside,_,step⟩ := round_blocked receiver action errno reads failed blocks (by omega)
  have past := outside empty
  have fault : serverProcess received.usedReceiveBuffer received.receiveBuffer = .error .fault := by
    rw [serverProcess,if_neg (by rw [received.sized]; omega)]
  rw [step,Server.process,fault]
  rfl

theorem round_blocks (receiver after : Receiver Server) (action : ServerAction) (errno : Nat)
    (reads : RoundReads receiver.state action.poll) (failed : action.read = .failed errno)
    (blocks : errnoWouldBlock errno = true) (balanced : Balanced receiver receiver.state.usedReceiveBuffer 4096)
    (ok : serverStep receiver action = .ok after) : ¬ Balanced after after.state.usedReceiveBuffer 4096 := by
  obtain ⟨counter,low,high⟩ := balanced
  by_cases empty : receiver.state.usedReceiveBuffer = 0
  · rw [round_faults receiver action errno reads failed blocks empty] at ok
    cases ok
  · obtain ⟨received,_,less,step⟩ := round_blocked receiver action errno reads failed blocks (by omega)
    have less := less (Nat.pos_of_ne_zero empty)
    obtain ⟨writes,last,process,left⟩ := process_used received (by omega)
    rw [step,process] at ok
    cases ok
    intro later
    have off := later.counter
    dsimp only at off
    push_cast at off
    omega

theorem server_exact (receiver : Receiver Server) (action : ServerAction)
    (balanced : Balanced receiver receiver.state.usedReceiveBuffer 4096) :
    ServerSteady receiver action ↔
      ∃ after, serverStep receiver action = .ok after ∧ Balanced after after.state.usedReceiveBuffer 4096 := by
  constructor
  · intro steady
    by_cases reads : RoundReads receiver.state action.poll
    · cases read : action.read with
      | upto count => exact round_reads receiver action count reads read balanced
      | failed errno =>
        obtain ⟨after,step,used,delivered,consumed⟩ :=
          round_idle receiver action fun _ => ⟨errno,read,steady reads errno read⟩
        refine ⟨after,step,?_⟩
        rw [used]
        exact ⟨by rw [delivered,consumed]; exact balanced.counter,balanced.low,balanced.high⟩
    · obtain ⟨after,step,used,delivered,consumed⟩ := round_idle receiver action fun here => absurd here reads
      refine ⟨after,step,?_⟩
      rw [used]
      exact ⟨by rw [delivered,consumed]; exact balanced.counter,balanced.low,balanced.high⟩
  · rintro ⟨after,step,later⟩ reads errno failed
    by_contra blocks
    exact round_blocks receiver after action errno reads failed (by simpa using blocks) balanced step later

end Server

section Receivers

theorem balanced_start {σ : Type} (state : σ) (size : Nat) : Balanced ⟨state,0,0⟩ 0 size :=
  ⟨rfl,Int.le_refl 0,Int.natCast_nonneg size⟩

/-- In a run of steady steps each loop's counter is what was delivered and not consumed
and stays inside its buffer, and the client's totals agree; from every such state a step
keeps this exactly when it is steady. -/
theorem steady_receivers (ep served : EndPoint) :
    (∀ receiver, Run inputStep InputSteady ⟨.init,0,0⟩ receiver →
      Balanced receiver receiver.state.usedBuf bufLen ∧ ∀ action, InputSteady receiver action ↔
        ∃ after, inputStep receiver action = .ok after ∧ Balanced after after.state.usedBuf bufLen) ∧
    (∀ receiver, Run clientStep ClientSteady ⟨{Connection.initial with clientEp := ep},0,0⟩ receiver →
      Accounted receiver ∧
        (receiver.delivered < 2^32 → (receiver.state.bytesReceived : Int) =
          totalProcessed receiver.state + receiver.state.usedReceiveBuffer) ∧
        ∀ action after, clientStep receiver action = .ok after → (Accounted after ↔ ClientSteady receiver action)) ∧
    ∀ receiver, Run serverStep ServerSteady ⟨{Server.initial with ep := served},0,0⟩ receiver →
      Balanced receiver receiver.state.usedReceiveBuffer 4096 ∧ ∀ action, ServerSteady receiver action ↔
        ∃ after, serverStep receiver action = .ok after ∧ Balanced after after.state.usedReceiveBuffer 4096 := by
  refine ⟨?_,?_,?_⟩
  · intro receiver run
    have balanced : Balanced receiver receiver.state.usedBuf bufLen :=
      run_exact _ _ _ receiver (fun receiver => Balanced receiver receiver.state.usedBuf bufLen)
        (balanced_start Input.init bufLen) input_exact run
    exact ⟨balanced,fun action => input_exact receiver action balanced⟩
  · intro receiver run
    have accounted : Accounted receiver := by
      apply run_keeps _ _ _ receiver Accounted (accounted_start ep) _ run
      intro before after action good met step
      exact (client_exact before after action good step).mpr met
    exact ⟨accounted,accounted.plain,fun action after step => client_exact receiver after action accounted step⟩
  · intro receiver run
    have balanced : Balanced receiver receiver.state.usedReceiveBuffer 4096 :=
      run_exact _ _ _ receiver (fun receiver => Balanced receiver receiver.state.usedReceiveBuffer 4096)
        (balanced_start {Server.initial with ep := served} 4096) server_exact run
    exact ⟨balanced,fun action => server_exact receiver action balanced⟩

theorem steady_receivers_byte :
    (∃ after, inputStep ⟨.init,0,0⟩ (.poll [65] (.revents pollIn) (.upto 1)) = .ok after ∧
      Balanced after after.state.usedBuf bufLen) ∧
    (∃ after, clientStep ⟨Connection.initial,0,0⟩ (.io [65] (.revents (pollIn ||| pollOut)) (.upto 1)) = .ok after ∧
      Accounted after) ∧
    ∃ after, serverStep ⟨Server.initial,0,0⟩ ⟨[65],.revents pollIn,.upto 1⟩ = .ok after ∧
      Balanced after after.state.usedReceiveBuffer 4096 := by
  obtain ⟨input,client,server⟩ := steady_receivers endpointFromFd endpointFromFd
  refine ⟨?_,?_,?_⟩
  · apply ((input _ .start).2 _).mp
    intro _
    refine ⟨1,[65],rfl,rfl,?_⟩
    have front : overwrite Input.init.buf 0 [65] = [65] ++ 0::List.replicate 4094 0 := by
      rw [overwrite,Input.init,List.drop_replicate]
      rfl
    change newline ∉ (visible (overwrite Input.init.buf 0 [65])).drop 1
    rw [front,visible_text [65] _ (by decide)]
    exact List.not_mem_nil
  · obtain ⟨conn,io,_⟩ := io_reads Connection.initial [65] 1 (Int.le_refl 0) (by decide) (by decide) rfl
    have step : clientStep ⟨Connection.initial,0,0⟩ (.io [65] (.revents (pollIn ||| pollOut)) (.upto 1)) =
        .ok ⟨conn,1,0⟩ := by
      rw [clientStep,io]
      rfl
    exact ⟨_,step,((client _ .start).2.2 _ _ step).mpr fun _ => ⟨1,rfl⟩⟩
  · apply ((server _ .start).2 _).mp
    intro _ errno failed
    cases failed

/-- Each loop reads and is answered that it would block: the input's counter is -1, the
client's total is 2^32 - 1, and the server searches behind its buffer. -/
theorem failed_reads_count :
    (∃ after, inputStep ⟨.init,0,0⟩ (.poll [] (.revents pollIn) (.failed eagain)) = .ok after ∧
      after.state.usedBuf < 0 ∧ ¬ Balanced after after.state.usedBuf bufLen) ∧
    (∃ after, clientStep ⟨Connection.initial,0,0⟩ (.io [] (.revents (pollIn ||| pollOut)) (.failed eagain)) = .ok after ∧
      after.state.bytesReceived = 2^32 - 1 ∧ totalProcessed after.state + after.state.usedReceiveBuffer = 0) ∧
    serverStep ⟨Server.initial,0,0⟩ ⟨[],.revents pollIn,.failed eagain⟩ = .error .fault := by
  refine ⟨⟨_,poll_failed ⟨.init,0,0⟩ [] pollIn eagain rfl,?_,?_⟩,⟨_,rfl,by decide,by decide⟩,?_⟩
  · dsimp only
    rw [drop_used]
    change (0 : Int) - 1 - _ < 0
    omega
  · intro balanced
    have low := balanced.low
    dsimp only at low
    rw [drop_used] at low
    change (0 : Int) ≤ 0 - 1 - _ at low
    omega
  · exact round_faults _ _ eagain ⟨rfl,rfl,rfl⟩ rfl rfl rfl

end Receivers

end Craftsman.Receiving
