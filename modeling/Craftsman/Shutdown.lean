import Craftsman.NetworkServer
import Craftsman.Stream.Draining

/-! The end of a game on its own. The process closes its two sockets and waits for the
server thread, which may be inside any of its system calls or in front of it. A call that
was entered goes on with the socket it found; the next one finds it closed. -/
namespace Craftsman.Shutdown
open Craftsman.Memory Craftsman.Network Craftsman.NetworkServer Craftsman.Stream.Delimited Craftsman.Stream.Draining

/-- Where the server thread is: in front of its poll, its read or a write, or inside the
call, which holds the socket if that was still open. Behind the loop it has stopped; a
broken pipe kills it, and the process with it. -/
inductive Thread where
  | looping (server : Server)
  | polling (server : Server) (holds : Bool)
  | polled (server : Server) (events : Nat)
  | reading (server : Server) (events : Nat) (holds : Bool)
  | writing (server : Server) (message : List Byte) (more : List (List Byte))
  | sending (server : Server) (message : List Byte) (more : List (List Byte)) (holds : Bool)
  | stopped
  | killed

def Thread.behind (server : Server) : List (List Byte) → Thread
  | [] => .looping server
  | message::more => .writing server message more

def afterPoll (server : Server) (poll : Poll) : Thread :=
  if server.ep.disconnected then .stopped
  else
    let (ep,events) := networkPoll server.ep poll
    if flagged events pollNval then .stopped
    else if flagged events pollIn then .polled {server with ep := ep} events
    else .looping {server with ep := ep}

def afterRead (server : Server) (events : Nat) (wire : List Byte) (read : Read) : Except Stop (Thread × List Byte) :=
  let (got,wire) := networkRead wire (size (4096 - server.usedReceiveBuffer)) read
  if serverHalt (got.map List.length) (Read.errno read) (flagged events pollHup) then .ok (.stopped,wire)
  else do
    let received ← server.deliver got
    let (writes,left) ← received.process
    return (.behind left writes,wire)

/-- The calls of one round, in a row, are the round. -/
theorem round_calls (server : Server) (wire : List Byte) (poll : Poll) (read : Read) :
    (serverRound server wire poll read).map (fun (round,left) =>
        (round.elim Thread.stopped fun (writes,after) => .behind after writes,left)) =
      match afterPoll server poll with
      | .polled polled events => afterRead polled events wire read
      | thread => .ok (thread,wire) := by
  unfold serverRound afterPoll
  by_cases broken : server.ep.disconnected = true
  · rw [if_pos broken,if_pos broken]
    rfl
  rw [if_neg broken,if_neg broken]
  cases networkPoll server.ep poll with
  | mk ep events =>
    dsimp only
    split
    · rfl
    · split
      · unfold afterRead
        dsimp only
        cases networkRead wire (size (4096 - server.usedReceiveBuffer)) read with
        | mk got left =>
          dsimp only
          split
          · rfl
          · cases ({server with ep := ep} : Server).deliver got with
            | error stop => rfl
            | ok received =>
              rw [ok_bind,ok_bind]
              cases received.process with
              | error stop => rfl
              | ok processed => rfl
      · rfl

def ebadf : Nat := 9

/-- How far `connection_term` has come. -/
inductive Phase where
  | closeClient
  | closeServer
  | join
  | done
  deriving DecidableEq

/-- Both sockets are closed. -/
def Phase.late : Phase → Bool
  | .closeClient => false
  | .closeServer => false
  | .join => true
  | .done => true

structure Ending where
  phase : Phase
  thread : Thread
  clientFd : Int
  serverFd : Int
  clientOpen : Bool
  serverOpen : Bool
  toServer : List Byte
  toClient : List Byte

/-- The standard streams are not closed. -/
def endpointTerm (sfd : Int) (stays : Bool) : Bool := if sfd > 2 then false else stays

/-- A call that holds the socket finds it valid, and blocks; the others find no socket. -/
def PollAnswer (holds : Bool) (poll : Poll) : Prop :=
  if holds then ∀ bits, poll = .revents bits → flagged bits pollNval = false else poll = .revents pollNval

def ReadAnswer (holds : Bool) (read : Read) : Prop :=
  if holds then ∀ errno, read = .failed errno → errno ≠ eagain else read = .failed ebadf

/-- A write returns to a reader, or with what it had written before the reader went. -/
def WriteAnswer (holds clientOpen : Bool) (write : Write) : Prop :=
  if holds then if clientOpen then ∀ errno, write = .failed errno → errno ≠ eagain else ∃ count, write = .upto (count + 1)
  else write = .failed ebadf

/-- The thread enters the call it is in front of. -/
def Thread.enter (holds : Bool) : Thread → Option Thread
  | .looping server => some (.polling server holds)
  | .polled server events => some (.reading server events holds)
  | .writing server message more => some (.sending server message more holds)
  | _ => none

/-- The steps of the process and of its thread, in any order. -/
inductive Step (e : Ending) : Ending → Prop
  | closeClient (here : e.phase = .closeClient) (runs : e.thread ≠ .killed) :
      Step e {e with phase := .closeServer, clientOpen := endpointTerm e.clientFd e.clientOpen}
  | closeServer (here : e.phase = .closeServer) (runs : e.thread ≠ .killed) :
      Step e {e with phase := .join, serverOpen := endpointTerm e.serverFd e.serverOpen}
  | join (here : e.phase = .join) (stopped : e.thread = .stopped) : Step e {e with phase := .done}
  | enter (inside : Thread) (enters : e.thread.enter e.serverOpen = some inside) : Step e {e with thread := inside}
  | poll (server : Server) (holds : Bool) (poll : Poll) (here : e.thread = .polling server holds)
      (answer : PollAnswer holds poll) : Step e {e with thread := afterPoll server poll}
  | read (server : Server) (events : Nat) (holds : Bool) (read : Read) (thread : Thread) (wire : List Byte)
      (here : e.thread = .reading server events holds) (answer : ReadAnswer holds read)
      (step : afterRead server events e.toServer read = .ok (thread,wire)) :
      Step e {e with thread := thread, toServer := wire}
  | write (server : Server) (message : List Byte) (more : List (List Byte)) (holds : Bool) (write : Write)
      (here : e.thread = .sending server message more holds) (answer : WriteAnswer holds e.clientOpen write) :
      Step e {e with thread := .behind server more, toClient := (networkWrite e.toClient message write).2}
  | broken (server : Server) (message : List Byte) (more : List (List Byte))
      (here : e.thread = .sending server message more true) (gone : e.clientOpen = false) :
      Step e {e with thread := .killed}

section Closing
variable {e s t : Ending}

theorem processFrom_few (bytes : List Byte) (n i start : Nat) : (processFrom bytes n i start).1.length ≤ 3 * n := by
  induction n generalizing i start with
  | zero => exact Nat.le_refl 0
  | succ n ih =>
    unfold processFrom
    split
    · have more := ih (i + 1) (i + 1)
      dsimp only
      rw [List.length_append]
      change 3 + _ ≤ _
      omega
    · have more := ih (i + 1) start
      omega

theorem process_few (server left : Server) (writes : List (List Byte)) (ok : server.process = .ok (writes,left)) :
    writes.length ≤ 3 * 4096 := by
  unfold Server.process serverProcess at ok
  by_cases inside : server.usedReceiveBuffer ≤ server.receiveBuffer.length
  swap
  · rw [if_neg inside] at ok
    cases ok
  rw [if_pos inside] at ok
  have few := processFrom_few server.receiveBuffer server.usedReceiveBuffer 0 0
  have made : writes = (processFrom server.receiveBuffer server.usedReceiveBuffer 0 0).1 := by
    dsimp only at ok
    split at ok
    · cases ok
      rfl
    · cases compacted : server.compact (processFrom server.receiveBuffer server.usedReceiveBuffer 0 0).2 with
      | error stop =>
        rw [compacted] at ok
        cases ok
      | ok after =>
        rw [compacted] at ok
        cases ok
        rfl
  rw [server.sized] at inside
  rw [made]
  omega

/-- How many times the thread can still enter a call or return from one, once its socket is closed. -/
def Thread.calls : Thread → Nat
  | .looping _ => 2
  | .polling _ holds => if holds then 3 else 1
  | .polled _ _ => 2
  | .reading _ _ holds => if holds then 2 * (3 * 4096) + 3 else 1
  | .writing _ _ more => 2 * more.length + 4
  | .sending _ _ more _ => 2 * more.length + 3
  | .stopped => 0
  | .killed => 0

def left (e : Ending) : Nat := e.thread.calls + if e.phase = .done then 0 else 1

/-- The thread is inside a write that found the socket open. -/
def Thread.Holds (thread : Thread) : Prop := ∃ server message more, thread = .sending server message more true

/-- A broken pipe cannot be in the thread's way any more. -/
def Spared (thread : Thread) : Prop := thread ≠ .killed ∧ ¬ thread.Holds

theorem behind_spared (server : Server) (more : List (List Byte)) : Spared (.behind server more) := by
  cases more with
  | nil => exact ⟨Thread.noConfusion,fun ⟨_,_,_,same⟩ => nomatch same⟩
  | cons message more => exact ⟨Thread.noConfusion,fun ⟨_,_,_,same⟩ => nomatch same⟩

theorem stopped_spared : Spared .stopped := ⟨Thread.noConfusion,fun ⟨_,_,_,same⟩ => nomatch same⟩

theorem afterPoll_spared (server : Server) (poll : Poll) :
    Spared (afterPoll server poll) ∧ (afterPoll server poll).calls ≤ 2 := by
  have looping (other : Server) : Spared (.looping other) := behind_spared other []
  have polled (other : Server) (events : Nat) : Spared (.polled other events) :=
    ⟨Thread.noConfusion,fun ⟨_,_,_,same⟩ => nomatch same⟩
  unfold afterPoll
  split
  · exact ⟨stopped_spared,Nat.zero_le 2⟩
  · dsimp only
    split
    · exact ⟨stopped_spared,Nat.zero_le 2⟩
    · split
      · exact ⟨polled _ _,Nat.le_refl 2⟩
      · exact ⟨looping _,Nat.le_refl 2⟩

theorem behind_calls (server : Server) (more : List (List Byte)) :
    (Thread.behind server more).calls ≤ 2 * more.length + 2 := by
  cases more with
  | nil => exact Nat.le_refl 2
  | cons message more =>
    rw [Thread.behind,Thread.calls,List.length_cons]
    omega

theorem afterRead_spared (server : Server) (events : Nat) (wire left : List Byte) (read : Read) (thread : Thread)
    (ok : afterRead server events wire read = .ok (thread,left)) :
    Spared thread ∧ thread.calls ≤ 2 * (3 * 4096) + 2 := by
  unfold afterRead at ok
  dsimp only at ok
  split at ok
  · cases ok
    exact ⟨stopped_spared,Nat.zero_le _⟩
  · obtain ⟨received,_,ok⟩ := (bind_ok _ _ _).mp ok
    obtain ⟨⟨writes,after⟩,process,ok⟩ := (bind_ok _ _ _).mp ok
    cases ok
    have few := process_few received after writes process
    have calls := behind_calls after writes
    refine ⟨behind_spared after writes,?_⟩
    dsimp only
    omega

theorem poll_closed (server : Server) (poll : Poll) (answer : PollAnswer false poll) : afterPoll server poll = .stopped := by
  have invalid : poll = .revents pollNval := answer
  subst invalid
  unfold afterPoll
  split
  · rfl
  · rfl

theorem read_closed (server : Server) (events : Nat) (wire : List Byte) :
    afterRead server events wire (.failed ebadf) = .ok (.stopped,wire) := rfl

/-- Both sockets are closed: the process waits for the thread, or has joined it. -/
structure Closed (e : Ending) : Prop where
  closed : e.serverOpen = false
  phase : e.phase.late = true
  joined : e.phase = .done → e.thread = .stopped

theorem closed_steps (closed : Closed s) (step : Step s t) :
    Closed t ∧ left t < left s ∧ (Spared s.thread → Spared t.thread) := by
  have open_no := closed.closed
  -- only a thread that has stopped is joined, and it makes no step
  have going (runs : s.thread ≠ .stopped) (thread : Thread) (toServer toClient : List Byte)
      (fewer : thread.calls < s.thread.calls) :
      Closed {s with thread := thread, toServer := toServer, toClient := toClient} ∧
        left {s with thread := thread, toServer := toServer, toClient := toClient} < left s := by
    refine ⟨⟨open_no,closed.phase,fun done => absurd (closed.joined done) runs⟩,?_⟩
    unfold left
    dsimp only
    omega
  cases step with
  | closeClient here runs =>
    have late := closed.phase
    rw [here] at late
    cases late
  | closeServer here runs =>
    have late := closed.phase
    rw [here] at late
    cases late
  | join here stopped =>
    refine ⟨⟨open_no,rfl,fun _ => stopped⟩,?_,fun spared => spared⟩
    simp [left,here,stopped,Thread.calls]
  | enter inside enters =>
    rw [open_no] at enters
    have fewer : inside.calls < s.thread.calls ∧ s.thread ≠ .stopped ∧ Spared inside := by
      cases here : s.thread with
      | looping server =>
        rw [here] at enters
        cases enters
        exact ⟨Nat.le_refl 2,Thread.noConfusion,Thread.noConfusion,fun ⟨_,_,_,same⟩ => nomatch same⟩
      | polled server events =>
        rw [here] at enters
        cases enters
        exact ⟨Nat.le_refl 2,Thread.noConfusion,Thread.noConfusion,fun ⟨_,_,_,same⟩ => nomatch same⟩
      | writing server message more =>
        rw [here] at enters
        cases enters
        exact ⟨Nat.le_refl _,Thread.noConfusion,Thread.noConfusion,fun ⟨_,_,_,same⟩ => nomatch same⟩
      | polling _ _ | reading _ _ _ | sending _ _ _ _ | stopped | killed =>
        rw [here] at enters
        cases enters
    obtain ⟨closed',lower⟩ := going fewer.2.1 inside s.toServer s.toClient fewer.1
    exact ⟨closed',lower,fun _ => fewer.2.2⟩
  | poll server holds poll here answer =>
    obtain ⟨spared,few⟩ := afterPoll_spared server poll
    have fewer : (afterPoll server poll).calls < s.thread.calls := by
      rw [here]
      cases holds with
      | true => exact Nat.lt_succ_of_le few
      | false =>
        rw [poll_closed server poll answer]
        exact Nat.one_pos
    obtain ⟨closed',lower⟩ := going (by rw [here]; exact Thread.noConfusion) _ s.toServer s.toClient fewer
    exact ⟨closed',lower,fun _ => spared⟩
  | read server events holds read thread wire here answer step =>
    obtain ⟨spared,few⟩ := afterRead_spared server events s.toServer wire read thread step
    have fewer : thread.calls < s.thread.calls := by
      rw [here]
      cases holds with
      | true => exact Nat.lt_succ_of_le few
      | false =>
        have failed : read = .failed ebadf := answer
        subst failed
        cases (read_closed server events s.toServer).symm.trans step
        exact Nat.one_pos
    obtain ⟨closed',lower⟩ := going (by rw [here]; exact Thread.noConfusion) thread wire s.toClient fewer
    exact ⟨closed',lower,fun _ => spared⟩
  | write server message more holds write here answer =>
    have few := behind_calls server more
    have fewer : (Thread.behind server more).calls < s.thread.calls := by
      rw [here]
      exact Nat.lt_succ_of_le few
    obtain ⟨closed',lower⟩ := going (by rw [here]; exact Thread.noConfusion) _ s.toServer
      (networkWrite s.toClient message write).2 fewer
    exact ⟨closed',lower,fun _ => behind_spared server more⟩
  | broken server message more here gone =>
    obtain ⟨closed',lower⟩ := going (by rw [here]; exact Thread.noConfusion) .killed s.toServer s.toClient (by
      rw [here]
      exact Nat.succ_pos _)
    exact ⟨closed',lower,fun spared => absurd ⟨server,message,more,here⟩ spared.2⟩

theorem closed_drains : Drains Step Closed left where
  keeps := fun _ _ closed step => (closed_steps closed step).1
  lowers := fun _ _ closed step => (closed_steps closed step).2.1

theorem walk_spared {n : Nat} (closed : Closed s) (spared : Spared s.thread) (walk : Walk Step s n t) :
    Closed t ∧ Spared t.thread := by
  induction walk with
  | stay => exact ⟨closed,spared⟩
  | go n a b _ next ih =>
    obtain ⟨closed',_,kept⟩ := closed_steps ih.1 next
    exact ⟨closed',kept ih.2⟩

/-- Until the thread has been joined, somebody can go on. -/
theorem closed_settles (closed : Closed s) (settled : Settled Step s) : s.phase = .done ∨ s.thread = .killed := by
  cases here : s.thread with
  | looping server => exact absurd (.enter _ (by rw [here]; rfl)) (settled _)
  | polled server events => exact absurd (.enter _ (by rw [here]; rfl)) (settled _)
  | writing server message more => exact absurd (.enter _ (by rw [here]; rfl)) (settled _)
  | polling server holds =>
    cases holds with
    | true =>
      have answer : PollAnswer true (.revents 0) := by
        rintro bits same
        cases same
        rfl
      exact absurd (.poll server true _ here answer) (settled _)
    | false => exact absurd (.poll server false (.revents pollNval) here rfl) (settled _)
  | reading server events holds =>
    have answer : ReadAnswer holds (.failed ebadf) := by
      cases holds with
      | true =>
        rintro errno same
        cases same
        decide
      | false => exact rfl
    exact absurd (.read server events holds (.failed ebadf) _ _ here answer (read_closed server events s.toServer)) (settled _)
  | sending server message more holds =>
    have answer : ∃ write, WriteAnswer holds s.clientOpen write := by
      cases holds with
      | false => exact ⟨.failed ebadf,rfl⟩
      | true =>
        refine ⟨.upto 1,?_⟩
        unfold WriteAnswer
        cases s.clientOpen with
        | true => exact fun errno same => nomatch same
        | false => exact ⟨0,rfl⟩
    obtain ⟨write,answer⟩ := answer
    exact absurd (.write server message more holds write here answer) (settled _)
  | killed => exact .inr rfl
  | stopped =>
    have late := closed.phase
    cases waits : s.phase with
    | closeClient => rw [waits] at late; cases late
    | closeServer => rw [waits] at late; cases late
    | done => exact .inl rfl
    | join => exact absurd (.join waits here) (settled _)

/-- What holds on the way: the sockets are open until they are closed, and no write is
broken before the first of them is. -/
structure Underway (e : Ending) : Prop where
  valid : 2 < e.serverFd
  server : e.phase.late = false → e.serverOpen = true
  client : e.phase = .closeClient → e.clientOpen = true
  closed : e.phase.late = true → Closed e
  killed : e.thread = .killed → e.phase ≠ .closeClient

theorem Underway.same (underway : Underway s) (valid : t.serverFd = s.serverFd) (phase : t.phase = s.phase)
    (server : t.serverOpen = s.serverOpen) (client : t.clientOpen = s.clientOpen)
    (killed : t.thread = .killed → t.phase ≠ .closeClient) (step : Step s t) : Underway t where
  valid := by rw [valid]; exact underway.valid
  server := by rw [phase,server]; exact underway.server
  client := by rw [phase,client]; exact underway.client
  closed := by
    rw [phase]
    exact fun here => (closed_steps (underway.closed here) step).1
  killed := killed

theorem enter_runs (holds : Bool) (thread inside : Thread) (enters : thread.enter holds = some inside) :
    inside ≠ .killed := by
  cases thread <;> cases enters <;> exact Thread.noConfusion

theorem underway_steps (underway : Underway s) (step : Step s t) : Underway t := by
  have again := step
  cases step with
  | closeClient here runs =>
    have stays : s.serverOpen = true := underway.server (by rw [here]; rfl)
    exact ⟨underway.valid,fun _ => stays,nofun,nofun,fun _ => Phase.noConfusion⟩
  | closeServer here runs =>
    exact ⟨underway.valid,nofun,nofun,fun _ => ⟨if_pos underway.valid,rfl,nofun⟩,fun _ => Phase.noConfusion⟩
  | join here stopped =>
    have closed := underway.closed (by rw [here]; rfl)
    exact ⟨underway.valid,nofun,nofun,fun _ => (closed_steps closed again).1,fun _ => Phase.noConfusion⟩
  | enter inside enters =>
    exact underway.same rfl rfl rfl rfl (fun killed => absurd killed (enter_runs _ _ _ enters)) again
  | poll server holds poll here answer =>
    exact underway.same rfl rfl rfl rfl (fun killed => absurd killed (afterPoll_spared server poll).1.1) again
  | read server events holds read thread wire here answer step =>
    exact underway.same rfl rfl rfl rfl (fun killed => absurd killed (afterRead_spared _ _ _ _ _ _ step).1.1) again
  | write server message more holds write here answer =>
    exact underway.same rfl rfl rfl rfl (fun killed => absurd killed (behind_spared server more).1) again
  | broken server message more here gone =>
    refine underway.same rfl rfl rfl rfl (fun _ first => ?_) again
    exact absurd ((underway.client first).symm.trans gone) (by decide)

theorem walk_underway {n : Nat} (underway : Underway e) (walk : Walk Step e n s) : Underway s := by
  induction walk with
  | stay => exact underway
  | go n a b _ next ih => exact underway_steps ih next

/-- The process gets through its end. The closes never wait. Once both sockets are closed
the thread makes only a few more calls, in whatever order the two go on, and is joined; a
broken pipe kills it instead only in a write that it had entered before. -/
theorem shutdown_ends (e : Ending) (start : e.phase = .closeClient) (runs : e.thread ≠ .killed)
    (sockets : e.clientOpen = true ∧ e.serverOpen = true) (valid : 2 < e.serverFd) (n : Nat) (s : Ending)
    (walk : Walk Step e n s) :
    (s.thread = .killed → s.phase ≠ .closeClient) ∧
      (s.thread ≠ .killed → s.phase.late = false → ∃ t, Step s t ∧ t.phase ≠ s.phase) ∧
      (s.phase.late = true →
        (∀ k t, Walk Step s k t → k ≤ left s) ∧ (∃ k t, Walk Step s k t ∧ Settled Step t) ∧
          ∀ k t, Walk Step s k t → Settled Step t →
            t.phase = .done ∧ t.thread = .stopped ∨ t.thread = .killed ∧ (s.thread = .killed ∨ s.thread.Holds)) := by
  have fresh : Underway e := by
    refine ⟨valid,fun _ => sockets.2,fun _ => sockets.1,fun late => ?_,fun killed => absurd killed runs⟩
    rw [start] at late
    cases late
  have underway := walk_underway fresh walk
  refine ⟨underway.killed,?_,?_⟩
  · intro alive early
    cases here : s.phase with
    | closeClient => exact ⟨_,.closeClient here alive,Phase.noConfusion⟩
    | closeServer => exact ⟨_,.closeServer here alive,Phase.noConfusion⟩
    | join => rw [here] at early; cases early
    | done => rw [here] at early; cases early
  · intro late
    have closed := underway.closed late
    refine ⟨?_,closed_drains.settles closed,?_⟩
    · intro k t more
      have total := (closed_drains.walk closed more).2
      omega
    · intro k t more settled
      have ends := (closed_drains.walk closed more).1
      rcases closed_settles ends settled with done | killed
      · exact .inl ⟨done,ends.joined done⟩
      · refine .inr ⟨killed,?_⟩
        by_contra spared
        rw [not_or] at spared
        exact (walk_spared closed spared more).2.1 killed

/-- The thread is inside a write when the sockets are closed. -/
theorem shutdown_ends_writing : ∃ s : Ending, s.thread = .sending .initial [65] [[66]] true ∧ s.serverOpen = false ∧
    left s = 6 ∧ ∃ k t, Walk Step s k t ∧ Settled Step t ∧
      (t.phase = .done ∧ t.thread = .stopped ∨ t.thread = .killed) := by
  let e : Ending := ⟨.closeClient,.writing .initial [65] [[66]],3,4,true,true,[],[]⟩
  have one := Walk.go 0 e _ .stay (Step.enter _ rfl)
  have two := Walk.go 1 _ _ one (Step.closeClient rfl Thread.noConfusion)
  have three := Walk.go 2 _ _ two (Step.closeServer rfl Thread.noConfusion)
  obtain ⟨_,_,ends⟩ := shutdown_ends e rfl Thread.noConfusion ⟨rfl,rfl⟩ (by decide) 3 _ three
  obtain ⟨_,⟨k,t,walk,settled⟩,joined⟩ := ends rfl
  exact ⟨_,rfl,rfl,rfl,k,t,walk,settled,(joined k t walk settled).imp id And.left⟩

end Closing

end Craftsman.Shutdown
