import Craftsman.Network
import Mathlib.Data.Nat.Find

/-! The connection to the game's host. Neither the result of the configuration nor that
of the connect is looked at; whether there is a connection shows in the loop that
waits for the socket. -/
namespace Craftsman.Connecting
open Craftsman.Memory Craftsman.Network

structure AddrInfo where
  aiFamily : Int
  aiSocktype : Int
  aiProtocol : Int
  aiAddr : List Byte

/-- The endpoint as the network layer sees it: the socket, the address, and the flags. -/
structure Socket where
  sfd : Int
  storage : List Byte
  usedStorage : Nat
  ep : EndPoint

def endpointInit : Socket := ⟨0,List.replicate 128 0,0,⟨false,false,false⟩⟩

/-- What the system answers: the addresses of a host, and a socket for one of them. -/
structure System where
  getaddrinfo : List Byte → List Byte → Option AddrInfo
  socket : Int → Int → Int → Int

def networkConfigure (system : System) (host service : List Byte) : Except Stop (Bool × Socket) :=
  match system.getaddrinfo host service with
  | none => .ok (false,endpointInit)
  | some result =>
    let ep := {endpointInit with sfd := system.socket result.aiFamily result.aiSocktype result.aiProtocol}
    if ep.sfd = -1 then .ok (false,ep)
    else if result.aiAddr.length ≤ 128 then
      .ok (true,{ep with storage := overwrite ep.storage 0 result.aiAddr, usedStorage := result.aiAddr.length})
    else .error .fault

def einprogress : Nat := 115

def networkInterrupted (errno : Nat) : Bool := errno == eintr || errno == einprogress

/-- `failed` holds the error number when `connect` returns -1. -/
def networkConnect (ep : Socket) (failed : Option Nat) : Bool × Socket :=
  if ep.sfd ≤ 2 then (false,ep)
  else if failed.any fun errno => !networkInterrupted errno then (false,ep)
  else (true,{ep with ep := {ep.ep with connecting := true}})

def networkReady (ep : Socket) (poll : Poll) : Bool × Socket :=
  let polled := (networkPoll ep.ep poll).1
  (polled.connected && !polled.disconnected,{ep with ep := polled})

/-- The wait, for `fuel` rounds from round `k` on; none when it still goes on. -/
def waitReady (polls : Nat → Poll) : Nat → Nat → Socket → Option (Bool × Socket)
  | 0,_,_ => none
  | fuel+1,k,ep =>
    let (ready,ep) := networkReady ep (polls k)
    if ready then some (true,ep)
    else if ep.ep.disconnected then some (false,ep)
    else waitReady polls fuel (k + 1) ep

/-- The port of the host: "4000". -/
def service : List Byte := [52,48,48,48]

def connectionInit (system : System) (host : List Byte) (failed : Option Nat) (polls : Nat → Poll) (fuel : Nat) :
    Except Stop (Option (Bool × Socket)) := do
  let (_,ep) ← networkConfigure system host service
  let (_,ep) := networkConnect ep failed
  return waitReady polls fuel 0 ep

section Waiting

def answered : Poll → Bool
  | .revents bits => flagged bits (pollIn ||| pollOut)
  | .failed _ => false

def broken : Poll → Bool
  | .revents bits => flagged bits pollErr
  | .failed _ => false

theorem ready_flags (ep : Socket) (connecting : Bool) (poll : Poll) (flags : ep.ep = ⟨false,connecting,false⟩) :
    networkReady ep poll = (answered poll && connecting && !broken poll,
      {ep with ep := ⟨answered poll && connecting,connecting,broken poll⟩}) := by
  unfold networkReady networkPoll answered broken
  rw [flags]
  cases poll with
  | failed errno =>
    dsimp only
    split <;> rfl
  | revents bits =>
    dsimp only
    cases flagged bits (pollIn ||| pollOut) <;> cases flagged bits pollErr <;> rfl

variable (polls : Nat → Poll) (connecting : Bool)

/-- A round that decides nothing. -/
def Quiet (k : Nat) : Prop := broken (polls k) = false ∧ (answered (polls k) && connecting) = false

theorem wait_quiet (fuel k : Nat) (ep : Socket) (flags : ep.ep = ⟨false,connecting,false⟩)
    (quiet : Quiet polls connecting k) : waitReady polls (fuel + 1) k ep = waitReady polls fuel (k + 1) ep := by
  obtain ⟨fine,silent⟩ := quiet
  have same : {ep with ep := ⟨false,connecting,false⟩} = ep := by rw [← flags]
  rw [waitReady,ready_flags ep connecting (polls k) flags,fine,silent,same]
  dsimp only
  rw [flags]
  rfl

theorem wait_decides (fuel k : Nat) (ep : Socket) (flags : ep.ep = ⟨false,connecting,false⟩)
    (loud : ¬ Quiet polls connecting k) :
    waitReady polls (fuel + 1) k ep = some (!broken (polls k),
      {ep with ep := ⟨answered (polls k) && connecting,connecting,broken (polls k)⟩}) := by
  rw [waitReady,ready_flags ep connecting (polls k) flags]
  dsimp only
  cases error : broken (polls k) with
  | true => simp
  | false =>
    have ready : (answered (polls k) && connecting) = true := by
      by_contra silent
      exact loud ⟨error,Bool.eq_false_iff.mpr silent⟩
    rw [ready]
    rfl

/-- The wait ends in the first round that is not quiet, and the socket's error decides how. -/
theorem wait_ends (fuel k : Nat) (ep last : Socket) (result : Bool) (flags : ep.ep = ⟨false,connecting,false⟩) :
    waitReady polls fuel k ep = some (result,last) ↔
      ∃ j, j < fuel ∧ (∀ i < j, Quiet polls connecting (k + i)) ∧ ¬ Quiet polls connecting (k + j) ∧
        result = !broken (polls (k + j)) ∧
        last = {ep with ep := ⟨answered (polls (k + j)) && connecting,connecting,broken (polls (k + j))⟩} := by
  induction fuel generalizing k with
  | zero =>
    constructor
    · intro ends
      cases ends
    · rintro ⟨j,inside,_⟩
      omega
  | succ fuel ih =>
    by_cases quiet : Quiet polls connecting k
    · rw [wait_quiet polls connecting fuel k ep flags quiet,ih (k + 1)]
      constructor
      · rintro ⟨j,inside,before,ends⟩
        rw [Nat.add_right_comm,Nat.add_assoc] at ends
        refine ⟨j + 1,by omega,?_,ends⟩
        intro i early
        cases i with
        | zero => exact quiet
        | succ i =>
          have one := before i (by omega)
          rwa [Nat.add_right_comm,Nat.add_assoc] at one
      · rintro ⟨j,inside,before,ends⟩
        cases j with
        | zero => exact absurd quiet ends.1
        | succ j =>
          rw [← Nat.add_assoc,Nat.add_right_comm] at ends
          refine ⟨j,by omega,?_,ends⟩
          intro i early
          have one := before (i + 1) (by omega)
          rwa [← Nat.add_assoc,Nat.add_right_comm] at one
    · rw [wait_decides polls connecting fuel k ep flags quiet]
      constructor
      · intro same
        cases same
        exact ⟨0,Nat.succ_pos fuel,by simp,quiet,rfl,rfl⟩
      · rintro ⟨j,_,before,_,rfl,rfl⟩
        cases j with
        | zero => rfl
        | succ j => exact absurd (before 0 (Nat.succ_pos j)) quiet

end Waiting

section Outcomes
variable (system : System) (host : List Byte) (failed : Option Nat) (polls : Nat → Poll)

/-- The host has an address, there is a socket for it that is none of the standard
streams, and the connect is done or under way. -/
def Started : Prop :=
  (∃ result, system.getaddrinfo host service = some result ∧
    2 < system.socket result.aiFamily result.aiSocktype result.aiProtocol) ∧
    ∀ errno, failed = some errno → networkInterrupted errno = true

theorem configure_flags (configured : Bool) (ep : Socket) (ok : networkConfigure system host service = .ok (configured,ep)) :
    ep.ep = ⟨false,false,false⟩ ∧ (2 < ep.sfd ↔ ∃ result, system.getaddrinfo host service = some result ∧
      2 < system.socket result.aiFamily result.aiSocktype result.aiProtocol) := by
  unfold networkConfigure at ok
  cases found : system.getaddrinfo host service with
  | none =>
    rw [found] at ok
    cases ok
    exact ⟨rfl,by simp [endpointInit]⟩
  | some result =>
    rw [found] at ok
    dsimp only at ok
    have only : (∃ other, some result = some other ∧ 2 < system.socket other.aiFamily other.aiSocktype other.aiProtocol) ↔
        2 < system.socket result.aiFamily result.aiSocktype result.aiProtocol := by simp
    rw [only]
    split at ok
    · cases ok
      exact ⟨rfl,Iff.rfl⟩
    · split at ok
      · cases ok
        exact ⟨rfl,Iff.rfl⟩
      · cases ok

theorem connect_flags (ep : Socket) (fresh : ep.ep = ⟨false,false,false⟩) :
    (networkConnect ep failed).2.ep = ⟨false,(networkConnect ep failed).1,false⟩ ∧
      ((networkConnect ep failed).1 = true ↔
        2 < ep.sfd ∧ ∀ errno, failed = some errno → networkInterrupted errno = true) := by
  unfold networkConnect
  by_cases standard : ep.sfd ≤ 2
  · rw [if_pos standard]
    exact ⟨fresh,nofun,fun valid => absurd valid.1 (Int.not_lt.mpr standard)⟩
  rw [if_neg standard]
  cases failed with
  | none => exact ⟨by rw [fresh]; rfl,fun _ => ⟨Int.not_le.mp standard,nofun⟩,fun _ => rfl⟩
  | some errno =>
    cases going : networkInterrupted errno with
    | true =>
      refine ⟨by simp [going,fresh],?_⟩
      simp [going,Int.not_le.mp standard]
    | false =>
      refine ⟨by simp [going,fresh],?_⟩
      simp [going]

theorem first_loud (connecting : Bool) (k : Nat) (loud : ¬ Quiet polls connecting k) :
    ∃ j ≤ k, (∀ i < j, Quiet polls connecting i) ∧ ¬ Quiet polls connecting j := by
  classical
  have some_loud : ∃ j, ¬ Quiet polls connecting j := ⟨k,loud⟩
  refine ⟨Nat.find some_loud,Nat.find_min' some_loud loud,?_,Nat.find_spec some_loud⟩
  intro i early
  exact not_not.mp (Nat.find_min some_loud early)

/-- How the wait of `connection_init` ends, for every sequence of answers: in the first round that is not quiet. -/
theorem init_ends (fits : ∀ result, system.getaddrinfo host service = some result → result.aiAddr.length ≤ 128) :
    ∃ connecting, (connecting = true ↔ Started system host failed) ∧
      ∀ result, (∃ fuel last, connectionInit system host failed polls fuel = .ok (some (result,last))) ↔
        ∃ j, (∀ i < j, Quiet polls connecting i) ∧ ¬ Quiet polls connecting j ∧ result = !broken (polls j) := by
  have configures : ∃ configured ep, networkConfigure system host service = .ok (configured,ep) := by
    unfold networkConfigure
    cases found : system.getaddrinfo host service with
    | none => exact ⟨_,_,rfl⟩
    | some result =>
      dsimp only
      split
      · exact ⟨_,_,rfl⟩
      · rw [if_pos (fits result found)]
        exact ⟨_,_,rfl⟩
  obtain ⟨configured,ep,ok⟩ := configures
  obtain ⟨fresh,address⟩ := configure_flags system host configured ep ok
  obtain ⟨flags,starts⟩ := connect_flags failed ep fresh
  refine ⟨(networkConnect ep failed).1,by rw [starts,address]; rfl,?_⟩
  intro result
  have waits (fuel : Nat) : connectionInit system host failed polls fuel =
      .ok (waitReady polls fuel 0 (networkConnect ep failed).2) := by
    rw [connectionInit,ok]
    rfl
  simp only [waits,Except.ok.injEq,wait_ends polls _ _ 0 _ _ result flags,Nat.zero_add]
  constructor
  · rintro ⟨_,_,j,_,before,ends,same,_⟩
    exact ⟨j,before,ends,same⟩
  · rintro ⟨j,before,ends,same⟩
    exact ⟨j + 1,_,j,Nat.lt_succ_self j,before,ends,same,rfl⟩

/-- `connection_init` returns 1 exactly if a connection was started and the socket answers
before it reports an error, although the results of the two calls that start it are
not looked at; it returns 0 exactly if the error comes first. -/
theorem connects_exactly (fits : ∀ result, system.getaddrinfo host service = some result → result.aiAddr.length ≤ 128) :
    ((∃ fuel last, connectionInit system host failed polls fuel = .ok (some (true,last))) ↔
        Started system host failed ∧ ∃ k, answered (polls k) = true ∧ ∀ j ≤ k, broken (polls j) = false) ∧
      ((∃ fuel last, connectionInit system host failed polls fuel = .ok (some (false,last))) ↔
        ∃ k, broken (polls k) = true ∧ (Started system host failed → ∀ j < k, answered (polls j) = false)) := by
  obtain ⟨connecting,starts,ends⟩ := init_ends system host failed polls fits
  refine ⟨(ends true).trans ⟨?_,?_⟩,(ends false).trans ⟨?_,?_⟩⟩
  · rintro ⟨j,before,loud,fine⟩
    have unbroken : broken (polls j) = false := by simpa using fine.symm
    have ready : (answered (polls j) && connecting) = true := by
      by_contra silent
      exact loud ⟨unbroken,Bool.eq_false_iff.mpr silent⟩
    obtain ⟨answer,going⟩ := Bool.and_eq_true_iff.mp ready
    refine ⟨starts.mp going,j,answer,?_⟩
    intro i inside
    rcases Nat.lt_or_eq_of_le inside with early | rfl
    · exact (before i early).1
    · exact unbroken
  · rintro ⟨started,k,answer,fine⟩
    have going := starts.mpr started
    obtain ⟨j,inside,before,loud⟩ := first_loud polls connecting k fun quiet => by
      have silent := quiet.2
      rw [answer,going] at silent
      cases silent
    exact ⟨j,before,loud,by rw [fine j inside]; rfl⟩
  · rintro ⟨j,before,loud,error⟩
    refine ⟨j,by simpa using error.symm,?_⟩
    intro started i early
    have silent := (before i early).2
    rwa [starts.mpr started,Bool.and_true] at silent
  · rintro ⟨k,error,silent⟩
    obtain ⟨j,inside,before,loud⟩ := first_loud polls connecting k fun quiet => by
      have fine := quiet.1
      rw [error] at fine
      cases fine
    refine ⟨j,before,loud,?_⟩
    rcases Nat.lt_or_eq_of_le inside with early | rfl
    · by_contra fine
      have unbroken : broken (polls j) = false := by simpa using fine
      apply loud
      refine ⟨unbroken,?_⟩
      cases going : connecting with
      | false => exact Bool.and_false _
      | true => rw [silent (starts.mp going) j early]; rfl
    · rw [error]
      rfl

/-- A host with one address, and a socket that is writable in the second round. -/
theorem connects_second : ∃ fuel last,
    connectionInit ⟨fun _ _ => some ⟨2,1,6,[2,0,15,160,127,0,0,1]⟩,fun _ _ _ => 3⟩ [] (some einprogress)
      (fun k => .revents (if k = 1 then pollOut else 0)) fuel = .ok (some (true,last)) := by
  refine (connects_exactly _ [] (some einprogress) _ ?_).1.mpr ⟨⟨⟨_,rfl,by decide⟩,?_⟩,1,rfl,?_⟩
  · intro result same
    cases same
    decide
  · intro errno same
    cases same
    rfl
  · intro j inside
    rcases Nat.le_one_iff_eq_zero_or_eq_one.mp inside with rfl | rfl <;> rfl

end Outcomes

end Craftsman.Connecting
