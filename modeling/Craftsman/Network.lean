import Craftsman.Memory

/-! The socket layer. A wire is the list of bytes on their way; the kernel
decides how many of them a read returns, and how many a write accepts. -/
namespace Craftsman.Network
open Craftsman.Memory

def pollIn : Nat := 0x001
def pollOut : Nat := 0x004
def pollErr : Nat := 0x008
def pollHup : Nat := 0x010
def pollNval : Nat := 0x020

def flagged (testBits setBit : Nat) : Bool := testBits &&& setBit != 0

def eintr : Nat := 4
def eagain : Nat := 11

structure EndPoint where
  connected : Bool
  connecting : Bool
  disconnected : Bool
  deriving DecidableEq, Repr

def endpointFromFd : EndPoint := ⟨false,false,false⟩

inductive Poll where
  | failed (errno : Nat)
  | revents (bits : Nat)

def networkPoll (ep : EndPoint) : Poll → EndPoint × Nat
  | .failed errno => if errno = eintr then (ep,0) else (ep,errno)
  | .revents bits =>
    let ready := if flagged bits (pollIn ||| pollOut) then {ep with connected := ep.connecting} else ep
    let broken := if flagged bits pollErr then {ready with disconnected := true} else ready
    (broken,bits)

/-- What the kernel answers to one read; it never returns more than was asked
for, nor more than has arrived. -/
inductive Read where
  | failed (errno : Nat)
  | upto (count : Nat)

def networkRead (wire : List Byte) (n : Nat) : Read → Option (List Byte) × List Byte
  | .failed _ => (none,wire)
  | .upto count => (some (wire.take (min count n)),wire.drop (min count n))

/-- What the kernel answers to one write; it never accepts more than was offered. -/
inductive Write where
  | failed (errno : Nat)
  | upto (count : Nat)

def networkWrite (wire bytes : List Byte) : Write → Option Nat × List Byte
  | .failed _ => (none,wire)
  | .upto count => (some (bytes.take count).length,wire ++ bytes.take count)

def taken : Write → List Byte → List Byte
  | .failed _,_ => []
  | .upto count,bytes => bytes.take count

theorem networkWrite_taken (wire bytes : List Byte) (write : Write) :
    (networkWrite wire bytes write).2 = wire ++ taken write bytes := by
  cases write with
  | failed errno => exact (List.append_nil wire).symm
  | upto count => rfl

theorem networkWrite_full (wire bytes : List Byte) :
    networkWrite wire bytes (.upto bytes.length) = (some bytes.length,wire ++ bytes) := by
  simp [networkWrite]

end Craftsman.Network
