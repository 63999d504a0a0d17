import Craftsman.Arrivals
import Craftsman.Blocks

/-! The frame of a turn. Every player's next command is copied into one buffer,
behind the copies of the players before; the buffer holds 4096 bytes for all of
them together, while a single command may be nearly as long. -/
namespace Craftsman.FrameDelivery
open Craftsman.Memory Craftsman.Recording Craftsman.CommandLog Craftsman.Network Craftsman.Client
open Craftsman.Frames Craftsman.Demultiplex Craftsman.Dlfn Craftsman.Execute Craftsman.GameLoop
open Craftsman.Simulation Craftsman.Iteration Craftsman.Progress Craftsman.Readiness Craftsman.Arrivals
open Craftsman.Blocks Craftsman.Stream.Delimited

structure Placed where
  command : Nat
  commandLen : Nat
  deriving DecidableEq, Repr

/-- The frame with its buffer, which keeps its bytes from turn to turn. -/
def commandFrameBuffer : List (Fin 4) → Nat → List Byte → Recordings →
    Except Stop (Option (List Placed) × List Byte × Recordings)
  | [],_,buffer,recording => .ok (some [],buffer,recording)
  | i::later,bufferWrite,buffer,recording =>
    match (recording i).record with
    | none => .error .fault
    | some record => do
      let (cmd,read) ← recordRead record (recording i).read
      let text := cmd.getD []
      let moved := Function.update recording i {recording i with read := read}
      if frameBufLen ≤ bufferWrite + text.length then return (none,buffer,moved)
      else
        let copied := overwrite (overwrite buffer bufferWrite text) (bufferWrite + text.length) [0]
        let (places,filled,moved) ← commandFrameBuffer later (bufferWrite + text.length + 1) copied moved
        return (places.map (⟨bufferWrite,text.length⟩ :: ·),filled,moved)

/-- A copy of the command, closed by its only NUL. -/
structure Copy (buffer text : List Byte) (place : Placed) : Prop where
  length : place.commandLen = text.length
  inside : place.command + place.commandLen + 1 ≤ buffer.length
  bytes : (buffer.drop place.command).take (place.commandLen + 1) = text ++ [0]
  nulFree : 0 ∉ text

def Apart (first second : Placed) : Prop := first.command + first.commandLen + 1 ≤ second.command

structure Delivery (order : List (Fin 4)) (recording moved : Recordings) (texts : List (List Byte)) (buffer : List Byte)
    (places : List Placed) : Prop where
  taken : List.Forall₂ (fun i text => waiting (recording i) = text :: waiting (moved i) ∧
    moved i = afterNext (recording i) text) order texts
  others : ∀ i, i ∉ order → moved i = recording i
  copies : List.Forall₂ (Copy buffer) texts places
  apart : places.Pairwise Apart

/-- The iteration goes on to execute its turn, and the frame delivers every player's next command. -/
def Delivered {σ : Type} (world : World σ) (buffer : List Byte) : Prop :=
  ∃ texts places filled moved, chosen world = .ok (some (texts,moved)) ∧
    commandFrameBuffer (players world.playerCount) 0 buffer world.gameRecord = .ok (some places,filled,moved) ∧
    Delivery (players world.playerCount) world.gameRecord moved texts filled places

section Buffer

def placed : Nat → List (List Byte) → List Placed
  | _,[] => []
  | used,text::later => ⟨used,text.length⟩::placed (used + text.length + 1) later

theorem placed_behind (used : Nat) (texts : List (List Byte)) (place : Placed) (member : place ∈ placed used texts) :
    used ≤ place.command := by
  induction texts generalizing used with
  | nil => exact absurd member List.not_mem_nil
  | cons text texts ih =>
    rcases List.mem_cons.mp member with rfl | later
    · exact Nat.le_refl used
    · have behind := ih _ later
      omega

theorem placed_apart (used : Nat) (texts : List (List Byte)) : (placed used texts).Pairwise Apart := by
  induction texts generalizing used with
  | nil => exact .nil
  | cons text texts ih => exact .cons (placed_behind (used + text.length + 1) texts) (ih _)

theorem overwrite_encode (buffer text : List Byte) (texts : List (List Byte)) (used : Nat)
    (inside : used + text.length + 1 ≤ buffer.length) :
    overwrite (overwrite buffer used (text ++ [0])) (used + text.length + 1) (encode 0 texts) =
      overwrite buffer used (encode 0 (text::texts)) := by
  have length : (text ++ [(0 : Byte)]).length = text.length + 1 := List.length_append
  have joined := overwrite_overwrite buffer (text ++ [0]) (encode 0 texts) used (by rw [length]; omega)
  rw [length,List.append_assoc,List.singleton_append] at joined
  rw [encode_cons]
  exact joined

theorem placed_copies (used : Nat) (texts : List (List Byte)) (buffer : List Byte) (free : Free 0 texts)
    (room : used + (encode 0 texts).length ≤ buffer.length) :
    List.Forall₂ (Copy (overwrite buffer used (encode 0 texts))) texts (placed used texts) := by
  induction texts generalizing used buffer with
  | nil => exact .nil
  | cons text texts ih =>
    have sized := overwrite_length buffer (encode 0 (text::texts)) used room
    rw [encode_cons,List.length_append,List.length_cons] at room
    constructor
    · refine ⟨rfl,?_,?_,free text List.mem_cons_self⟩
      · rw [sized]
        dsimp only
        omega
      · have start : (buffer.take used).length = used := List.length_take_of_le (by omega)
        rw [overwrite,List.append_assoc,List.drop_left' start,encode_cons,List.append_cons,List.append_assoc]
        exact List.take_left' List.length_append
    · have closed : (overwrite buffer used (text ++ [0])).length = buffer.length := by
        apply overwrite_length
        rw [List.length_append,List.length_singleton]
        omega
      have tail := ih (used + text.length + 1) (overwrite buffer used (text ++ [0]))
        (fun s member => free s (List.mem_cons_of_mem _ member)) (by rw [closed]; omega)
      rwa [overwrite_encode buffer text texts used (by omega)] at tail

/-- The buffer refines the frame of the loop: its bytes are the commands as one delimited wire. -/
theorem buffer_refines (order : List (Fin 4)) (used : Nat) (buffer : List Byte) (recording : Recordings)
    (sized : buffer.length = frameBufLen) (room : used ≤ frameBufLen) :
    match commandFrame order used recording with
    | .error stop => commandFrameBuffer order used buffer recording = .error stop
    | .ok (none,moved) => ∃ filled, commandFrameBuffer order used buffer recording = .ok (none,filled,moved)
    | .ok (some texts,moved) => used + (encode 0 texts).length ≤ frameBufLen ∧
        commandFrameBuffer order used buffer recording =
          .ok (some (placed used texts),overwrite buffer used (encode 0 texts),moved) := by
  induction order generalizing used buffer recording with
  | nil =>
    refine ⟨room,?_⟩
    simp [commandFrameBuffer,placed,overwrite]
  | cons i order ih =>
    rw [commandFrame,commandFrameBuffer]
    cases (recording i).record with
    | none => exact rfl
    | some record =>
      dsimp only
      cases recordRead record (recording i).read with
      | error stop => exact rfl
      | ok result =>
        obtain ⟨cmd,read⟩ := result
        rw [ok_bind,ok_bind]
        dsimp only
        generalize cmd.getD [] = text
        by_cases full : frameBufLen ≤ used + text.length
        · rw [if_pos full,if_pos full]
          exact ⟨buffer,rfl⟩
        · rw [if_neg full,if_neg full]
          have closed : (overwrite buffer used (text ++ [0])).length = frameBufLen := by
            rw [← sized]
            apply overwrite_length
            rw [List.length_append,List.length_singleton]
            omega
          rw [overwrite_overwrite buffer text [0] used (by omega)]
          have rest := ih (used + text.length + 1) (overwrite buffer used (text ++ [0]))
            (Function.update recording i {recording i with read := read}) closed (by omega)
          revert rest
          cases commandFrame order (used + text.length + 1)
              (Function.update recording i {recording i with read := read}) with
          | error stop =>
            intro rest
            rw [rest]
            exact rfl
          | ok found =>
            obtain ⟨texts,moved⟩ := found
            cases texts with
            | none =>
              rintro ⟨filled,rest⟩
              rw [rest]
              exact ⟨filled,rfl⟩
            | some texts =>
              rintro ⟨fits,rest⟩
              rw [rest,overwrite_encode buffer text texts used (by omega)]
              refine ⟨?_,rfl⟩
              rw [encode_cons,List.length_append,List.length_cons]
              omega

end Buffer

section Turns
variable {σ : Type}

theorem passed_delivery (order : List (Fin 4)) (recording : Recordings) (next : Fin 4 → List Byte) (buffer : List Byte)
    (each : ∀ i ∈ order, Next (recording i) (next i) ∧
      waiting (recording i) = next i :: waiting (afterNext (recording i) (next i)))
    (room : (encode 0 (order.map next)).length ≤ buffer.length) :
    Delivery order recording (passed order next recording) (order.map next)
      (overwrite buffer 0 (encode 0 (order.map next))) (placed 0 (order.map next)) where
  taken := by
    rw [List.forall₂_map_right_iff,List.forall₂_same]
    intro i member
    have moved : passed order next recording i = afterNext (recording i) (next i) := if_pos member
    rw [moved]
    exact ⟨(each i member).2,rfl⟩
  others := fun i absent => if_neg absent
  copies := by
    apply placed_copies
    · intro text member
      obtain ⟨i,inside,rfl⟩ := List.mem_map.mp member
      exact (each i inside).1.nulFree
    · rwa [Nat.zero_add]
  apart := placed_apart 0 _

/-- What the frame of a due turn comes to: a delivery, or the end of the game. -/
theorem due_frame (world : World σ) (kept : Kept world.gameRecord)
    (due : (commandPreview world.loop.inputQueueMax world.playerCount world.gameRecord).turnNearest ≠ 0) :
    (((players world.playerCount).map fun i => ((waiting (world.gameRecord i)).headD []).length + 1).sum ≤ frameBufLen →
        ∀ buffer : List Byte, buffer.length = frameBufLen → Delivered world buffer) ∧
      (frameBufLen < ((players world.playerCount).map fun i =>
          ((waiting (world.gameRecord i)).headD []).length + 1).sum → chosen world = .error .crash) := by
  obtain ⟨_,ahead⟩ := (preview_positive _ _ _).mp due
  obtain ⟨next,each⟩ := kept.commands (players world.playerCount) ahead
  obtain ⟨takes,ends⟩ := commandFrame_takes (players world.playerCount) 0 world.gameRecord next
    (players_nodup world.playerCount) (Nat.zero_le _) fun i member => (each i member).1
  have lengths : ((players world.playerCount).map fun i => ((waiting (world.gameRecord i)).headD []).length + 1) =
      (players world.playerCount).map fun i => (next i).length + 1 := by
    apply List.map_congr_left
    intro i member
    rw [(each i member).2.1,List.headD_cons]
  rw [lengths]
  rw [Nat.zero_add] at takes ends
  constructor
  · intro fits buffer sized
    have refines := buffer_refines (players world.playerCount) 0 buffer world.gameRecord sized (Nat.zero_le _)
    rw [takes fits] at refines
    obtain ⟨room,fills⟩ := refines
    rw [Nat.zero_add,← sized] at room
    have delivery := passed_delivery _ _ _ buffer (fun i member => ⟨(each i member).1,(each i member).2.1⟩) room
    refine ⟨_,_,_,_,?_,fills,delivery⟩
    rw [chosen,if_neg due,takes fits]
  · intro full
    obtain ⟨stopped,none⟩ := ends full
    rw [chosen,if_neg due,none]

/-- A due turn is delivered exactly when the next commands of the players, each with its
terminator, fit the buffer together. -/
theorem delivered_iff (framerate : UInt8) (ep : EndPoint) (incoming keyboard : List Byte) (world synced : World σ)
    (log : SessionLog σ) (past : List (SessionLog σ)) (tick : Tick) (buffer : List Byte)
    (process : Process framerate ep incoming keyboard world log past)
    (sync : syncStep tick world = .ok (.ok,synced))
    (due : (commandPreview synced.loop.inputQueueMax synced.playerCount synced.gameRecord).turnNearest ≠ 0)
    (sized : buffer.length = frameBufLen) :
    Delivered synced buffer ↔ ((players synced.playerCount).map fun i =>
      ((waiting (synced.gameRecord i)).headD []).length + 1).sum ≤ frameBufLen := by
  have kept := process_kept framerate ep incoming keyboard world log past process
  obtain ⟨delivers,crashes⟩ := due_frame synced (syncStep_kept tick .ok world synced kept sync) due
  constructor
  · rintro ⟨texts,places,filled,moved,goes,_⟩
    by_contra full
    rw [crashes (Nat.lt_of_not_le full)] at goes
    cases goes
  · intro fits
    exact delivers fits buffer sized

theorem delivered_letters : ∃ (world synced : World Unit) (past : List (SessionLog Unit)) (tick : Tick),
    Process 1 endpointFromFd (wire [{letterFrame with player := 1},letterFrame]) [] world (.start world) past ∧
      syncStep tick world = .ok (.ok,synced) ∧ synced.playerCount = 2 ∧ Delivered synced (List.replicate 4096 0) := by
  obtain ⟨world,synced,past,tick,process,sync,due,two,zero,one⟩ :=
    two_waiting ⟨1,0,0⟩ sumLibrary {letterFrame with player := 1} letterFrame rfl rfl (by decide) (by decide)
  refine ⟨world,synced,past,tick,process,sync,two,?_⟩
  apply (delivered_iff 1 endpointFromFd _ [] world synced _ past tick _ process sync due List.length_replicate).mpr
  rw [two]
  change ((waiting (synced.gameRecord 0)).headD []).length + 1 +
    (((waiting (synced.gameRecord 1)).headD []).length + 1 + 0) ≤ frameBufLen
  rw [zero,one]
  decide

def longText : List Byte := List.replicate 2100 65

theorem longText_length : longText.length = 2100 := List.length_replicate

def longFrame (player : Fin 4) : Frame where
  player := player
  text := longText
  nulFree := fun member => absurd (List.eq_of_mem_replicate member) (by decide)
  encodable := by
    rw [longText_length]
    decide

/-- Two commands of 2100 bytes, each well below what a frame can carry, do not fit together. -/
theorem long_commands_crash : ∃ (world synced : World Unit) (past : List (SessionLog Unit)) (tick : Tick),
    Process 1 endpointFromFd (wire [longFrame 1,longFrame 0]) [] world (.start world) past ∧
      syncStep tick world = .ok (.ok,synced) ∧ synced.playerCount = 2 ∧
      (commandPreview synced.loop.inputQueueMax synced.playerCount synced.gameRecord).turnNearest ≠ 0 ∧
      waiting (synced.gameRecord 0) = [longText] ∧ waiting (synced.gameRecord 1) = [longText] ∧
      chosen synced = .error .crash ∧ ∀ buffer, ¬ Delivered synced buffer := by
  have size (player : Fin 4) : (longFrame player).size = 2109 := by
    rw [Frame.size]
    exact congrArg (· + 9) longText_length
  obtain ⟨world,synced,past,tick,process,sync,due,two,zero,one⟩ :=
    two_waiting ⟨1,0,0⟩ sumLibrary (longFrame 1) (longFrame 0) rfl rfl (by rw [size]; decide) (by rw [size]; decide)
  have kept := process_kept 1 endpointFromFd _ [] world _ past process
  have crash : chosen synced = .error .crash := by
    apply (due_frame synced (syncStep_kept tick .ok world synced kept sync) due).2
    rw [two]
    change frameBufLen < ((waiting (synced.gameRecord 0)).headD []).length + 1 +
      (((waiting (synced.gameRecord 1)).headD []).length + 1 + 0)
    have length (player : Fin 4) : (longFrame player).text.length = 2100 := longText_length
    rw [zero,one,List.headD_cons,List.headD_cons,length,length]
    decide
  refine ⟨world,synced,past,tick,process,sync,two,due,zero,one,crash,?_⟩
  rintro buffer ⟨texts,places,filled,moved,goes,_⟩
  rw [crash] at goes
  cases goes

end Turns

end Craftsman.FrameDelivery
