import Craftsman.CommandSafety
import Craftsman.Delivery
import Craftsman.Flow
import Craftsman.FrameStore

/-! When an iteration comes to its end. Whatever the peer's frames are and the system
answers, what can stop the game is named here: the read of the keyboard, the room for a
turn's commands, an object that is missing, a handle without a functor and the images
of a frame. Nothing else does. -/
namespace Craftsman.Completion
open Craftsman.Memory Craftsman.Recording Craftsman.CommandLog Craftsman.Network Craftsman.Client
open Craftsman.Frames Craftsman.Demultiplex Craftsman.StandardInput Craftsman.Text Craftsman.Dlfn Craftsman.Execute
open Craftsman.GameLoop Craftsman.Simulation Craftsman.Iteration Craftsman.Progress Craftsman.Lockstep Craftsman.Readiness
open Craftsman.Clock (TscClock clockSync)
open Craftsman.Handles (SameHandles invoke_same)
open Craftsman.CommandSafety (NamesNoObject)
open Craftsman.FrameStore Craftsman.Singleplayer
open Craftsman.Stream.Delimited Craftsman.Stream.Rounds

section Terminal
variable {σ : Type}

theorem advance_terminal (tick : Tick) (status : ConnStatus) (world later : World σ) (turn : Option Turn)
    (ok : advance tick status world = .ok (some (later,turn))) :
    later.stdin = world.stdin ∧ later.keyboard = world.keyboard := by
  cases status with
  | corrupt => cases ok; exact ⟨rfl,rfl⟩
  | term => cases ok; exact ⟨rfl,rfl⟩
  | change => cases ok; exact ⟨rfl,rfl⟩
  | ok =>
    unfold advance at ok
    dsimp only at ok
    split at ok
    · obtain ⟨loop,_,same⟩ := Option.map_eq_some_iff.mp (Except.ok.inj ok)
      cases same
      exact ⟨rfl,rfl⟩
    · obtain ⟨⟨middle,texts⟩,taken,finish⟩ := (bind_ok _ _ _).mp ok
      have kept : middle.stdin = world.stdin ∧ middle.keyboard = world.keyboard := by
        unfold takeTurn at taken
        obtain ⟨⟨found,moved⟩,_,taken⟩ := (bind_ok _ _ _).mp taken
        cases found with
        | none => cases taken
        | some found =>
          obtain ⟨game,_,same⟩ := (bind_ok _ _ _).mp taken
          cases same
          exact ⟨rfl,rfl⟩
      unfold finishTurn at finish
      dsimp only at finish
      split at finish
      · obtain ⟨loop,_,same⟩ := Option.map_eq_some_iff.mp (Except.ok.inj finish)
        cases same
        exact kept
      · obtain ⟨⟨game,store⟩,_,finish⟩ := (bind_ok _ _ _).mp finish
        obtain ⟨loop,_,same⟩ := Option.map_eq_some_iff.mp (Except.ok.inj finish)
        cases same
        exact kept

theorem append_terminal (len : Nat) (text : List Byte) (world later : World σ) (ok : appendInput len text world = .ok later) :
    later.stdin = world.stdin ∧ later.keyboard = world.keyboard := by
  unfold appendInput at ok
  split at ok
  · cases ok
  · obtain ⟨_,_,same⟩ := (bind_ok _ _ _).mp ok
    cases same
    exact ⟨rfl,rfl⟩

theorem callback_terminal (event : Event) (world later : World σ) (ok : inputCallback world event = .ok later) :
    later.stdin = world.stdin ∧ later.keyboard = world.keyboard := by
  unfold inputCallback at ok
  split at ok
  · exact append_terminal _ _ world later ok
  · split at ok
    · cases ok
      exact ⟨rfl,rfl⟩
    · split at ok <;> cases ok <;> exact ⟨rfl,rfl⟩

theorem events_terminal (events : List Event) (world later : World σ) (ok : events.foldlM inputCallback world = .ok later) :
    later.stdin = world.stdin ∧ later.keyboard = world.keyboard := by
  induction events generalizing world with
  | nil =>
    cases ok
    exact ⟨rfl,rfl⟩
  | cons event events ih =>
    rw [List.foldlM_cons,bind_ok] at ok
    obtain ⟨middle,first,rest⟩ := ok
    obtain ⟨stdin,keyboard⟩ := callback_terminal event world middle first
    rw [(ih middle rest).1,(ih middle rest).2]
    exact ⟨stdin,keyboard⟩

theorem fill_terminal (target fuel : Nat) (world later : World σ) (ok : fillInput target fuel world = .ok later) :
    later.stdin = world.stdin ∧ later.keyboard = world.keyboard := by
  induction fuel generalizing world with
  | zero =>
    cases ok
    exact ⟨rfl,rfl⟩
  | succ fuel ih =>
    unfold fillInput at ok
    split at ok
    · obtain ⟨middle,append,rest⟩ := (bind_ok _ _ _).mp ok
      obtain ⟨stdin,keyboard⟩ := append_terminal _ _ world middle append
      rw [(ih middle rest).1,(ih middle rest).2]
      exact ⟨stdin,keyboard⟩
    · cases ok
      exact ⟨rfl,rfl⟩

end Terminal

section Gathering

/-- What the lines take in a record. -/
def recordedBytes (events : List Event) : Nat := (events.map fun event => event.2.length + 1).sum

theorem drain_bytes (input : Input) : recordedBytes (drainLines input).1 ≤ bufLen := by
  have last : 0 ∈ input.buf := List.mem_of_getElem? input.terminated
  obtain ⟨rest,cut⟩ := visible_split _ last
  obtain ⟨events,_⟩ := drain_visible input _ rest (visible_free _) cut
  have whole := congrArg List.length (split_wire newline (visible input.buf))
  have total := congrArg List.length cut
  rw [input.sized,List.length_append,List.length_cons] at total
  rw [List.length_append,length_encode] at whole
  rw [recordedBytes,events,List.map_map]
  unfold bufLen
  change ((split newline (visible input.buf)).1.map fun line => line.length + 1).sum ≤ 4095
  omega

theorem drain_used (input : Input) : (drainLines input).2.usedBuf ≤ input.usedBuf := by
  induction input using drainLines.induct with
  | case1 input absent => rw [drain_none _ absent]
  | case2 input k found _ _ _ ih =>
    rw [drain_line _ _ found]
    have less : (input.takeLine k (strchr_inside _ _ _ found)).usedBuf = input.usedBuf - (k + 1 : Nat) := rfl
    exact ih.trans (by omega)

theorem dropLong_used (input : Input) (high : input.usedBuf ≤ bufLen) : input.dropLong.usedBuf ≤ bufLen := by
  unfold Input.dropLong
  split
  · exact (by decide : (0 : Int) ≤ 4095)
  · exact high

/-- The read of the keyboard does not go to a place in front of the buffer. -/
def KeyboardSafe (input : Input) (wire : List Byte) (poll : Poll) (read : Read) : Prop :=
  ∀ bits count, poll = .revents bits → flagged bits pollIn = true → read = .upto count →
    wire.take (min count (size (bufLen - input.usedBuf))) ≠ [] → 0 ≤ input.usedBuf

theorem deliver_total (input : Input) (wire : List Byte) (count : Nat) (high : input.usedBuf ≤ bufLen) :
    (∃ received, input.deliver (wire.take (min count (size (bufLen - input.usedBuf)))) = .ok received) ↔
      (wire.take (min count (size (bufLen - input.usedBuf))) ≠ [] → 0 ≤ input.usedBuf) := by
  unfold Input.deliver
  by_cases empty : wire.take (min count (size (bufLen - input.usedBuf))) = []
  · rw [if_pos empty]
    exact iff_of_true ⟨_,rfl⟩ fun some_bytes => absurd empty some_bytes
  · rw [if_neg empty]
    constructor
    · rintro ⟨received,ok⟩ _
      split at ok
      · next inside => exact inside.1
      · cases ok
    · intro safe
      have low := safe empty
      have asked := space_left input.usedBuf low high
      have few : (wire.take (min count (size (bufLen - input.usedBuf)))).length ≤ bufLen - input.usedBuf.toNat := by
        rw [asked,List.length_take]
        omega
      rw [dif_pos ⟨low,by omega⟩]
      exact ⟨_,rfl⟩

theorem poll_total (input : Input) (wire : List Byte) (poll : Poll) (read : Read) (high : input.usedBuf ≤ bufLen) :
    (∃ polled, inputPoll input wire poll read = .ok polled) ↔ KeyboardSafe input wire poll read := by
  unfold inputPoll KeyboardSafe
  cases poll with
  | failed errno => exact iff_of_true ⟨_,rfl⟩ fun bits count same => nomatch same
  | revents bits =>
    dsimp only
    by_cases readable : flagged bits pollIn = true
    · rw [if_pos readable]
      cases read with
      | failed errno => exact iff_of_true ⟨_,rfl⟩ fun bits count _ _ same => nomatch same
      | upto count =>
        dsimp only [networkRead]
        have delivers := deliver_total input wire count high
        constructor
        · rintro ⟨polled,ok⟩ _ _ _ _ same some_bytes
          cases same
          obtain ⟨received,deliver,_⟩ := (bind_ok _ _ _).mp ok
          exact delivers.mp ⟨received,deliver⟩ some_bytes
        · intro safe
          obtain ⟨received,deliver⟩ := delivers.mpr (safe bits count rfl readable rfl)
          exact ⟨_,by rw [deliver]; rfl⟩
    · rw [if_neg readable]
      refine iff_of_true ⟨_,rfl⟩ ?_
      intro other count same ready
      cases same
      exact absurd ready readable

theorem poll_high (input later : Input) (wire left : List Byte) (poll : Poll) (read : Read) (up : Bool) (events : List Event)
    (high : input.usedBuf ≤ bufLen) (ok : inputPoll input wire poll read = .ok (up,later,left,events)) :
    later.usedBuf ≤ bufLen := by
  unfold inputPoll at ok
  split at ok
  · cases ok
    exact high
  split at ok
  · split at ok
    · cases ok
      apply dropLong_used
      have less := drain_used {input with usedBuf := input.usedBuf - 1}
      dsimp only at less
      omega
    · obtain ⟨received,deliver,ok⟩ := (bind_ok _ _ _).mp ok
      cases ok
      apply dropLong_used
      have less := drain_used received
      have inside : received.usedBuf ≤ bufLen := by
        unfold Input.deliver at deliver
        split at deliver
        · cases deliver
          exact high
        split at deliver
        · cases deliver
          dsimp only
          omega
        · cases deliver
      omega
  · cases ok
    exact high

theorem poll_bytes (input later : Input) (wire left : List Byte) (poll : Poll) (read : Read) (up : Bool) (events : List Event)
    (ok : inputPoll input wire poll read = .ok (up,later,left,events)) : recordedBytes events ≤ bufLen := by
  unfold inputPoll at ok
  split at ok
  · cases ok
    exact Nat.zero_le _
  split at ok
  · split at ok
    · cases ok
      exact drain_bytes _
    · obtain ⟨received,_,ok⟩ := (bind_ok _ _ _).mp ok
      cases ok
      exact drain_bytes received
  · cases ok
    exact Nat.zero_le _

variable {σ : Type}

theorem typed_bytes (events : List Event) : (encode 0 (typed events)).length ≤ recordedBytes events := by
  rw [length_encode,typed,List.map_map,recordedBytes]
  induction events with
  | nil => exact Nat.le_refl 0
  | cons event events ih =>
    rw [List.filter_cons,List.map_cons,List.sum_cons]
    split
    · rw [List.map_cons,List.sum_cons]
      exact Nat.add_le_add_left ih _
    · exact ih.trans (Nat.le_add_left _ _)

theorem callback_total (event : Event) (world : World σ) (lines : List (List Byte)) (length : event.1 = event.2.length)
    (small : event.2.length < 4096) (recorded : Recorded world.input lines)
    (room : (encode 0 lines).length + event.2.length + 1 ≤ 2^31) : ∃ later, inputCallback world event = .ok later := by
  unfold inputCallback
  split
  · obtain ⟨record,present⟩ := Option.ne_none_iff_exists'.mp recorded.present
    obtain ⟨closed,write,append⟩ := append_succeeds record lines event.2 world.input.write
      (recorded.written.holds record present) recorded.written.cursor small room
    rw [length,appendInput,present]
    dsimp only
    rw [append,ok_bind]
    exact ⟨_,rfl⟩
  · split
    · exact ⟨_,rfl⟩
    · split <;> exact ⟨_,rfl⟩

theorem events_total (events : List Event) (world : World σ) (lines : List (List Byte))
    (legal : ∀ event ∈ events, event.1 = event.2.length ∧ 0 ∉ event.2) (small : ∀ event ∈ events, event.2.length < 4096)
    (recorded : Recorded world.input lines) (room : (encode 0 lines).length + recordedBytes events ≤ 2^31) :
    ∃ later, events.foldlM inputCallback world = .ok later := by
  induction events generalizing world lines with
  | nil => exact ⟨world,rfl⟩
  | cons event events ih =>
    have all : recordedBytes (event::events) = event.2.length + 1 + recordedBytes events := by
      rw [recordedBytes,List.map_cons,List.sum_cons]
      rfl
    have one : recordedBytes [event] = event.2.length + 1 := rfl
    have first := legal event List.mem_cons_self
    obtain ⟨middle,called⟩ := callback_total event world lines first.1 (small event List.mem_cons_self) recorded (by omega)
    have told : [event].foldlM inputCallback world = .ok middle := by
      rw [List.foldlM_cons,called]
      rfl
    have more := events_recorded [event] world middle lines
      (fun other member => by rw [List.mem_singleton.mp member]; exact first) recorded told
    have bytes := typed_bytes [event]
    obtain ⟨later,rest⟩ := ih middle _ (fun other member => legal other (List.mem_cons_of_mem _ member))
      (fun other member => small other (List.mem_cons_of_mem _ member)) more (by
        rw [encode_append,List.length_append]
        omega)
    refine ⟨later,?_⟩
    rw [List.foldlM_cons,called,ok_bind]
    exact rest

/-- The local commands are gathered exactly when the keyboard can be read. -/
theorem gather_total (tick : Tick) (world : World σ) (lines : List (List Byte)) (recorded : Recorded world.input lines)
    (high : world.stdin.usedBuf ≤ bufLen) (room : (encode 0 lines).length + bufLen + loopWriteFrame world.loop ≤ 2^31) :
    (∃ later, gather tick world = .ok later) ↔ KeyboardSafe world.stdin world.keyboard tick.poll tick.read := by
  obtain ⟨same_stdin,same_keyboard⟩ := notify_terminal tick.changed world
  rw [← poll_total world.stdin world.keyboard tick.poll tick.read high]
  constructor
  · rintro ⟨later,ok⟩
    obtain ⟨middle,polled,_⟩ := (bind_ok _ _ _).mp ok
    obtain ⟨answer,poll,_⟩ := (bind_ok _ _ _).mp polled
    rw [same_stdin,same_keyboard] at poll
    exact ⟨answer,poll⟩
  · rintro ⟨⟨up,stdin,keyboard,events⟩,poll⟩
    let start := {tick.changed.foldl notifyCallback world with stdin := stdin, keyboard := keyboard}
    have begun : Recorded start.input lines := by
      have same : start.input = world.input := notify_input tick.changed world
      rw [same]
      exact recorded
    have legal := poll_events _ _ _ _ _ _ _ _ poll
    have bytes := poll_bytes _ _ _ _ _ _ _ _ poll
    have small : ∀ event ∈ events, event.2.length < 4096 := by
      have heard := heard_short tick world
      rwa [heardIn,poll] at heard
    obtain ⟨told,fold⟩ := events_total events start lines legal small begun (by omega)
    have polled : pollInput tick (tick.changed.foldl notifyCallback world) = .ok told := by
      rw [pollInput,same_stdin,same_keyboard,poll,ok_bind]
      exact fold
    have target : loopWriteFrame told.loop = loopWriteFrame world.loop :=
      (Gathered.trans (notify_gathered tick.changed world) (poll_gathered tick _ told polled)).writeFrame
    have typed_small := typed_bytes events
    obtain ⟨input,k,filled,_⟩ := fill_possible (loopWriteFrame told.loop)
      (loopWriteFrame told.loop - told.input.write.commandCount) told _
      (events_recorded events start told lines legal begun fold) (by
        rw [encode_append,List.length_append]
        omega)
    refine ⟨{told with input := input},?_⟩
    rw [gather,polled,ok_bind]
    exact filled

end Gathering

section Synchronizing
variable {σ : Type}

theorem io_total (conn : Connection) (wire : List Byte) (poll : Poll) (read : Read) (low : 0 ≤ conn.usedReceiveBuffer)
    (high : conn.usedReceiveBuffer ≤ 4096) : ∃ up after left, connectionIo conn wire poll read = .ok (up,after,left) := by
  unfold connectionIo
  split
  · exact ⟨_,_,_,rfl⟩
  cases polled : networkPoll conn.clientEp poll with
  | mk ep events =>
    dsimp only
    split
    · exact ⟨_,_,_,rfl⟩
    split
    · cases read with
      | failed errno => exact ⟨_,_,_,rfl⟩
      | upto count =>
        dsimp only [networkRead]
        have asked : size (4096 - conn.usedReceiveBuffer) = (4096 - conn.usedReceiveBuffer).toNat :=
          size_of_bounds (by omega) (by omega)
        have few : (wire.take (min count (size (4096 - conn.usedReceiveBuffer)))).length ≤
            (4096 - conn.usedReceiveBuffer).toNat := by
          rw [asked,List.length_take]
          omega
        have inside : 0 ≤ conn.usedReceiveBuffer ∧ conn.usedReceiveBuffer.toNat +
            (wire.take (min count (size (4096 - conn.usedReceiveBuffer)))).length ≤ conn.receiveBuffer.length := by
          rw [conn.sized]
          omega
        unfold Connection.deliver
        dsimp only
        rw [dif_pos inside,ok_bind]
        split <;> exact ⟨_,_,_,rfl⟩
    · exact ⟨_,_,_,rfl⟩

/-- Whatever the system answers, the synchronization comes to a status. -/
theorem sync_total (target n : Nat) (conn : Connection) (wires : Wires) (input : RecordRW) (recording : Recordings)
    (kernel : Kernel) (lines : List (List Byte)) (done rest : List Frame)
    (demux : Demux conn recording wires.incoming done rest)
    (room : ∀ i, (encode 0 (texts i (done ++ rest))).length ≤ 2^31) (recorded : Recorded input lines)
    (cursor : Cursor lines n input.read) (enough : target ≤ lines.length) :
    ∃ answer, connectionSync target conn wires input recording kernel = .ok answer := by
  obtain ⟨up,polled,left,io⟩ := io_total conn wires.incoming kernel.poll kernel.read demux.low demux.high
  rw [← List.append_nil wires.incoming] at demux
  have moved := io_demux _ _ _ _ _ _ _ _ _ _ _ demux io
  obtain ⟨same,after,stored,processing⟩ := Delivery.processing_total polled recording _ done rest moved room
  obtain ⟨last,sent,outgoing,sending⟩ := sendLoop_possible target kernel.writes (target - input.read.commandCount) 0 n after
    input wires.outgoing lines recorded cursor enough
  rw [connectionSync,io,ok_bind]
  dsimp only
  cases up with
  | false => exact ⟨_,rfl⟩
  | true =>
    change ∃ answer, (connectionProcessing polled recording >>= _) = .ok answer
    rw [processing,ok_bind]
    cases same with
    | false => exact ⟨_,rfl⟩
    | true =>
      change ∃ answer, (sendLoop target kernel.writes (target - input.read.commandCount) 0 after input wires.outgoing >>= _) =
        .ok answer
      rw [sending,ok_bind]
      exact ⟨_,rfl⟩

theorem syncStep_total (tick : Tick) (world : World σ) (lines : List (List Byte)) (n : Nat) (done rest : List Frame)
    (recorded : Recorded world.input lines) (cursor : Cursor lines n world.input.read)
    (demux : Demux world.conn world.gameRecord world.wires.incoming done rest)
    (records : ∀ i, (encode 0 (texts i (done ++ rest))).length ≤ 2^31) (high : world.stdin.usedBuf ≤ bufLen)
    (room : (encode 0 lines).length + bufLen + loopWriteFrame world.loop ≤ 2^31) :
    (∃ status synced, syncStep tick world = .ok (status,synced)) ↔
      KeyboardSafe world.stdin world.keyboard tick.poll tick.read := by
  rw [← gather_total tick world lines recorded high room]
  constructor
  · rintro ⟨status,synced,ok⟩
    obtain ⟨gathered,gathering,_⟩ := (bind_ok _ _ _).mp ok
    exact ⟨gathered,gathering⟩
  · rintro ⟨middle,gathering⟩
    obtain ⟨gathered,target⟩ := gather_gathered tick world middle lines recorded gathering
    obtain ⟨more,filled⟩ := gathered.lines lines recorded
    have moved := cursor.append more
    rw [← gathered.read] at moved
    rw [filled.written.cursor.commands] at target
    rw [← gathered.conn,← gathered.gameRecord,← gathered.wires] at demux
    obtain ⟨⟨status,conn,wires,input,gameRecord⟩,sync⟩ := sync_total (loopWriteFrame middle.loop) n middle.conn middle.wires
      middle.input middle.gameRecord tick.kernel _ done rest demux records filled moved target
    refine ⟨status,{middle with conn := conn, wires := wires, input := input, gameRecord := gameRecord},?_⟩
    rw [syncStep,gathering,ok_bind]
    dsimp only
    rw [sync,ok_bind]
    rfl

end Synchronizing

section Frames
variable {σ : Type} (library : Library σ)

/-- The functor of a handle is one of the used entries. -/
def Inside (engine : Engine) (handle : Int) : Prop := 0 ≤ handle ∧ handle < engine.resultFunc.length

/-- The three loads and the store of a function. -/
def Usable (engine : Engine) (i : Nat) : Prop :=
  (∀ p, Inside engine (engine.loadParamHandle i p)) ∧ Inside engine (engine.saveResultHandle i)

theorem same_inside {later engine : Engine} (same : SameHandles later engine) (handle : Int) :
    Inside later handle ↔ Inside engine handle := by
  unfold Inside
  rw [same.table]

theorem same_usable {later engine : Engine} (same : SameHandles later engine) (i : Nat) :
    Usable later i ↔ Usable engine i := by
  unfold Usable
  simp only [same_inside same,same.loads,same.saves]

theorem invoke_total (engine : Engine) (handle : Int) :
    (∃ later, functorInvoke engine handle = .ok later) ↔ Inside engine handle := by
  unfold functorInvoke Inside
  by_cases low : 0 ≤ handle
  · rw [if_pos low,and_iff_right low]
    cases found : engine.resultFunc[handle.toNat]? with
    | none =>
      have beyond := List.getElem?_eq_none_iff.mp found
      exact iff_of_false (fun ⟨_,ok⟩ => nomatch ok) (by omega)
    | some functor =>
      obtain ⟨inside,_⟩ := List.getElem?_eq_some_iff.mp found
      refine iff_of_true ?_ (by omega)
      cases functor with
      | noop => exact ⟨_,rfl⟩
      | copy dst src => exact ⟨_,rfl⟩
  · rw [if_neg low]
    exact iff_of_false (fun ⟨_,ok⟩ => nomatch ok) fun inside => low inside.1

theorem load_total (i : Nat) (slots : List (Fin 3)) (engine : Engine) :
    (∃ later, slots.foldlM (fun engine p => functorInvoke engine (engine.loadParamHandle i p)) engine = .ok later) ↔
      ∀ p ∈ slots, Inside engine (engine.loadParamHandle i p) := by
  induction slots generalizing engine with
  | nil => exact iff_of_true ⟨engine,rfl⟩ fun p member => absurd member List.not_mem_nil
  | cons p slots ih =>
    rw [List.forall_mem_cons,← invoke_total]
    constructor
    · rintro ⟨later,ok⟩
      rw [List.foldlM_cons,bind_ok] at ok
      obtain ⟨next,invoked,rest⟩ := ok
      have same := invoke_same _ next invoked
      refine ⟨⟨next,invoked⟩,?_⟩
      intro q member
      have inside := (ih next).mp ⟨later,rest⟩ q member
      rwa [same_inside same,same.loads] at inside
    · rintro ⟨⟨next,invoked⟩,others⟩
      have same := invoke_same _ next invoked
      obtain ⟨later,rest⟩ := (ih next).mpr fun q member => by
        rw [same_inside same,same.loads]
        exact others q member
      refine ⟨later,?_⟩
      rw [List.foldlM_cons,invoked,ok_bind]
      exact rest

theorem function_same (engine stored : Engine) (memory after : σ) (i : Nat) (call : Call)
    (ok : frameFunction library engine memory i = .ok (stored,after,call)) : SameHandles stored engine := by
  unfold frameFunction at ok
  obtain ⟨loaded,loads,ok⟩ := (bind_ok _ _ _).mp ok
  obtain ⟨last,stores,same⟩ := (bind_ok _ _ _).mp ok
  cases same
  have after := invoke_same _ stored stores
  have before := Handles.load_same i _ loaded loads
  exact ⟨after.table.trans before.table,after.loads.trans before.loads,after.saves.trans before.saves,
    after.count.trans before.count⟩

theorem function_total (engine : Engine) (memory : σ) (i : Nat) :
    (∃ stored after call, frameFunction library engine memory i = .ok (stored,after,call)) ↔ Usable engine i := by
  have slots : (∀ p ∈ [(0 : Fin 3),1,2], Inside engine (engine.loadParamHandle i p)) ↔
      ∀ p, Inside engine (engine.loadParamHandle i p) := by
    constructor
    · intro each p
      apply each p
      revert p
      decide
    · exact fun all p _ => all p
  rw [Usable,← slots,← load_total]
  constructor
  · rintro ⟨stored,after,call,ok⟩
    unfold frameFunction at ok
    obtain ⟨loaded,loads,ok⟩ := (bind_ok _ _ _).mp ok
    obtain ⟨last,stores,_⟩ := (bind_ok _ _ _).mp ok
    have same := Handles.load_same i _ loaded loads
    have inside := (invoke_total _ _).mp ⟨last,stores⟩
    refine ⟨⟨loaded,loads⟩,?_⟩
    unfold Inside at inside ⊢
    dsimp only at inside
    rwa [same.table,same.saves] at inside
  · rintro ⟨⟨loaded,loads⟩,inside⟩
    have same := Handles.load_same i _ loaded loads
    let returned : Engine :=
      {loaded with result := Function.update loaded.result i (callFunction library loaded.functions memory i).2}
    obtain ⟨last,stores⟩ := (invoke_total returned (loaded.saveResultHandle i)).mpr (by
      rw [← same.saves] at inside
      unfold Inside at inside ⊢
      rwa [← same.table] at inside)
    refine ⟨last,(callFunction library loaded.functions memory i).1,
      ⟨i,paramAt loaded.functions i,(callFunction library loaded.functions memory i).2⟩,?_⟩
    rw [frameFunction,callLoadParam,loads,ok_bind]
    change (callStoreResult i returned >>= _) = _
    rw [callStoreResult,stores,ok_bind]
    rfl

theorem frameFrom_total (order : List Nat) (engine : Engine) (memory : σ) :
    (∃ later after calls, frameFrom library order engine memory = .ok (later,after,calls)) ↔ ∀ i ∈ order, Usable engine i := by
  induction order generalizing engine memory with
  | nil => exact iff_of_true ⟨engine,memory,[],rfl⟩ fun i member => absurd member List.not_mem_nil
  | cons i order ih =>
    rw [List.forall_mem_cons,← function_total library engine memory]
    constructor
    · rintro ⟨later,after,calls,ok⟩
      rw [frameFrom,bind_ok] at ok
      obtain ⟨⟨next,middle,call⟩,function,rest⟩ := ok
      obtain ⟨⟨last,final,others⟩,frame,_⟩ := (bind_ok _ _ _).mp rest
      have same := function_same library engine next memory middle i call function
      refine ⟨⟨next,middle,call,function⟩,?_⟩
      intro j member
      rw [← same_usable same]
      exact (ih next middle).mp ⟨last,final,others,frame⟩ j member
    · rintro ⟨⟨next,middle,call,function⟩,others⟩
      have same := function_same library engine next memory middle i call function
      obtain ⟨last,final,calls,frame⟩ := (ih next middle).mpr fun j member => by
        rw [same_usable same]
        exact others j member
      refine ⟨last,final,call::calls,?_⟩
      rw [frameFrom,function,ok_bind]
      dsimp only
      rw [frame,ok_bind]
      rfl

theorem body_total (unset : Nat → Word) (engine : Engine) (memory : σ) :
    (∃ later after calls, frameBody library unset engine memory = .ok (later,after,calls)) ↔
      ∀ i < engine.functions.length, Usable engine i := by
  rw [frameBody,frameFrom_total]
  simp only [List.mem_range]
  exact Iff.rfl

/-- The images of a frame are a run of appends. -/
theorem objects_appended (memory : σ) (objects : List Object) (store : RecordRW) (rec : Record)
    (present : store.record = some rec) :
    appendObjects library memory objects store = (appendAll (objects.map (image library memory)) rec store.write).map
      fun stored => {store with record := some stored.1, write := stored.2} := by
  induction objects generalizing store rec with
  | nil =>
    obtain ⟨record,read,write⟩ := store
    cases present
    rfl
  | cons object objects ih =>
    rw [appendObjects,present,List.map_cons,appendAll,← image_length library memory object]
    dsimp only
    cases append : recordAppend (image library memory object).length (image library memory object) rec store.write with
    | error stop => rfl
    | ok stored =>
      rw [ok_bind,ok_bind]
      exact ih _ stored.1 rfl

theorem images_total (memory : σ) (objects : List Object) (store : RecordRW) (rec : Record) (images : List (List Byte))
    (present : store.record = some rec) (written : Written store images)
    (room : store.write.byteCount + totalBytes (objects.map Object.bytes) < 2^31) :
    (∃ stored, appendObjects library memory objects store = .ok stored) ↔
      Fits rec.allocBytes store.write.byteCount (objects.map Object.bytes) := by
  have sizes : (objects.map (image library memory)).map List.length = objects.map Object.bytes := by
    rw [List.map_map]
    exact List.map_congr_left fun object _ => image_length library memory object
  have holds := written.holds rec present
  have all := append_all_ok (objects.map (image library memory)) images rec store.write holds written.cursor
    (by rw [sizes]; exact room)
  have inside := each_inside_iff (objects.map (image library memory)) images rec store.write holds written.cursor
    (by rw [sizes]; exact room)
  rw [sizes] at inside
  rw [← inside,← all,objects_appended library memory objects store rec present]
  cases appendAll (objects.map (image library memory)) rec store.write with
  | error stop => exact iff_of_false (fun ⟨_,ok⟩ => nomatch ok) fun ⟨_,_,ok⟩ => nomatch ok
  | ok stored => exact iff_of_true ⟨_,rfl⟩ ⟨stored.1,stored.2,rfl⟩

theorem simulate_total (unset : Nat → Word) (game : Game σ) (store : RecordRW) (rec : Record) (images : List (List Byte))
    (present : store.record = some rec) (written : Written store images)
    (room : store.write.byteCount + totalBytes (game.engine.objects.map Object.bytes) < 2^31) :
    (∃ later stored, simulateFrame library unset game store = .ok (later,stored)) ↔
      (∀ i < game.engine.functions.length, Usable game.engine i) ∧
        Fits rec.allocBytes store.write.byteCount (game.engine.objects.map Object.bytes) := by
  rw [← body_total library unset game.engine game.memory]
  constructor
  · rintro ⟨later,stored,ok⟩
    obtain ⟨⟨engine,memory,calls⟩,body,ok⟩ := (bind_ok _ _ _).mp ok
    obtain ⟨appended,append,_⟩ := (bind_ok _ _ _).mp ok
    refine ⟨⟨engine,memory,calls,body⟩,?_⟩
    rw [frameBody_objects library unset _ _ _ _ calls body] at append
    exact (images_total library memory game.engine.objects store rec images present written room).mp ⟨appended,append⟩
  · rintro ⟨⟨engine,memory,calls,body⟩,fits⟩
    obtain ⟨appended,append⟩ :=
      (images_total library memory game.engine.objects store rec images present written room).mpr fits
    rw [← frameBody_objects library unset _ _ _ _ calls body] at append
    refine ⟨{game with engine := engine, memory := memory},appended,?_⟩
    rw [simulateFrame,body,ok_bind]
    dsimp only
    rw [append,ok_bind]
    rfl

end Frames

section Turns
variable {σ : Type}

/-- The commands of the turn: the next one of every player that is counted. -/
def due (world : World σ) : List (List Byte) :=
  (players world.playerCount).map fun i => (waiting (world.gameRecord i)).headD []

/-- The turn's commands leave a goal ahead. -/
def Simulates (tick : Tick) (world : World σ) (game : Game σ) : Prop :=
  executeAll world.library tick.cycles 0 (due world) world.game = .ok game ∧ world.loop.frame < game.simulationGoal

structure TurnSafe (tick : Tick) (world : World σ) : Prop where
  fits : ((due world).map fun text => text.length + 1).sum ≤ frameBufLen
  objects : ∀ text ∈ due world, ¬ NamesNoObject world.game.engine text
  handles : ∀ game, Simulates tick world game → ∀ i < game.engine.functions.length, Usable game.engine i
  images : ∀ game, Simulates tick world game → ∀ record, world.frameStore.record = some record →
    Fits record.allocBytes world.frameStore.write.byteCount (world.game.engine.objects.map Object.bytes)

/-- What a synchronized world has to offer a turn. -/
structure Provided (world : World σ) (logs : Fin 4 → List (List Byte)) (t : Nat) (images : List (List Byte))
    (record : Record) : Prop where
  written : ∀ i, Written (world.gameRecord i) (logs i)
  free : ∀ i, Free 0 (logs i)
  reads : ∀ i ∈ players world.playerCount, Cursor (logs i) t (world.gameRecord i).read
  store : Written world.frameStore images
  present : world.frameStore.record = some record
  room : world.frameStore.write.byteCount + totalBytes (world.game.engine.objects.map Object.bytes) < 2^31

variable {world : World σ} {logs : Fin 4 → List (List Byte)} {t : Nat} {images : List (List Byte)} {record : Record}

/-- The round takes the due commands when they fit, and crashes when they do not. -/
theorem Provided.takes (provided : Provided world logs t images record)
    (nearest : (commandPreview world.loop.inputQueueMax world.playerCount world.gameRecord).turnNearest ≠ 0) :
    (((due world).map fun text => text.length + 1).sum ≤ frameBufLen →
      ∃ moved, commandFrame (players world.playerCount) 0 world.gameRecord = .ok (some (due world),moved)) ∧
    (frameBufLen < ((due world).map fun text => text.length + 1).sum →
      ∃ moved, commandFrame (players world.playerCount) 0 world.gameRecord = .ok (none,moved)) := by
  have queue := ((preview_positive _ _ _).mp nearest).1
  have waits := (preview_waiting world logs t queue provided.written provided.free provided.reads).mp nearest
  have next (i : Fin 4) (member : i ∈ players world.playerCount) :
      Next (world.gameRecord i) ((waiting (world.gameRecord i)).headD []) := by
    have rest := waiting_written _ _ t (provided.written i) (provided.free i) (provided.reads i member)
    have some_command := waits i member
    rw [rest,Ne,List.drop_eq_nil_iff] at some_command
    rw [rest,List.headD_eq_head?_getD,List.head?_drop]
    exact (next_written _ _ t (provided.written i) (provided.free i) (provided.reads i member) (by omega)).1
  obtain ⟨takes,ends⟩ := commandFrame_takes (players world.playerCount) 0 world.gameRecord _ (players_nodup _)
    (Nat.zero_le _) next
  have sizes : ((due world).map fun text => text.length + 1).sum =
      0 + ((players world.playerCount).map fun i => ((waiting (world.gameRecord i)).headD []).length + 1).sum := by
    rw [due,List.map_map,Nat.zero_add]
    rfl
  rw [sizes]
  exact ⟨fun fits => ⟨_,takes fits⟩,ends⟩

/-- The turn is taken exactly when its commands fit and can be executed. -/
theorem Provided.turn (provided : Provided world logs t images record) (tick : Tick)
    (nearest : (commandPreview world.loop.inputQueueMax world.playerCount world.gameRecord).turnNearest ≠ 0) :
    ∃ moved, ∀ middle texts, takeTurn tick world = .ok (middle,texts) ↔
      ((due world).map fun text => text.length + 1).sum ≤ frameBufLen ∧ texts = due world ∧
        ∃ game, executeAll world.library tick.cycles 0 (due world) world.game = .ok game ∧
          middle = {world with game := game, gameRecord := moved} := by
  obtain ⟨takes,ends⟩ := provided.takes nearest
  rcases Nat.lt_or_ge frameBufLen ((due world).map fun text => text.length + 1).sum with full | fits
  · obtain ⟨moved,frame⟩ := ends full
    refine ⟨moved,fun middle texts => iff_of_false ?_ fun safe => absurd safe.1 (Nat.not_le_of_lt full)⟩
    intro taken
    rw [takeTurn,frame,ok_bind] at taken
    cases taken
  obtain ⟨moved,frame⟩ := takes fits
  refine ⟨moved,fun middle texts => ?_⟩
  rw [takeTurn,frame,ok_bind,and_iff_right fits]
  constructor
  · intro taken
    obtain ⟨game,execute,same⟩ := (bind_ok _ _ _).mp taken
    cases same
    exact ⟨rfl,game,execute,rfl⟩
  · rintro ⟨rfl,game,execute,rfl⟩
    dsimp only
    rw [execute,ok_bind]
    rfl

theorem finish_total (tick : Tick) (moved : Recordings) (game : Game σ) (texts : List (List Byte))
    (provided : Provided world logs t images record) (objects : game.engine.objects = world.game.engine.objects) :
    (∃ passed, finishTurn tick {world with game := game, gameRecord := moved} texts = .ok passed) ↔
      (world.loop.frame < game.simulationGoal → (∀ i < game.engine.functions.length, Usable game.engine i) ∧
        Fits record.allocBytes world.frameStore.write.byteCount (world.game.engine.objects.map Object.bytes)) := by
  unfold finishTurn
  dsimp only
  by_cases reached : game.simulationGoal ≤ world.loop.frame
  · rw [if_pos reached]
    exact iff_of_true ⟨_,rfl⟩ fun below => absurd below (Nat.not_lt.mpr reached)
  · have below := Nat.lt_of_not_le reached
    have room := provided.room
    rw [← objects] at room
    rw [if_neg reached,← objects]
    have simulates := simulate_total world.library tick.unset game world.frameStore record images provided.present
      provided.store room
    constructor
    · rintro ⟨passed,ok⟩ _
      obtain ⟨⟨later,stored⟩,simulate,_⟩ := (bind_ok _ _ _).mp ok
      exact simulates.mp ⟨later,stored,simulate⟩
    · intro safe
      obtain ⟨later,stored,simulate⟩ := simulates.mpr (safe below)
      exact ⟨_,by rw [simulate]; rfl⟩

/-- Behind a synchronization the iteration completes if it stalls, or if its turn is safe. -/
theorem advance_total (tick : Tick) (provided : Provided world logs t images record) :
    (∃ passed, advance tick .ok world = .ok passed) ↔
      ((commandPreview world.loop.inputQueueMax world.playerCount world.gameRecord).turnNearest ≠ 0 → TurnSafe tick world) := by
  unfold advance
  dsimp only
  by_cases nearest : (commandPreview world.loop.inputQueueMax world.playerCount world.gameRecord).turnNearest = 0
  · rw [if_pos nearest]
    exact iff_of_true ⟨_,rfl⟩ fun waits => absurd nearest waits
  rw [if_neg nearest,forall_prop_of_true nearest]
  obtain ⟨moved,takes⟩ := provided.turn tick nearest
  have objects (game : Game σ) (execute : executeAll world.library tick.cycles 0 (due world) world.game = .ok game) :
      game.engine.objects = world.game.engine.objects :=
    (executeAll_goal world.library tick.cycles 0 (due world) world.game game execute).2
  constructor
  · rintro ⟨passed,ok⟩
    obtain ⟨⟨middle,texts⟩,taken,finish⟩ := (bind_ok _ _ _).mp ok
    obtain ⟨fits,rfl,game,execute,rfl⟩ := (takes middle texts).mp taken
    have safe := (finish_total tick moved game (due world) provided (objects game execute)).mp ⟨passed,finish⟩
    refine ⟨fits,(executeAll_total world.library tick.cycles 0 (due world) world.game).mp ⟨game,execute⟩,?_,?_⟩
    · intro other simulates
      cases execute.symm.trans simulates.1
      exact (safe simulates.2).1
    · intro other simulates later found
      cases execute.symm.trans simulates.1
      cases provided.present.symm.trans found
      exact (safe simulates.2).2
  · intro safe
    obtain ⟨game,execute⟩ := (executeAll_total world.library tick.cycles 0 (due world) world.game).mpr safe.objects
    obtain ⟨passed,finish⟩ := (finish_total tick moved game (due world) provided (objects game execute)).mpr fun below =>
      ⟨safe.handles game ⟨execute,below⟩,safe.images game ⟨execute,below⟩ record provided.present⟩
    exact ⟨passed,(bind_ok _ _ _).mpr ⟨_,(takes _ _).mpr ⟨safe.fits,rfl,game,execute,rfl⟩,finish⟩⟩

end Turns

section Clock
variable {σ : Type}

/-- A reading of the counter that is not inside the running frame. -/
def Late (clock : TscClock) (now : UInt64) : Prop := clock.tscStep ≤ clock.tscClock + clock.tscStep - now

theorem clockSync_passes (clock : TscClock) (sleepUsec now : UInt64) :
    Late clock now ∧ (clockSync clock sleepUsec now).1 = true ∨
      ¬ Late clock now ∧ ∃ sleep, clockSync clock sleepUsec now = (false,clock,sleep) := by
  unfold clockSync Late
  dsimp only
  by_cases early : clock.tscClock + clock.tscStep - now < clock.tscStep
  · rw [if_pos early]
    exact .inr ⟨UInt64.not_le.mpr early,_,rfl⟩
  · rw [if_neg early]
    refine .inl ⟨UInt64.not_lt.mp early,?_⟩
    split <;> rfl

/-- The wait ends at the first late reading. -/
theorem waitClock_some (readings : List UInt64) (loop : Loop) :
    (∃ later, waitClock readings loop = some later) ↔ ∃ now ∈ readings, Late loop.tscClock now := by
  induction readings generalizing loop with
  | nil =>
    constructor
    · rintro ⟨later,passed⟩
      cases passed
    · rintro ⟨now,member,_⟩
      exact absurd member List.not_mem_nil
  | cons now readings ih =>
    rw [List.exists_mem_cons_iff,waitClock]
    rcases clockSync_passes loop.tscClock loop.sleepUsec now with ⟨late,passes⟩ | ⟨early,sleep,waits⟩
    · refine iff_of_true ?_ (.inl late)
      split
      · exact ⟨_,rfl⟩
      · next same =>
        rw [same] at passes
        cases passes
    · rw [waits,or_iff_right early]
      exact ih {loop with sleepUsec := sleep}

/-- An iteration that does not crash passes, or waits for a clock without a late reading. -/
theorem advance_passes (tick : Tick) (world : World σ) (passed : Passed σ) (ok : advance tick .ok world = .ok passed) :
    (∃ step, passed = some step) ↔ ∃ now ∈ tick.readings, Late world.loop.tscClock now := by
  have waits {α : Type} (loop : Loop) (step : Loop → α) (same : loop.tscClock = world.loop.tscClock) :
      (∃ result, (waitClock tick.readings loop).map step = some result) ↔
        ∃ now ∈ tick.readings, Late world.loop.tscClock now := by
    rw [← same,← waitClock_some]
    constructor
    · rintro ⟨result,mapped⟩
      obtain ⟨later,passed,_⟩ := Option.map_eq_some_iff.mp mapped
      exact ⟨later,passed⟩
    · rintro ⟨later,passed⟩
      exact ⟨step later,by rw [passed]; rfl⟩
  unfold advance at ok
  dsimp only at ok
  split at ok
  · cases ok
    exact waits _ _ rfl
  · obtain ⟨⟨middle,texts⟩,taken,finish⟩ := (bind_ok _ _ _).mp ok
    have kept : middle.loop = world.loop := by
      unfold takeTurn at taken
      obtain ⟨⟨found,moved⟩,_,taken⟩ := (bind_ok _ _ _).mp taken
      cases found with
      | none => cases taken
      | some found =>
        obtain ⟨game,_,same⟩ := (bind_ok _ _ _).mp taken
        cases same
        rfl
    unfold finishTurn at finish
    dsimp only at finish
    split at finish
    · cases finish
      exact waits _ _ (by dsimp only; rw [kept])
    · obtain ⟨⟨game,store⟩,_,finish⟩ := (bind_ok _ _ _).mp finish
      cases finish
      exact waits _ _ (by dsimp only; rw [kept])

end Clock

section Runs
variable {σ : Type}

theorem process_high (framerate : UInt8) (ep : EndPoint) (incoming keyboard : List Byte) (world : World σ)
    (log : SessionLog σ) (past : List (SessionLog σ)) (process : Process framerate ep incoming keyboard world log past) :
    world.stdin.usedBuf ≤ bufLen := by
  have empty : (0 : Int) ≤ bufLen := by decide
  induction process with
  | boot library calibration world opened =>
    subst opened
    exact empty
  | iterate world synced later log past tick status turn process running sync step ih =>
    obtain ⟨stdin,_⟩ := advance_terminal tick status synced later turn step
    obtain ⟨gathered,gathering,sync⟩ := (bind_ok _ _ _).mp sync
    obtain ⟨_,_,same⟩ := (bind_ok _ _ _).mp sync
    cases same
    obtain ⟨told,polled,fill⟩ := (bind_ok _ _ _).mp gathering
    obtain ⟨⟨up,input,left,events⟩,poll,fold⟩ := (bind_ok _ _ _).mp polled
    rw [(notify_terminal tick.changed world).1,(notify_terminal tick.changed world).2] at poll
    rw [stdin]
    dsimp only
    rw [(fill_terminal _ _ told gathered fill).1,(events_terminal events _ told fold).1]
    exact poll_high _ _ _ _ _ _ _ _ ih poll
  | reload world opened log past library calibration process stopped stays started ih =>
    subst started
    exact empty

/-- What the records must have room for: the lines of one poll and the fillers, every
frame that the peer sends, and the images of one more frame. -/
structure Room (frames : List Frame) (world : World σ) : Prop where
  input : world.input.write.byteCount + bufLen + loopWriteFrame world.loop ≤ 2^31
  records : ∀ i, (encode 0 (texts i frames)).length ≤ 2^31
  store : world.frameStore.write.byteCount + totalBytes (world.game.engine.objects.map Object.bytes) < 2^31

/-- Behind the synchronization a process has all that the turn reads. -/
theorem process_provided (framerate : UInt8) (ep : EndPoint) (frames : List Frame) (keyboard : List Byte)
    (world synced : World σ) (log : SessionLog σ) (past : List (SessionLog σ)) (tick : Tick)
    (process : Process framerate ep (wire frames) keyboard world log past) (room : Room frames world)
    (sync : syncStep tick world = .ok (.ok,synced)) :
    ∃ logs t images record, Provided synced logs t images record := by
  obtain ⟨lines,done,rest,sent,images,head⟩ := process_head framerate ep frames keyboard world log past process
  have accounted := head.accounted
  obtain ⟨more,now,later,m,_,reached⟩ := syncStep_ok tick .ok world synced lines done rest sent accounted.recorded
    accounted.cursor accounted.demux sync
  obtain ⟨moved,_⟩ := synced_accounted .ok world synced more now later m accounted reached
  obtain ⟨_,record,present,_⟩ := (process_stored framerate ep _ keyboard world log past process).images
  refine ⟨fun i => texts i (done ++ now),synced.loop.frame + synced.loop.pauseFrame,images,record,moved.demux.written,
    fun i => texts_free i (done ++ now),?_,moved.store,?_,?_⟩
  · intro i member
    have cursor := moved.reads i
    rwa [if_pos ((players_mem _ i).mp member)] at cursor
  · rw [reached.frameStore]
    exact present
  · rw [reached.frameStore,reached.engine]
    exact room.store

/-- An iteration of any process with a peer comes to the next head of the loop, whatever
the system answers, if and only if its keyboard is read behind the start of the buffer
and, where the network is up, a reading of the clock is late and a turn that is due is
safe: the commands fit, name no missing object and leave, where they have the frame
simulated, a functor for every handle and room for the images. -/
theorem completes_iff (framerate : UInt8) (ep : EndPoint) (frames : List Frame) (keyboard : List Byte) (world : World σ)
    (log : SessionLog σ) (past : List (SessionLog σ)) (tick : Tick)
    (process : Process framerate ep (wire frames) keyboard world log past) (room : Room frames world) :
    (∃ status synced later turn, syncStep tick world = .ok (status,synced) ∧
        advance tick status synced = .ok (some (later,turn))) ↔
      KeyboardSafe world.stdin world.keyboard tick.poll tick.read ∧
        ∀ synced, syncStep tick world = .ok (.ok,synced) →
          (∃ now ∈ tick.readings, Late synced.loop.tscClock now) ∧
            ((commandPreview synced.loop.inputQueueMax synced.playerCount synced.gameRecord).turnNearest ≠ 0 →
              TurnSafe tick synced) := by
  obtain ⟨lines,done,rest,sent,images,head⟩ := process_head framerate ep frames keyboard world log past process
  have accounted := head.accounted
  have high := process_high framerate ep _ keyboard world log past process
  have bytes := accounted.recorded.written.cursor.bytes
  rw [List.take_length] at bytes
  have input := room.input
  have records := room.records
  rw [head.split] at records
  have syncs := syncStep_total tick world lines sent done rest accounted.recorded accounted.cursor accounted.demux records
    high (by omega)
  have advances (synced : World σ) (sync : syncStep tick world = .ok (.ok,synced)) :
      (∃ later turn, advance tick .ok synced = .ok (some (later,turn))) ↔
        (∃ now ∈ tick.readings, Late synced.loop.tscClock now) ∧
          ((commandPreview synced.loop.inputQueueMax synced.playerCount synced.gameRecord).turnNearest ≠ 0 →
            TurnSafe tick synced) := by
    obtain ⟨_,_,_,_,provided⟩ :=
      process_provided framerate ep frames keyboard world synced log past tick process room sync
    rw [← advance_total tick provided]
    constructor
    · rintro ⟨later,turn,step⟩
      exact ⟨(advance_passes tick synced _ step).mp ⟨_,rfl⟩,_,step⟩
    · rintro ⟨late,passed,step⟩
      obtain ⟨⟨later,turn⟩,rfl⟩ := (advance_passes tick synced passed step).mpr late
      exact ⟨later,turn,step⟩
  rw [← syncs]
  constructor
  · rintro ⟨status,synced,later,turn,sync,step⟩
    refine ⟨⟨status,synced,sync⟩,?_⟩
    intro other again
    cases again.symm.trans sync
    exact (advances synced sync).mp ⟨later,turn,step⟩
  · rintro ⟨⟨status,synced,sync⟩,safe⟩
    cases status with
    | ok =>
      obtain ⟨later,turn,step⟩ := (advances synced sync).mpr (safe synced sync)
      exact ⟨.ok,synced,later,turn,sync,step⟩
    | corrupt => exact ⟨.corrupt,synced,_,_,sync,rfl⟩
    | term => exact ⟨.term,synced,_,_,sync,rfl⟩
    | change => exact ⟨.change,synced,_,_,sync,rfl⟩

/-- The turn of a goal simulates a frame, and the iteration passes at its one reading. -/
theorem completes_goal :
    ∃ (world synced later : World Nat) (past : List (SessionLog Nat)) (tick : Tick),
      Process 1 endpointFromFd (wire [goalFrame]) [] world (.start world) past ∧ Room [goalFrame] world ∧
      syncStep tick world = .ok (.ok,synced) ∧
      advance tick .ok synced = .ok (some (later,some ⟨0,0,[goalFrame.text],true⟩)) ∧
      KeyboardSafe world.stdin world.keyboard tick.poll tick.read ∧
      (∃ now ∈ tick.readings, Late synced.loop.tscClock now) ∧
      ((commandPreview synced.loop.inputQueueMax synced.playerCount synced.gameRecord).turnNearest ≠ 0 →
        TurnSafe tick synced) := by
  obtain ⟨world,past,tick,synced,later,process,joined,_,game,sync,step,_⟩ := goal_turn ⟨1,0,0⟩
  have target : loopWriteFrame world.loop = 1 := by
    rw [loopWriteFrame,joined.at_frame,joined.at_pause,joined.queue]
    rfl
  have bytes := joined.recorded.written.cursor.bytes
  have room : Room [goalFrame] world := by
    refine ⟨?_,?_,?_⟩
    · rw [bytes,target]
      decide
    · decide
    · rw [joined.unstored,game]
      simp only [openSession,counterLibrary_open]
      decide
  obtain ⟨keyboard,safe⟩ := (completes_iff 1 endpointFromFd [goalFrame] [] world (.start world) past tick process room).mp
    ⟨.ok,synced,later,_,sync,step⟩
  exact ⟨world,synced,later,past,tick,process,room,sync,step,keyboard,safe synced sync⟩

end Runs

end Craftsman.Completion
