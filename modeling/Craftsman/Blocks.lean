import Craftsman.Readiness

/-! What the records hold in any run, whatever bytes the peer sends. A block with
a NUL inside counts as one command when it is written and is read as several. -/
namespace Craftsman.Blocks
open Craftsman.Memory Craftsman.Recording Craftsman.CommandLog Craftsman.Network Craftsman.Client
open Craftsman.Demultiplex Craftsman.Execute Craftsman.GameLoop Craftsman.Simulation Craftsman.Iteration
open Craftsman.Readiness Craftsman.Stream.Delimited

/-- The commands that a reader finds in the blocks. -/
def strings (blocks : List (List Byte)) : List (List Byte) := (split 0 (encode 0 blocks)).1

/-- The blocks are written, and the reader has taken `t` strings and is not ahead of the writer's count. -/
structure Stored (rw : RecordRW) (blocks : List (List Byte)) (t : Nat) : Prop where
  written : Written rw blocks
  cursor : Cursor (strings blocks) t rw.read
  behind : t ≤ blocks.length

def Kept (recording : Recordings) : Prop := ∀ i, ∃ blocks t, Stored (recording i) blocks t

section Records
variable {rw : RecordRW} {blocks : List (List Byte)} {t : Nat}

theorem strings_free (blocks : List (List Byte)) : Free 0 (strings blocks) := (split_free 0 _).1

theorem strings_laid (record : Record) (blocks : List (List Byte)) (holds : Holds record blocks) :
    Laid record (strings blocks) := by
  have same : encode 0 (strings blocks) = encode 0 blocks := encode_split 0 blocks
  refine ⟨?_,?_,holds.laid.small⟩
  · rw [same]
    exact holds.layout
  · rw [same]
    exact holds.used

theorem stored_empty : Stored .empty [] 0 := ⟨written_empty,cursor_zero _,Nat.le_refl 0⟩

theorem Stored.alloc (stored : Stored rw blocks t) (absent : rw.record = none) :
    Stored {rw with record := some recordAlloc} blocks t :=
  ⟨stored.written.alloc absent,stored.cursor,stored.behind⟩

theorem Stored.rewind (stored : Stored rw blocks t) : Stored {rw with read := .zero} blocks 0 :=
  ⟨stored.written.read .zero,cursor_zero _,Nat.zero_le _⟩

theorem Stored.append (stored : Stored rw blocks t) (record closed : Record) (text : List Byte) (write : RecordOffset)
    (present : rw.record = some record) (ok : recordAppend text.length text record rw.write = .ok (closed,write)) :
    Stored {rw with record := some closed, write := write} (blocks ++ [text]) t := by
  refine ⟨stored.written.append record closed text write present ok,?_,?_⟩
  · rw [strings,split_encode_append]
    exact stored.cursor.append _
  · rw [List.length_append]
    exact Nat.le_add_right_of_le stored.behind

theorem Stored.ahead (stored : Stored rw blocks t) : ahead rw = blocks.length - t := by
  have behind := stored.behind
  have count : blocks.length ≤ 2^31 := by
    cases present : rw.record with
    | none =>
      rw [stored.written.absent present]
      exact Nat.zero_le _
    | some record => exact (stored.written.holds record present).count_le
  rw [Simulation.ahead,stored.written.cursor.commands,stored.cursor.commands]
  unfold u32
  omega

theorem Stored.commands (stored : Stored rw blocks t) : commands rw = .ok (strings blocks) := by
  unfold Demultiplex.commands
  split
  · next absent =>
    rw [stored.written.absent absent]
    rfl
  · next record present =>
    exact (strings_laid record blocks (stored.written.holds record present)).playback (strings_free blocks)

theorem Stored.waiting (stored : Stored rw blocks t) : waiting rw = (strings blocks).drop t := by
  rw [Readiness.waiting,stored.commands,stored.cursor.commands]

/-- A player that the preview counts has a command, and its read leaves the rest. -/
theorem Stored.next (stored : Stored rw blocks t) (due : Simulation.ahead rw ≠ 0) :
    ∃ text, Next rw text ∧ Readiness.waiting rw = text :: Readiness.waiting (afterNext rw text) ∧
      Stored (afterNext rw text) blocks (t + 1) := by
  rw [stored.ahead] at due
  have more : t < (strings blocks).length := by
    have count : blocks.length ≤ (strings blocks).length := length_le_split 0 blocks
    omega
  cases present : rw.record with
  | none =>
    rw [stored.written.absent present] at due
    exact absurd (Nat.zero_sub t) due
  | some record =>
    have laid := strings_laid record blocks (stored.written.holds record present)
    obtain ⟨next,moved⟩ := next_laid rw record (strings blocks) t present laid (strings_free blocks) stored.cursor more
    have taken : Stored (afterNext rw (strings blocks)[t]) blocks (t + 1) := ⟨stored.written.read _,moved,by omega⟩
    refine ⟨_,next,?_,taken⟩
    rw [stored.waiting,taken.waiting]
    exact List.drop_eq_getElem_cons more

end Records

section Network

theorem Kept.update {recording : Recordings} (kept : Kept recording) (i : Fin 4) (rw : RecordRW)
    (here : ∃ blocks t, Stored rw blocks t) : Kept (Function.update recording i rw) := by
  intro j
  by_cases same : j = i
  · subst j
    rwa [Function.update_self]
  · rw [Function.update_of_ne same]
    exact kept j

/-- A stored block is whatever the frame's length covers, its NULs included. -/
theorem message_kept (conn after : Connection) (recording stored : Recordings) (player : Fin 4) (record : Record)
    (kept : Kept recording) (present : (recording player).record = some record)
    (ok : storeMessage conn recording player record = .ok (after,stored)) : Kept stored := by
  obtain ⟨closed,write,append,_,_,_,_,_,_,_,_,rfl⟩ := storeMessage_ok _ _ _ _ _ _ ok
  obtain ⟨_,_,readable,_⟩ := recordAppend_ok _ _ _ _ _ _ append
  obtain ⟨blocks,t,before⟩ := kept player
  generalize (conn.blockLen - 1).toNat = count at append readable
  have length : ((conn.receiveBuffer.drop 8).take count).length = count := List.length_take_of_le readable
  have text : recordAppend ((conn.receiveBuffer.drop 8).take count).length ((conn.receiveBuffer.drop 8).take count) record
      (recording player).write = .ok (closed,write) := by
    rw [length,← append]
    exact recordAppend_congr count _ _ record _ (by rw [length]) readable (by rw [List.take_take,Nat.min_self])
  exact kept.update player _ ⟨_,t,before.append record closed _ write present text⟩

theorem processing_kept (conn after : Connection) (recording stored : Recordings) (result : Bool) (kept : Kept recording)
    (ok : connectionProcessing conn recording = .ok (result,after,stored)) : Kept stored := by
  induction conn, recording using connectionProcessing.induct with
  | case1 conn recording stop round =>
    rw [processing_stops _ _ _ round] at ok
    cases ok
  | case2 conn recording ended last moved round =>
    rw [processing_done _ _ _ _ _ round] at ok
    cases ok
    rcases round_ok _ _ _ round with ⟨_,same⟩ | ⟨_,_,player,_,⟨absent,same⟩ | ⟨_,_,_,_,_,same⟩⟩
    · cases same
      exact kept
    · cases same
      obtain ⟨blocks,t,before⟩ := kept player
      exact kept.update player _ ⟨blocks,t,before.alloc absent⟩
    · cases same
  | case3 conn recording next moved round ih =>
    rw [processing_next _ _ _ _ round] at ok
    rcases round_ok _ _ _ round with ⟨_,same⟩ | ⟨_,_,player,_,⟨_,same⟩ | ⟨record,_,_,present,store,same⟩⟩
    · cases same
    · cases same
    · cases same
      exact ih (message_kept conn next recording moved player record kept present store) ok

theorem sync_kept (target : Nat) (conn after : Connection) (wires wires' : Wires) (input sent : RecordRW)
    (recording stored : Recordings) (kernel : Kernel) (status : ConnStatus) (kept : Kept recording)
    (ok : connectionSync target conn wires input recording kernel = .ok (status,after,wires',sent,stored)) :
    Kept stored := by
  unfold connectionSync at ok
  obtain ⟨⟨up,polled,incoming⟩,_,ok⟩ := (bind_ok _ _ _).mp ok
  dsimp only at ok
  split at ok
  · cases ok
    exact kept
  · obtain ⟨⟨same,processed,moved⟩,processing,ok⟩ := (bind_ok _ _ _).mp ok
    have kept := processing_kept polled processed recording moved same kept processing
    dsimp only at ok
    split at ok
    · cases ok
      exact kept
    · obtain ⟨_,_,same⟩ := (bind_ok _ _ _).mp ok
      cases same
      exact kept

end Network

section Turns

theorem Kept.due {recording : Recordings} (kept : Kept recording) (i : Fin 4) (due : ahead (recording i) ≠ 0) :
    ∃ text, Next (recording i) text ∧ waiting (recording i) = text :: waiting (afterNext (recording i) text) ∧
      ∃ blocks t, Stored (afterNext (recording i) text) blocks t := by
  obtain ⟨blocks,t,stored⟩ := kept i
  obtain ⟨text,next,rest,after⟩ := stored.next due
  exact ⟨text,next,rest,blocks,t+1,after⟩

/-- The next commands of the players of a due turn, as one function of the player. -/
theorem Kept.commands {recording : Recordings} (kept : Kept recording) (order : List (Fin 4))
    (due : ∀ i ∈ order, ahead (recording i) ≠ 0) :
    ∃ next : Fin 4 → List Byte, ∀ i ∈ order, Next (recording i) (next i) ∧
      waiting (recording i) = next i :: waiting (afterNext (recording i) (next i)) ∧
      ∃ blocks t, Stored (afterNext (recording i) (next i)) blocks t := by
  refine ⟨fun i => (waiting (recording i)).headD [],?_⟩
  intro i member
  obtain ⟨text,next,rest,after⟩ := kept.due i (due i member)
  have same : (waiting (recording i)).headD [] = text := by rw [rest,List.headD_cons]
  dsimp only
  rw [same]
  exact ⟨next,rest,after⟩

theorem Kept.passed {recording : Recordings} (kept : Kept recording) (order : List (Fin 4)) (next : Fin 4 → List Byte)
    (after : ∀ i ∈ order, ∃ blocks t, Stored (afterNext (recording i) (next i)) blocks t) :
    Kept (passed order next recording) := by
  intro i
  unfold Iteration.passed
  split
  · next member => exact after i member
  · exact kept i

end Turns

section Runs
variable {σ : Type}

theorem fill_gameRecord (target fuel : Nat) (world later : World σ) (ok : fillInput target fuel world = .ok later) :
    later.gameRecord = world.gameRecord := by
  induction fuel generalizing world with
  | zero =>
    cases ok
    rfl
  | succ fuel ih =>
    unfold fillInput at ok
    split at ok
    · obtain ⟨middle,append,rest⟩ := (bind_ok _ _ _).mp ok
      exact (ih middle rest).trans (append_gathered [] world middle List.not_mem_nil append).gameRecord
    · cases ok
      rfl

theorem gather_gameRecord (tick : Tick) (world later : World σ) (ok : gather tick world = .ok later) :
    later.gameRecord = world.gameRecord := by
  unfold gather at ok
  obtain ⟨middle,polled,rest⟩ := (bind_ok _ _ _).mp ok
  have heard := (notify_gathered tick.changed world).trans (poll_gathered tick _ middle polled)
  exact (fill_gameRecord _ _ middle later rest).trans heard.gameRecord

theorem syncStep_kept (tick : Tick) (status : ConnStatus) (world synced : World σ) (kept : Kept world.gameRecord)
    (ok : syncStep tick world = .ok (status,synced)) : Kept synced.gameRecord := by
  unfold syncStep at ok
  obtain ⟨middle,gathering,ok⟩ := (bind_ok _ _ _).mp ok
  rw [← gather_gameRecord tick world middle gathering] at kept
  obtain ⟨⟨status',conn,wires,input,gameRecord⟩,sync,same⟩ := (bind_ok _ _ _).mp ok
  cases same
  exact sync_kept _ _ _ _ _ _ _ _ _ _ _ kept sync

theorem advance_kept (tick : Tick) (status : ConnStatus) (world later : World σ) (turn : Option Turn)
    (kept : Kept world.gameRecord) (ok : advance tick status world = .ok (some (later,turn))) :
    Kept later.gameRecord := by
  rcases advance_cases tick status world later turn ok with ⟨_,idle⟩ | ⟨taken,_,_,turned⟩
  · rw [idle.gameRecord]
    exact kept
  · obtain ⟨_,due⟩ := (preview_positive _ _ _).mp turned.nearest
    obtain ⟨next,each⟩ := kept.commands (players world.playerCount) due
    obtain ⟨takes,ends⟩ := commandFrame_takes (players world.playerCount) 0 world.gameRecord next
      (players_nodup world.playerCount) (Nat.zero_le _) fun i member => (each i member).1
    have frame := turned.commands
    rcases Nat.lt_or_ge frameBufLen (0 + ((players world.playerCount).map fun i => (next i).length + 1).sum) with
      full | fits
    · obtain ⟨moved,none⟩ := ends full
      rw [none] at frame
      cases frame
    · rw [takes fits] at frame
      have moved := congrArg Prod.snd (Except.ok.inj frame)
      dsimp only at moved
      rw [← moved]
      exact kept.passed _ next fun i member => (each i member).2.2

/-- Whatever bytes arrive and however sessions follow each other, the records keep
their blocks and no reader overtakes its writer. -/
theorem process_kept (framerate : UInt8) (ep : EndPoint) (incoming keyboard : List Byte) (world : World σ)
    (log : SessionLog σ) (past : List (SessionLog σ))
    (process : Process framerate ep incoming keyboard world log past) : Kept world.gameRecord := by
  induction process with
  | boot library calibration world opened =>
    subst opened
    exact fun _ => ⟨[],0,stored_empty⟩
  | iterate world synced later log past tick status turn process running sync step ih =>
    exact advance_kept tick status synced later turn (syncStep_kept tick status world synced ih sync) step
  | reload world opened log past library calibration process stopped stays started ih =>
    subst started
    intro i
    obtain ⟨blocks,t,stored⟩ := ih i
    exact ⟨blocks,0,stored.rewind⟩

end Runs

end Craftsman.Blocks
