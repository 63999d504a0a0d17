import Craftsman.Sending

/-! The images of the objects that every simulated frame records. An append grows
its block at most once, by doubling it, so an object's size decides whether the
copy ends inside the block. -/
namespace Craftsman.FrameStore
open Craftsman.Memory Craftsman.Recording Craftsman.CommandLog Craftsman.Dlfn Craftsman.Execute
open Craftsman.Network Craftsman.Client Craftsman.GameLoop Craftsman.Simulation Craftsman.Iteration Craftsman.Sending
open Craftsman.Stream.Delimited

def AppendInside (len : Nat) (rec : Record) (off : RecordOffset) : Prop :=
  ∃ grown, recordRealloc rec (int32 (((off.byteCount + len + 1) % 2^64 : Nat) - rec.allocBytes)) = some grown ∧
    off.byteCount + len + 1 ≤ grown.allocBytes

def EachInside : List (List Byte) → Record → RecordOffset → Prop
  | [],_,_ => True
  | text::later,rec,off => AppendInside text.length rec off ∧
    ∀ closed next, recordAppend text.length text rec off = .ok (closed,next) → EachInside later closed next

def appendAll : List (List Byte) → Record → RecordOffset → Except Stop (Record × RecordOffset)
  | [],rec,off => .ok (rec,off)
  | text::later,rec,off => do
    let (closed,next) ← recordAppend text.length text rec off
    appendAll later closed next

def grownBytes (allocBytes needed : Nat) : Nat := if needed ≤ allocBytes then allocBytes else 2 * allocBytes

/-- The sizes, each with its terminator, never exceed twice the block at their turn. -/
def Fits : Nat → Nat → List Nat → Prop
  | _,_,[] => True
  | allocBytes,usedBytes,bytes::later => usedBytes + bytes + 1 ≤ 2 * allocBytes ∧
    Fits (grownBytes allocBytes (usedBytes + bytes + 1)) (usedBytes + bytes + 1) later

def totalBytes (sizes : List Nat) : Nat := (sizes.map (· + 1)).sum

section Appends

/-- Below 2^31 bytes the size test narrows to what it means. -/
theorem realloc_grown (rec : Record) (log : List (List Byte)) (len : Nat) (off : RecordOffset) (holds : Holds rec log)
    (small : off.byteCount + len + 1 < 2^31) :
    ∃ grown, recordRealloc rec (int32 (((off.byteCount + len + 1) % 2^64 : Nat) - rec.allocBytes)) = some grown ∧
      grown.allocBytes = grownBytes rec.allocBytes (off.byteCount + len + 1) := by
  have bounds := holds.bounded
  have needed : (off.byteCount + len + 1) % 2^64 = off.byteCount + len + 1 := Nat.mod_eq_of_lt (by omega)
  have narrowed : int32 (((off.byteCount + len + 1) % 2^64 : Nat) - rec.allocBytes) =
      off.byteCount + len + 1 - rec.allocBytes := by
    rw [needed,int32_of_bounds] <;> omega
  rw [narrowed]
  unfold recordRealloc grownBytes
  by_cases room : off.byteCount + len + 1 ≤ rec.allocBytes
  · rw [if_pos (by omega),if_pos room]
    exact ⟨rec,rfl,rfl⟩
  · have doubled : u32 (rec.allocBytes * 2) = rec.allocBytes * 2 := u32_of_lt (by omega)
    dsimp only
    rw [if_neg (by omega),if_neg room,doubled,if_neg (by omega)]
    exact ⟨_,rfl,Nat.mul_comm _ _⟩

theorem append_inside_iff (rec : Record) (log : List (List Byte)) (len : Nat) (off : RecordOffset)
    (holds : Holds rec log) (small : off.byteCount + len + 1 < 2^31) :
    AppendInside len rec off ↔ off.byteCount + len + 1 ≤ 2 * rec.allocBytes := by
  obtain ⟨grown,realloc,size⟩ := realloc_grown rec log len off holds small
  unfold AppendInside
  rw [realloc]
  constructor
  · rintro ⟨_,same,room⟩
    cases same
    rw [size,grownBytes] at room
    split at room <;> omega
  · intro fits
    refine ⟨grown,rfl,?_⟩
    rw [size,grownBytes]
    split <;> omega

/-- The model's append is done exactly when it ends inside the block. -/
theorem append_ok_iff (rec : Record) (log : List (List Byte)) (text : List Byte) (off : RecordOffset)
    (holds : Holds rec log) (cursor : Cursor log log.length off) (small : off.byteCount + text.length + 1 < 2^31) :
    (∃ closed next, recordAppend text.length text rec off = .ok (closed,next)) ↔ AppendInside text.length rec off := by
  have offset : off.byteCount = (encode 0 log).length := by rw [cursor.bytes,List.take_length]
  constructor
  · rintro ⟨closed,next,ok⟩
    obtain ⟨grown,realloc,_,room,_⟩ := recordAppend_ok _ _ _ _ _ _ ok
    exact ⟨grown,realloc,room⟩
  · intro inside
    have bounds := holds.bounded
    have fits := (append_inside_iff rec log _ off holds small).mp inside
    match result : recordAppend text.length text rec off with
    | .ok (closed,next) => exact ⟨closed,next,rfl⟩
    -- below 2^31 bytes the reallocation is never refused
    | .error .crash => exact absurd result (append_no_crash rec log text off holds cursor (by omega))
    | .error .fault => exact absurd result (append_inside rec log text off holds cursor fits (by omega))

theorem append_grown (rec closed : Record) (log : List (List Byte)) (text : List Byte) (off next : RecordOffset)
    (holds : Holds rec log) (small : off.byteCount + text.length + 1 < 2^31)
    (ok : recordAppend text.length text rec off = .ok (closed,next)) :
    closed.allocBytes = grownBytes rec.allocBytes (off.byteCount + text.length + 1) ∧
      next.byteCount = off.byteCount + text.length + 1 := by
  obtain ⟨grown,realloc,_,_,_,alloc,_,same⟩ := recordAppend_ok _ _ _ _ _ _ ok
  obtain ⟨other,again,size⟩ := realloc_grown rec log _ off holds small
  cases realloc.symm.trans again
  exact ⟨alloc.trans size,by rw [same]; exact u32_of_lt (by omega)⟩

theorem each_inside_iff (texts log : List (List Byte)) (rec : Record) (off : RecordOffset) (holds : Holds rec log)
    (cursor : Cursor log log.length off) (total : off.byteCount + totalBytes (texts.map List.length) < 2^31) :
    EachInside texts rec off ↔ Fits rec.allocBytes off.byteCount (texts.map List.length) := by
  induction texts generalizing log rec off with
  | nil => exact Iff.rfl
  | cons text texts ih =>
    rw [List.map_cons,totalBytes,List.map_cons,List.sum_cons,← totalBytes] at total
    have small : off.byteCount + text.length + 1 < 2^31 := by omega
    rw [EachInside,List.map_cons,Fits,← append_inside_iff rec log _ off holds small]
    apply and_congr_right
    intro inside
    obtain ⟨closed,next,append⟩ := (append_ok_iff rec log text off holds cursor small).mpr inside
    obtain ⟨holds',cursor'⟩ := append_holds rec closed log text off next holds cursor append
    obtain ⟨alloc,offset⟩ := append_grown rec closed log text off next holds small append
    have later := ih (log ++ [text]) closed next holds' cursor' (by omega)
    rw [alloc,offset] at later
    rw [← later]
    constructor
    · intro behind
      exact behind closed next append
    · intro behind closed' next' ok
      cases append.symm.trans ok
      exact behind

theorem append_all_ok (texts log : List (List Byte)) (rec : Record) (off : RecordOffset) (holds : Holds rec log)
    (cursor : Cursor log log.length off) (total : off.byteCount + totalBytes (texts.map List.length) < 2^31) :
    (∃ closed next, appendAll texts rec off = .ok (closed,next)) ↔ EachInside texts rec off := by
  induction texts generalizing log rec off with
  | nil => exact ⟨fun _ => trivial,fun _ => ⟨rec,off,rfl⟩⟩
  | cons text texts ih =>
    rw [List.map_cons,totalBytes,List.map_cons,List.sum_cons,← totalBytes] at total
    have small : off.byteCount + text.length + 1 < 2^31 := by omega
    have behind (closed : Record) (next : RecordOffset)
        (append : recordAppend text.length text rec off = .ok (closed,next)) :
        (∃ last final, appendAll texts closed next = .ok (last,final)) ↔ EachInside texts closed next := by
      obtain ⟨holds',cursor'⟩ := append_holds rec closed log text off next holds cursor append
      obtain ⟨_,offset⟩ := append_grown rec closed log text off next holds small append
      exact ih (log ++ [text]) closed next holds' cursor' (by omega)
    rw [EachInside,← append_ok_iff rec log text off holds cursor small,appendAll]
    constructor
    · rintro ⟨last,final,ok⟩
      obtain ⟨⟨closed,next⟩,append,rest⟩ := (bind_ok _ _ _).mp ok
      refine ⟨⟨closed,next,append⟩,?_⟩
      intro closed' next' again
      cases append.symm.trans again
      exact (behind closed next append).mp ⟨last,final,rest⟩
    · rintro ⟨⟨closed,next,append⟩,later⟩
      obtain ⟨last,final,rest⟩ := (behind closed next append).mpr (later closed next append)
      refine ⟨last,final,?_⟩
      rw [append,ok_bind]
      exact rest

theorem append_all_holds (texts log : List (List Byte)) (rec closed : Record) (off next : RecordOffset)
    (holds : Holds rec log) (cursor : Cursor log log.length off) (ok : appendAll texts rec off = .ok (closed,next)) :
    Holds closed (log ++ texts) ∧ Cursor (log ++ texts) (log ++ texts).length next := by
  induction texts generalizing log rec off with
  | nil =>
    cases ok
    rw [List.append_nil]
    exact ⟨holds,cursor⟩
  | cons text texts ih =>
    obtain ⟨⟨middle,between⟩,append,rest⟩ := (bind_ok _ _ _).mp ok
    obtain ⟨holds',cursor'⟩ := append_holds rec middle log text off between holds cursor append
    have later := ih (log ++ [text]) middle between holds' cursor' rest
    rwa [List.append_assoc] at later

theorem append_all_append (first second : List (List Byte)) (rec : Record) (off : RecordOffset) :
    appendAll (first ++ second) rec off =
      (appendAll first rec off >>= fun middle => appendAll second middle.1 middle.2) := by
  induction first generalizing rec off with
  | nil => rfl
  | cons text first ih =>
    rw [List.cons_append,appendAll,appendAll]
    cases recordAppend text.length text rec off with
    | error stop => rfl
    | ok closed =>
      rw [ok_bind,ok_bind]
      exact ih closed.1 closed.2

end Appends

section Frames
variable {σ : Type}

def frameImages (library : Library σ) (objects : List Object) (memories : List σ) : List (List Byte) :=
  memories.flatMap fun memory => objects.map (image library memory)

def frameSizes (objects : List Object) (frames : Nat) : List Nat :=
  (List.replicate frames (objects.map fun object => object.bytes)).flatten

theorem frame_images_sizes (library : Library σ) (objects : List Object) (memories : List σ) :
    (frameImages library objects memories).map List.length = frameSizes objects memories.length := by
  induction memories with
  | nil => rfl
  | cons memory memories ih =>
    rw [frameImages,List.flatMap_cons,List.map_append,List.map_map,← frameImages,ih,frameSizes,frameSizes,
      List.length_cons,List.replicate_succ,List.flatten_cons]
    congr 1
    exact List.map_congr_left fun object _ => image_length library memory object

theorem append_objects (library : Library σ) (memory : σ) (objects : List Object) (store stored : RecordRW)
    (rec : Record) (present : store.record = some rec) (ok : appendObjects library memory objects store = .ok stored) :
    ∃ closed next, appendAll (objects.map (image library memory)) rec store.write = .ok (closed,next) ∧
      stored = {store with record := some closed, write := next} := by
  induction objects generalizing store rec with
  | nil =>
    cases ok
    exact ⟨rec,_,rfl,by rw [← present]⟩
  | cons object objects ih =>
    rw [appendObjects,present] at ok
    obtain ⟨⟨closed,next⟩,append,rest⟩ := (bind_ok _ _ _).mp ok
    obtain ⟨last,final,more,same⟩ := ih _ closed rfl rest
    refine ⟨last,final,?_,same⟩
    rw [← image_length library memory object] at append
    rw [List.map_cons,appendAll,append,ok_bind]
    exact more

structure Stored (world : World σ) : Prop where
  objects : world.game.engine.objects = (dlfnOpen world.library).2
  images : ∃ memories closed, world.frameStore.record = some closed ∧
    appendAll (frameImages world.library (dlfnOpen world.library).2 memories) recordAlloc .zero =
      .ok (closed,world.frameStore.write)

theorem stored_start (framerate : UInt8) (calibration : Calibration) (library : Library σ) (world : World σ) :
    Stored (startSession framerate calibration library world) where
  objects := rfl
  images := ⟨[],recordAlloc,rfl,rfl⟩

theorem Stored.synced {world synced : World σ} (stored : Stored world) (tick : Tick) (status : ConnStatus)
    (lines : List (List Byte)) (recorded : Recorded world.input lines) (ok : syncStep tick world = .ok (status,synced)) :
    Stored synced := by
  unfold syncStep at ok
  obtain ⟨middle,gathering,ok⟩ := (bind_ok _ _ _).mp ok
  obtain ⟨_,_,same⟩ := (bind_ok _ _ _).mp ok
  cases same
  obtain ⟨gathered,_⟩ := gather_gathered tick world middle lines recorded gathering
  refine ⟨?_,?_⟩
  · dsimp only
    rw [gathered.engine,gathered.library]
    exact stored.objects
  · dsimp only
    rw [gathered.library,gathered.frameStore]
    exact stored.images

theorem Stored.turned {synced later : World σ} (stored : Stored synced) (tick : Tick) (turn : Turn)
    (turned : Turned tick synced later turn) : Stored later := by
  obtain ⟨game,execute,ends⟩ := turned.executed
  obtain ⟨_,kept⟩ := executeAll_goal synced.library tick.cycles 0 turn.commands synced.game game execute
  have objects : game.engine.objects = (dlfnOpen later.library).2 := by
    rw [kept,turned.library]
    exact stored.objects
  rcases ends with ⟨_,_,same,store,_⟩ | ⟨_,_,simulate,_⟩
  · refine ⟨by rw [same]; exact objects,?_⟩
    rw [store,turned.library]
    exact stored.images
  · obtain ⟨⟨engine,memory,calls⟩,body,rest⟩ := (bind_ok _ _ _).mp simulate
    obtain ⟨store,append,same⟩ := (bind_ok _ _ _).mp rest
    simp only [pure,Except.pure,Except.ok.injEq,Prod.mk.injEq] at same
    have table : engine.objects = (dlfnOpen synced.library).2 := by
      rw [frameBody_objects synced.library tick.unset game.engine engine game.memory memory calls body,kept]
      exact stored.objects
    refine ⟨?_,?_⟩
    · rw [← same.1,turned.library]
      exact table
    · obtain ⟨memories,closed,present,images⟩ := stored.images
      obtain ⟨last,final,more,written⟩ := append_objects synced.library memory engine.objects synced.frameStore store closed
        present append
      refine ⟨memories ++ [memory],last,?_,?_⟩
      · rw [← same.2,written]
      · rw [← same.2,written,turned.library,frameImages,List.flatMap_append,← frameImages,append_all_append,images,ok_bind,
          List.flatMap_singleton,← table]
        exact more

/-- What a process has recorded of a session is a run of appends to a new record. -/
theorem process_stored (framerate : UInt8) (ep : EndPoint) (incoming keyboard : List Byte) (world : World σ)
    (log : SessionLog σ) (past : List (SessionLog σ))
    (process : Process framerate ep incoming keyboard world log past) : Stored world := by
  induction process with
  | boot library calibration world opened =>
    subst opened
    exact stored_start framerate calibration library _
  | iterate world synced later log past tick status turn process running sync step ih =>
    obtain ⟨lines,answers,run⟩ := process_run framerate ep incoming keyboard world log past process
    obtain ⟨recorded,_,_⟩ := run_sends lines answers _ _ run
    have stored := ih.synced tick status lines recorded sync
    rcases advance_cases tick status synced later turn step with ⟨_,idle⟩ | ⟨taken,_,_,turned⟩
    · refine ⟨?_,?_⟩
      · rw [idle.game,idle.library]
        exact stored.objects
      · rw [idle.library,idle.frameStore]
        exact stored.images
    · exact stored.turned tick taken turned
  | reload world opened log past library calibration process stopped stays started ih =>
    subst started
    exact stored_start framerate calibration library _

/-- Whatever the frames' images are, each append of a session ends inside its block
exactly when the sizes fit, and what was appended is then inside the block. -/
theorem frames_inside_iff (library : Library σ) (memories : List σ)
    (total : totalBytes (frameSizes (dlfnOpen library).2 memories.length) < 2^31) :
    (EachInside (frameImages library (dlfnOpen library).2 memories) recordAlloc .zero ↔
      Fits 4096 0 (frameSizes (dlfnOpen library).2 memories.length)) ∧
    ((∃ closed next, appendAll (frameImages library (dlfnOpen library).2 memories) recordAlloc .zero =
        .ok (closed,next)) ↔ EachInside (frameImages library (dlfnOpen library).2 memories) recordAlloc .zero) ∧
    ∀ closed next, appendAll (frameImages library (dlfnOpen library).2 memories) recordAlloc .zero = .ok (closed,next) →
      closed.usedBytes = next.byteCount ∧ closed.usedBytes ≤ closed.allocBytes := by
  rw [← frame_images_sizes library] at total ⊢
  rw [← Nat.zero_add (totalBytes _)] at total
  refine ⟨each_inside_iff _ [] recordAlloc .zero holds_alloc (cursor_zero []) total,
    append_all_ok _ [] recordAlloc .zero holds_alloc (cursor_zero []) total,?_⟩
  intro closed next ok
  obtain ⟨holds,cursor⟩ := append_all_holds _ [] recordAlloc closed .zero next holds_alloc (cursor_zero []) ok
  have written := cursor.bytes
  rw [List.take_length,← holds.used] at written
  exact ⟨written.symm,holds.bounded.1⟩

theorem fits_small (allocBytes usedBytes : Nat) (sizes : List Nat) (inside : usedBytes ≤ allocBytes)
    (small : ∀ bytes ∈ sizes, bytes + 1 ≤ allocBytes) : Fits allocBytes usedBytes sizes := by
  induction sizes generalizing allocBytes usedBytes with
  | nil => trivial
  | cons bytes later ih =>
    have first := small bytes List.mem_cons_self
    have grows : allocBytes ≤ grownBytes allocBytes (usedBytes + bytes + 1) := by
      unfold grownBytes
      split <;> omega
    refine ⟨by omega,ih _ _ ?_ ?_⟩
    · unfold grownBytes
      split <;> omega
    · intro other member
      exact Nat.le_trans (small other (List.mem_cons_of_mem _ member)) grows

def objectLibrary (bytes : Nat) : Library Unit where
  symbols := [⟨[111],.object,true,4096,bytes⟩]
  init := ()
  call := fun _ _ _ => ((),0)
  byte := fun _ _ => 0

theorem object_library_objects (bytes : Nat) (some_bytes : bytes ≠ 0) :
    (dlfnOpen (objectLibrary bytes)).2 = [⟨[111],4096,bytes⟩] := by
  simp [dlfnOpen,objectLibrary,sortObjects,parseObjects,exported,maxSymbols,some_bytes]

theorem frames_inside_small :
    EachInside (frameImages (objectLibrary 4) (dlfnOpen (objectLibrary 4)).2 [(),()]) recordAlloc .zero := by
  have sizes : frameSizes (dlfnOpen (objectLibrary 4)).2 [(),()].length = [4,4] := by
    rw [object_library_objects 4 (by decide)]
    rfl
  apply (frames_inside_iff (objectLibrary 4) [(),()] (by rw [sizes]; decide)).1.mpr
  rw [sizes]
  exact fits_small 4096 0 [4,4] (by decide) (by decide)

/-- The first frame of an object of 10000 bytes: the block is doubled once, to 8192 bytes. -/
theorem large_object_outside : totalBytes (frameSizes (dlfnOpen (objectLibrary 10000)).2 1) < 2^31 ∧
    ¬ EachInside (frameImages (objectLibrary 10000) (dlfnOpen (objectLibrary 10000)).2 [()]) recordAlloc .zero := by
  rw [object_library_objects 10000 (by decide)]
  refine ⟨by decide,?_⟩
  intro inside
  have size : (image (objectLibrary 10000) () ⟨[111],4096,10000⟩).length = 10000 := image_length _ _ _
  have first := (append_inside_iff recordAlloc [] _ .zero holds_alloc (by rw [size]; decide)).mp inside.1
  rw [size] at first
  exact absurd first (by decide)

end Frames

end Craftsman.FrameStore
