import Craftsman.Notify
import Craftsman.Progress

/-! The reload on a file change. A session sets up its watch before it opens the
library, so a build that comes after the opening leaves an event in the queue, and
the event that is handled ends the session. -/
namespace Craftsman.HotReload
open Craftsman.Memory Craftsman.Network Craftsman.Client Craftsman.Dlfn Craftsman.GameLoop Craftsman.Simulation
open Craftsman.Iteration Craftsman.Notify

section Halting
variable {σ : Type}

theorem Gathered.halted {world later : World σ} (gathered : Gathered world later) (stopped : world.loop.running = false) :
    later.loop.running = false := by
  rcases gathered.goal with ⟨_,running⟩ | ⟨_,running⟩
  · rw [running,stopped]
  · exact running

theorem fill_kept (target fuel : Nat) (world later : World σ) (ok : fillInput target fuel world = .ok later) :
    Gathered world later := by
  induction fuel generalizing world with
  | zero =>
    cases ok
    exact .refl _
  | succ fuel ih =>
    unfold fillInput at ok
    split at ok
    · obtain ⟨middle,append,rest⟩ := (bind_ok _ _ _).mp ok
      exact (append_gathered [] world middle List.not_mem_nil append).trans (ih middle rest)
    · cases ok
      exact .refl _

theorem changed_halts (names : List (List Byte)) (world : World σ) (name : List Byte) (member : name ∈ names)
    (mine : strstr dlpath name = true) : (names.foldl notifyCallback world).loop.running = false := by
  obtain ⟨before,after,rfl⟩ := List.append_of_mem member
  rw [List.foldl_append,List.foldl_cons]
  apply Gathered.halted (notify_gathered after _)
  rw [notifyCallback,if_pos mine]
  rfl

theorem gather_kept (tick : Tick) (world later : World σ) (ok : gather tick world = .ok later) :
    Gathered (tick.changed.foldl notifyCallback world) later := by
  unfold gather at ok
  obtain ⟨middle,polled,rest⟩ := (bind_ok _ _ _).mp ok
  exact (poll_gathered tick _ middle polled).trans (fill_kept _ _ middle later rest)

/-- An iteration keeps the library, and a loop that a changed file halts stays halted. -/
theorem iterate_halts (tick : Tick) (world synced later : World σ) (status : ConnStatus) (turn : Option Turn)
    (sync : syncStep tick world = .ok (status,synced)) (step : advance tick status synced = .ok (some (later,turn))) :
    later.library = world.library ∧
      ∀ name ∈ tick.changed, strstr dlpath name = true → later.loop.running = false := by
  unfold syncStep at sync
  obtain ⟨middle,gathering,sync⟩ := (bind_ok _ _ _).mp sync
  obtain ⟨⟨status',conn,wires,input,gameRecord⟩,_,same⟩ := (bind_ok _ _ _).mp sync
  cases same
  have gathered := gather_kept tick world middle gathering
  have library : middle.library = world.library := gathered.library.trans (notify_gathered tick.changed world).library
  have halted (name : List Byte) (member : name ∈ tick.changed) (mine : strstr dlpath name = true) :
      middle.loop.running = false := Gathered.halted gathered (changed_halts _ world name member mine)
  rcases advance_cases tick status _ later turn step with ⟨_,idle⟩ | ⟨_,_,_,turned⟩
  · refine ⟨idle.library.trans library,?_⟩
    intro name member mine
    by_contra again
    have running := idle.running (by simpa using again)
    rw [halted name member mine] at running
    cases running
  · exact ⟨turned.library.trans library,fun name member mine => turned.running.trans (halted name member mine)⟩

end Halting

section Runs
variable {σ : Type}

/-- What happens in the watched directory: a new build of the library, or anything else. -/
inductive Change (σ : Type) where
  | rebuilt (library : Library σ) (event : InotifyEvent) (named : event.text = Progress.featureName)
  | other (event : InotifyEvent)

def Change.event : Change σ → InotifyEvent
  | .rebuilt _ event _ => event
  | .other event => event

/-- An event that repeats the last one in the queue is not queued again. -/
def enqueue (queue : List InotifyEvent) (event : InotifyEvent) : List InotifyEvent :=
  if queue.getLast?.map InotifyEvent.fields = some event.fields then queue else queue ++ [event]

/-- The process, the watch of its session, the events that wait there, and the library on disk. -/
structure Desk (σ : Type) where
  world : World σ
  watch : Watch
  watched : Bool
  queue : List InotifyEvent
  disk : Library σ

def Desk.change (desk : Desk σ) (change : Change σ) : Desk σ :=
  {desk with
    queue := if desk.watched then enqueue desk.queue change.event else desk.queue
    disk := match change with
      | .rebuilt library _ _ => library
      | .other _ => desk.disk}

/-- `game_simulation` up to its loop: the watch is set up, the directory changes,
and only then the library is opened. -/
def Desk.start (desk : Desk σ) (framerate : UInt8) (calibration : Calibration) (setup : Setup)
    (changes : List (Change σ)) : Desk σ :=
  let watching := {desk with
    watch := (notifyInit setup 1 desk.watch).2.1
    watched := (notifyInit setup 1 desk.watch).1
    queue := []}
  let changed := changes.foldl Desk.change watching
  {changed with world := startSession framerate calibration changed.disk changed.world}

/-- The runs of a process next to a directory in which anything changes at any time. -/
inductive Reloading (framerate : UInt8) (ep : EndPoint) (incoming keyboard : List Byte) :
    Desk σ → SessionLog σ → List (SessionLog σ) → Prop
  | boot (library : Library σ) (desk : Desk σ) (calibration : Calibration) (setup : Setup) (changes : List (Change σ))
      (opened : desk = Desk.start ⟨.boot library ep incoming keyboard,.boot,false,[],library⟩ framerate calibration setup
        changes) :
      Reloading framerate ep incoming keyboard desk (.start desk.world) []
  | change (desk : Desk σ) (log : SessionLog σ) (past : List (SessionLog σ)) (change : Change σ)
      (run : Reloading framerate ep incoming keyboard desk log past) :
      Reloading framerate ep incoming keyboard (desk.change change) log past
  | iterate (desk : Desk σ) (synced later : World σ) (log : SessionLog σ) (past : List (SessionLog σ)) (tick : Tick)
      (status : ConnStatus) (turn : Option Turn) (ready : Ready) (reads : Nat → NotifyRead) (result : Bool)
      (last : Watch) (after : Queues) (calls : Calls) (run : Reloading framerate ep incoming keyboard desk log past)
      (running : desk.world.loop.running = true)
      (poll : notifyPoll desk.watch (Function.update (fun _ => []) 0 desk.queue) ready reads =
        .ok (result,last,after,calls))
      (names : List.Forall₂ (fun call name => nameAt call.2 = .ok name) calls tick.changed)
      (sync : syncStep tick desk.world = .ok (status,synced))
      (step : advance tick status synced = .ok (some (later,turn))) :
      Reloading framerate ep incoming keyboard {desk with world := later, watch := last, queue := after 0}
        (log.after status desk.world synced later turn) past
  | reload (desk opened : Desk σ) (watch : Watch) (closes : List Int) (log : SessionLog σ) (past : List (SessionLog σ))
      (calibration : Calibration) (setup : Setup) (changes : List (Change σ))
      (run : Reloading framerate ep incoming keyboard desk log past) (stopped : desk.world.loop.running = false)
      (stays : desk.world.exiting = false) (shut : notifyShutdown desk.watch = .ok (watch,closes))
      (started : opened = Desk.start {desk with world := endSession desk.world, watch := watch, watched := false} framerate
        calibration setup changes) :
      Reloading framerate ep incoming keyboard opened (.start opened.world) (past ++ [log])

variable {framerate : UInt8} {ep : EndPoint} {incoming keyboard : List Byte} {desk : Desk σ} {log : SessionLog σ}
  {past : List (SessionLog σ)}

theorem changes_world (changes : List (Change σ)) (desk : Desk σ) :
    (changes.foldl Desk.change desk).world = desk.world := by
  induction changes generalizing desk with
  | nil => rfl
  | cons change changes ih =>
    rw [List.foldl_cons,ih]
    rfl

/-- Seen without its directory, the process is one that a library is handed at each reload. -/
theorem reloading_process (run : Reloading framerate ep incoming keyboard desk log past) :
    Process framerate ep incoming keyboard desk.world log past := by
  induction run with
  | boot library desk calibration setup changes opened =>
    subst opened
    apply Process.boot (changes.foldl Desk.change _).disk calibration _
    dsimp only [Desk.start]
    rw [changes_world]
    rfl
  | change desk log past change run ih => exact ih
  | iterate desk synced later log past tick status turn ready reads result last after calls run running poll names sync
      step ih => exact .iterate _ synced later log past tick status turn ih running sync step
  | reload desk opened watch closes log past calibration setup changes run stopped stays shut started ih =>
    subst started
    apply Process.reload _ _ log past (changes.foldl Desk.change _).disk calibration ih stopped stays
    dsimp only [Desk.start]
    rw [changes_world]

def Rebuilt (event : InotifyEvent) : Prop := event.name ≠ [] ∧ event.text = Progress.featureName

/-- The library that is loaded is the newest, or an event that names it waits. -/
def Fresh (desk : Desk σ) : Prop := desk.world.library = desk.disk ∨ ∃ event ∈ desk.queue, Rebuilt event

theorem rebuilt_named (event : InotifyEvent) (named : event.text = Progress.featureName) : Rebuilt event := by
  refine ⟨?_,named⟩
  intro empty
  rw [InotifyEvent.text,empty] at named
  cases named

theorem enqueue_keeps (queue : List InotifyEvent) (event other : InotifyEvent) (member : other ∈ queue) :
    other ∈ enqueue queue event := by
  unfold enqueue
  split
  · exact member
  · exact List.mem_append_left _ member

/-- An event that is not queued again finds its double at the end of the queue. -/
theorem enqueue_rebuilt (queue : List InotifyEvent) (event : InotifyEvent) (rebuilt : Rebuilt event) :
    ∃ waiting ∈ enqueue queue event, Rebuilt waiting := by
  unfold enqueue
  split
  · next double =>
    obtain ⟨last,found,same⟩ := Option.map_eq_some_iff.mp double
    have name : last.name = event.name := congrArg (fun fields => fields.2.2.2) same
    refine ⟨last,List.mem_of_getLast? found,?_⟩
    rw [Rebuilt,InotifyEvent.text,name]
    exact rebuilt
  · exact ⟨event,List.mem_append_right _ (List.mem_singleton_self event),rebuilt⟩

theorem Fresh.change (fresh : Fresh desk) (watched : desk.watched = true) (change : Change σ) :
    Fresh (desk.change change) := by
  unfold Fresh Desk.change
  dsimp only
  rw [if_pos watched]
  cases change with
  | rebuilt library event named => exact .inr (enqueue_rebuilt desk.queue event (rebuilt_named event named))
  | other event =>
    rcases fresh with newest | ⟨waiting,member,rebuilt⟩
    · exact .inl newest
    · exact .inr ⟨waiting,enqueue_keeps _ _ _ member,rebuilt⟩

theorem start_fresh (desk : Desk σ) (calibration : Calibration) (setup : Setup) (changes : List (Change σ)) :
    Fresh (desk.start framerate calibration setup changes) := .inl rfl

/-- The handler is called with the name of every event that leaves the queue. -/
theorem handled_named (watch last : Watch) (queue : List InotifyEvent) (ready : Ready) (reads : Nat → NotifyRead)
    (result : Bool) (after : Queues) (calls : Calls) (changed : List (List Byte)) (event : InotifyEvent)
    (poll : notifyPoll watch (Function.update (fun _ => []) 0 queue) ready reads = .ok (result,last,after,calls))
    (names : List.Forall₂ (fun call name => nameAt call.2 = .ok name) calls changed) (member : event ∈ queue)
    (named : event.name ≠ []) : event ∈ after 0 ∨ event.text ∈ changed := by
  obtain ⟨_,_,_,_,again,_,_,_,handed⟩ := notifyPoll_polled watch (Function.update (fun _ => []) 0 queue) ready reads
  cases poll.symm.trans again
  obtain ⟨events,split,shown⟩ := handed 0
  rw [Function.update_self] at split
  rw [← split,List.mem_append] at member
  rcases member with taken | waits
  · refine .inr ?_
    obtain ⟨j,inside,rfl⟩ := List.mem_iff_getElem.mp taken
    have called : j < (callsOf 0 calls).length := shown.length_eq ▸ inside
    have shows := shown.get called inside
    have memory : (callsOf 0 calls)[j] ∈ callsOf 0 calls := List.getElem_mem called
    obtain ⟨call,listed,same⟩ := List.mem_map.mp memory
    obtain ⟨k,here,found⟩ := List.mem_iff_getElem.mp (List.mem_of_mem_filter listed)
    have read := names.get here (names.length_eq ▸ here)
    rw [List.get_eq_getElem,List.get_eq_getElem] at shows read
    rw [found,same,shows_name _ _ shows named] at read
    rw [Except.ok.inj read]
    exact List.getElem_mem _
  · exact .inl waits

theorem Fresh.iterate (fresh : Fresh desk) (synced later : World σ) (tick : Tick) (status : ConnStatus)
    (turn : Option Turn) (ready : Ready) (reads : Nat → NotifyRead) (result : Bool) (last : Watch) (after : Queues)
    (calls : Calls)
    (poll : notifyPoll desk.watch (Function.update (fun _ => []) 0 desk.queue) ready reads =
      .ok (result,last,after,calls))
    (names : List.Forall₂ (fun call name => nameAt call.2 = .ok name) calls tick.changed)
    (sync : syncStep tick desk.world = .ok (status,synced))
    (step : advance tick status synced = .ok (some (later,turn))) (again : later.loop.running = true) :
    Fresh {desk with world := later, watch := last, queue := after 0} := by
  obtain ⟨kept,halts⟩ := iterate_halts tick desk.world synced later status turn sync step
  rcases fresh with newest | ⟨event,member,named,text⟩
  · exact .inl (kept.trans newest)
  · rcases handled_named _ _ _ _ _ _ _ _ _ event poll names member named with waits | handled
    · exact .inr ⟨event,waits,named,text⟩
    · have stopped := halts event.text handled (by rw [text]; decide)
      rw [stopped] at again
      cases again

/-- While a session that could set up its watch runs, the library it has loaded is the
newest, or an event of a newer build is waiting for a poll: whenever the directory
changes, between the watch and the opening too, no build is missed. -/
theorem builds_followed (framerate : UInt8) (ep : EndPoint) (incoming keyboard : List Byte) (desk : Desk σ)
    (log : SessionLog σ) (past : List (SessionLog σ))
    (run : Reloading framerate ep incoming keyboard desk log past) :
    Process framerate ep incoming keyboard desk.world log past ∧
      (desk.world.loop.running = true → desk.watched = true → Fresh desk) := by
  refine ⟨reloading_process run,?_⟩
  induction run with
  | boot library desk calibration setup changes opened =>
    subst opened
    exact fun _ _ => start_fresh _ calibration setup changes
  | change desk log past change run ih => exact fun running watched => Fresh.change (ih running watched) watched change
  | iterate desk synced later log past tick status turn ready reads result last after calls run running poll names sync
      step ih =>
    intro again watched
    exact (ih running watched).iterate synced later tick status turn ready reads result last after calls poll names sync
      step again
  | reload desk opened watch closes log past calibration setup changes run stopped stays shut started ih =>
    subst started
    exact fun _ _ => start_fresh _ calibration setup changes

def emptyLibrary : Library Unit := {sumLibrary with symbols := []}

theorem rebuilt_waits : ∃ (desk : Desk Unit) (log : SessionLog Unit),
    Reloading 1 endpointFromFd [] [] desk log [] ∧ desk.world.loop.running = true ∧ desk.watched = true ∧
      desk.world.library ≠ desk.disk ∧ Process 1 endpointFromFd [] [] desk.world log [] ∧
      (desk.world.loop.running = true → desk.watched = true → Fresh desk) := by
  let start : Desk Unit := ⟨.boot sumLibrary endpointFromFd [] [],.boot,false,[],sumLibrary⟩
  have opened : Reloading 1 endpointFromFd [] [] (start.start 1 ⟨1,0,0⟩ goodSetup []) _ _ :=
    .boot sumLibrary _ ⟨1,0,0⟩ goodSetup [] rfl
  have rebuilt := Reloading.change _ _ _ (.rebuilt emptyLibrary featureEvent (by decide)) opened
  refine ⟨_,_,rebuilt,rfl,rfl,?_,builds_followed 1 endpointFromFd [] [] _ _ _ rebuilt⟩
  intro same
  have symbols : sumLibrary.symbols = [] := congrArg Library.symbols same
  cases symbols

end Runs

end Craftsman.HotReload
