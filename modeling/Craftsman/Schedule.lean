import Craftsman.Lockstep

/-! The schedule of the turns. Which frame a turn runs at, and whether a frame is
simulated behind it, follows from the players' commands alone: arrivals, stalls,
clocks and the library do not matter. -/
namespace Craftsman.Schedule
open Craftsman.Memory Craftsman.Recording Craftsman.CommandLog Craftsman.Network Craftsman.Client
open Craftsman.Frames Craftsman.Demultiplex Craftsman.Dlfn Craftsman.Execute Craftsman.Simulation
open Craftsman.Iteration Craftsman.Progress Craftsman.Lockstep Craftsman.Stream.Rounds

section Counters
variable {σ σ' : Type}

structure SameCounters (first : Shared σ) (second : Shared σ') : Prop where
  frame : first.frame = second.frame
  pause : first.pauseFrame = second.pauseFrame
  goal : first.game.simulationGoal = second.game.simulationGoal

theorem counters_forced (library : Library σ) (library' : Library σ') (a b : Turn) (s s' : Shared σ) (t t' : Shared σ')
    (same : SameCounters s t) (commands : a.commands = b.commands) (left : Played library a s s')
    (right : Played library' b t t') : SameCounters s' t' ∧ a = b := by
  obtain ⟨frame,pause,cycles,game,execute,outcome⟩ := left
  obtain ⟨frame',pause',cycles',game',execute',outcome'⟩ := right
  have at_frame : a.frame = b.frame := by rw [← frame,← frame',same.frame]
  have at_pause : a.pauseFrame = b.pauseFrame := by rw [← pause,← pause',same.pause]
  have goal : game.simulationGoal = game'.simulationGoal := by
    rw [(executeAll_goal _ _ _ _ _ _ execute).1,(executeAll_goal _ _ _ _ _ _ execute').1,same.goal,commands]
  have equal (kind : a.simulated = b.simulated) : a = b := by
    rcases a with ⟨_,_,_,_⟩
    rcases b with ⟨_,_,_,_⟩
    cases at_frame
    cases at_pause
    cases commands
    cases kind
    rfl
  rcases outcome with ⟨reached,kind,after⟩ | ⟨below,kind,_,_,_,_,_,after⟩
  · rcases outcome' with ⟨_,kind',after'⟩ | ⟨below',_⟩
    · subst after after'
      exact ⟨⟨at_frame,congrArg (fun pause => u32 (pause + 1)) at_pause,goal⟩,equal (kind.trans kind'.symm)⟩
    · omega
  · rcases outcome' with ⟨reached',_⟩ | ⟨_,kind',_,_,_,_,_,after'⟩
    · omega
    · subst after after'
      exact ⟨⟨congrArg (fun frame => u32 (frame + 1)) at_frame,at_pause,goal⟩,equal (kind.trans kind'.symm)⟩

/-- Two runs that nothing but the schedule reached, whose players' records extend
one another: the turns of the shorter run are the first turns of the longer one. -/
theorem schedule_prefix (framerate framerate' : UInt8) (ep ep' : EndPoint) (frames frames' : List Frame)
    (keyboard keyboard' : List Byte) (world : World σ) (world' : World σ') (log : SessionLog σ) (log' : SessionLog σ')
    (past : List (SessionLog σ)) (past' : List (SessionLog σ'))
    (process : Process framerate ep (wire frames) keyboard world log past)
    (process' : Process framerate' ep' (wire frames') keyboard' world' log' past')
    (quiet : log.interrupted = false) (quiet' : log'.interrupted = false)
    (samePlayers : log.playerCount = log'.playerCount)
    (compatible : ∀ i ∈ players log.playerCount, ∃ recorded recorded', commands (world.gameRecord i) = .ok recorded ∧
      commands (world'.gameRecord i) = .ok recorded' ∧ (recorded <+: recorded' ∨ recorded' <+: recorded))
    (shorter : log.turns.length ≤ log'.turns.length) : log.turns <+: log'.turns := by
  obtain ⟨_,done,_,_,_,head⟩ := process_head framerate ep frames keyboard world log past process
  obtain ⟨_,done',_,_,_,head'⟩ := process_head framerate' ep' frames' keyboard' world' log' past' process'
  have together : Compatible (players log.playerCount) (fun i => texts i done) (fun i => texts i done') := by
    intro i member
    obtain ⟨recorded,recorded',read,read',before⟩ := compatible i member
    rw [commands_written _ _ (head.accounted.demux.written i) (texts_free i done)] at read
    rw [commands_written _ _ (head'.accounted.demux.written i) (texts_free i done')] at read'
    cases read
    cases read'
    exact before
  have driven (j : Nat) (inside : j < log.turns.length) :
      (log.turns[j]?).map Turn.commands = (log'.turns[j]?).map Turn.commands := by
    have inside' : j < log'.turns.length := inside.trans_le shorter
    rw [List.getElem?_eq_getElem inside,List.getElem?_eq_getElem inside',Option.map_some,Option.map_some,
      head.logged.rows j _ (List.getElem?_eq_getElem inside),head'.logged.rows j _ (List.getElem?_eq_getElem inside'),
      ← samePlayers]
    have covers' := head'.logged.covers
    rw [← samePlayers] at covers'
    exact congrArg some (row_agree _ _ _ j together (fun i member => inside.trans_le (head.logged.covers i member))
      (fun i member => inside'.trans_le (covers' i member)))
  have chain := head.logged.chain
  have chain' := head'.logged.chain
  rw [head.whole quiet] at chain
  rw [head'.whole quiet'] at chain'
  obtain ⟨_,start⟩ := head.logged.start
  obtain ⟨_,start'⟩ := head'.logged.start
  have agree := chain_agree _ _ Turn.commands SameCounters
    (fun a b s s' t t' same commands left right =>
      counters_forced log.library log'.library a b s s' t t' same commands left right)
    log.turns log'.turns log.states log'.states log.turns.length chain
    (fun j inside => chain' j (inside.trans_le shorter))
    (by
      intro s t first first'
      rw [start] at first
      rw [start'] at first'
      cases first
      cases first'
      exact ⟨rfl,rfl,rfl⟩)
    driven log.turns.length (Nat.le_refl _)
  exact prefix_of_entries _ _ agree.2

theorem schedule_prefix_letter : ∃ (world world' : World Unit) (log log' : SessionLog Unit)
    (past past' : List (SessionLog Unit)), Process 1 endpointFromFd (wire [letterFrame]) [] world log past ∧
      Process 1 endpointFromFd (wire [letterFrame]) [] world' log' past' ∧ log.turns = [⟨0,0,[[65]],false⟩] ∧
      log.turns <+: log'.turns := by
  obtain ⟨world,log,_,past,process,_,_,_,_,alone,_,turns,_,_,quiet,_,_,_,recorded⟩ := letter_process ⟨1,0,0⟩
  obtain ⟨world',log',_,past',process',_,_,_,_,alone',_,turns',_,_,quiet',_,_,_,recorded'⟩ := letter_process ⟨2,5,0⟩
  refine ⟨world,world',log,log',past,past',process,process',turns,?_⟩
  exact schedule_prefix 1 1 endpointFromFd endpointFromFd [letterFrame] [letterFrame] [] [] world world' log log'
    past past' process process' quiet quiet' (alone.trans alone'.symm)
    (fun i _ => ⟨_,_,recorded i,recorded' i,.inl (List.prefix_refl _)⟩) (by rw [turns,turns'])

end Counters

end Craftsman.Schedule
