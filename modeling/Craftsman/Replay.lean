import Craftsman.Schedule
import Craftsman.Timing
import Craftsman.TypedVariables

/-! Replays. After a reload the records are read from the start again, and every
turn goes as before; what the earlier sessions leave behind are the variables
and the handles of the stored results. -/
namespace Craftsman.Replay
open Craftsman.Memory Craftsman.Recording Craftsman.CommandLog Craftsman.Network Craftsman.Client
open Craftsman.Text Craftsman.Frames Craftsman.Global Craftsman.Dlfn Craftsman.Execute Craftsman.Simulation
open Craftsman.Iteration Craftsman.Progress Craftsman.Lockstep Craftsman.Schedule Craftsman.Stream.Rounds
open Craftsman.TypedVariables (OpsDefined globalVarOps_defined)
open Craftsman.Timing (executeAny_timeless)

section Turns
variable {σ : Type} (library : Library σ)

def Timeless : List (List Byte) → Game σ → Prop
  | [],_ => True
  | text::later,game =>
    (firstByte text = 98 → ∀ cycles cycles', executeBenchmark library game.engine.functions cycles game.memory =
      executeBenchmark library game.engine.functions cycles' game.memory) ∧
    ∀ cycles next, executeAny library cycles game text = .ok next → Timeless later next

theorem executeAll_timeless (cycles cycles' : Nat → Nat → Nat → Nat → UInt64) (i : Nat) (texts : List (List Byte))
    (game : Game σ) (timeless : Timeless library texts game) :
    executeAll library cycles i texts game = executeAll library cycles' i texts game := by
  induction texts generalizing i game with
  | nil => rfl
  | cons text texts ih =>
    obtain ⟨here,later⟩ := timeless
    have first := executeAny_timeless library (cycles i) (cycles' i) game text fun benchmark =>
      here benchmark (cycles i) (cycles' i)
    rw [executeAll,executeAll,first]
    cases next : executeAny library (cycles' i) game text with
    | error stop => rw [error_bind,error_bind]
    | ok after =>
      rw [ok_bind,ok_bind]
      exact ih (i+1) after (later (cycles' i) after next)

/-- A turn that neither a clock nor an unwritten result can reach. -/
structure Benign (turn : Turn) (before : Shared σ) : Prop where
  timeless : Timeless library turn.commands before.game
  defined : turn.simulated = true → ∀ cycles game,
    executeAll library cycles 0 turn.commands before.game = .ok game → OpsDefined game.engine.globals

theorem played_forced (a b : Turn) (before after after' : Shared σ) (commands : a.commands = b.commands)
    (left : Played library a before after) (benign : Benign library a before) (right : Played library b before after') :
    after = after' ∧ a = b := by
  obtain ⟨_,rfl⟩ := counters_forced library library a b before after before after' ⟨rfl,rfl,rfl⟩ commands left right
  refine ⟨?_,rfl⟩
  obtain ⟨_,_,cycles,game,execute,outcome⟩ := left
  obtain ⟨_,_,cycles',game',execute',outcome'⟩ := right
  rw [executeAll_timeless library cycles' cycles 0 a.commands before.game benign.timeless,execute] at execute'
  cases execute'
  rcases outcome with ⟨reached,_,same⟩ | ⟨below,kind,unset,engine,memory,calls,body,same⟩
  · rcases outcome' with ⟨_,_,same'⟩ | ⟨below',_⟩
    · rw [same,same']
    · omega
  · rcases outcome' with ⟨reached',_⟩ | ⟨_,_,unset',engine',memory',calls',body',same'⟩
    · omega
    · have defined := benign.defined kind cycles game execute
      unfold frameBody at body body'
      rw [globalVarOps_defined unset _ defined] at body
      rw [globalVarOps_defined unset' _ defined,body] at body'
      cases body'
      rw [same,same']

theorem filler_benign (before : Shared σ) : Benign library ⟨0,0,[[]],false⟩ before where
  timeless := ⟨fun benchmark => absurd benchmark (by decide),fun _ _ _ => trivial⟩
  defined := fun simulated => absurd simulated Bool.false_ne_true

end Turns

section Sessions
variable {σ : Type}

/-- What a session starts with and does not reset. -/
def tables (log : SessionLog σ) : Option (List Variable × (Nat → Int)) :=
  log.states[0]?.map fun start => (start.game.engine.globals,start.game.engine.saveResultHandle)

theorem openSession_tables (library : Library σ) (engine engine' : Engine) (globals : engine.globals = engine'.globals)
    (handles : engine.saveResultHandle = engine'.saveResultHandle) :
    openSession library engine = openSession library engine' := by
  unfold openSession executeInit
  rw [globals,handles]

/-- Two sessions with libraries that open and play alike go through the same states
under the same commands when they start with the same tables. -/
theorem sessions_agree (earlier log : SessionLog σ) (done done' : List Frame) (logged : Logged earlier done)
    (logged' : Logged log done') (opens : ∀ engine, openSession log.library engine = openSession earlier.library engine)
    (init : log.library.init = earlier.library.init)
    (plays : ∀ turn before after, Played log.library turn before after → Played earlier.library turn before after)
    (same : tables earlier = tables log) (n : Nat) (calm : n ≤ earlier.calm) (calm' : n ≤ log.calm)
    (driven : ∀ j < n, (earlier.turns[j]?).map Turn.commands = (log.turns[j]?).map Turn.commands)
    (benign : ∀ j < n, ∀ turn before, earlier.turns[j]? = some turn → earlier.states[j]? = some before →
      Benign earlier.library turn before) (k : Nat) (inside : k ≤ n) : earlier.states[k]? = log.states[k]? := by
  obtain ⟨engine,start⟩ := logged.start
  obtain ⟨engine',start'⟩ := logged'.start
  rw [tables,tables,start,start',Option.map_some,Option.map_some,Option.some_inj,Prod.mk.injEq] at same
  have opened := openSession_tables earlier.library engine engine' same.1 same.2
  have first : earlier.states[0]? = log.states[0]? := by rw [start,start',opens,opened,init]
  have left : Chain (fun turn before after => Played earlier.library turn before after ∧ Benign earlier.library turn before)
      earlier.turns earlier.states n := by
    intro j early
    obtain ⟨turn,before,after,entry,found,found',played⟩ := logged.chain j (early.trans_le calm)
    exact ⟨turn,before,after,entry,found,found',played,benign j early turn before entry found⟩
  have right : Chain (Played earlier.library) log.turns log.states n := by
    intro j early
    obtain ⟨turn,before,after,entry,found,found',played⟩ := logged'.chain j (early.trans_le calm')
    exact ⟨turn,before,after,entry,found,found',plays turn before after played⟩
  cases k with
  | zero => exact first
  | succ k =>
    have agree := chain_agree _ _ Turn.commands Eq
      (by
        intro a b before after before' after' same commands played again
        subst same
        exact played_forced earlier.library a b before after after' commands played.1 played.2 again)
      earlier.turns log.turns earlier.states log.states n left right
      (by
        intro s t here here'
        rw [first,here'] at here
        exact (Option.some.inj here).symm)
      driven (k + 1) inside
    obtain ⟨_,_,after,_,_,found,_⟩ := left k inside
    obtain ⟨_,_,after',_,_,found',_⟩ := right k inside
    rw [found,found',agree.1 after after' found found']

/-- A replay goes through the states of the earlier session if and only if it
starts with the variables and the handles that the earlier session started with. -/
theorem replay_iff (framerate : UInt8) (ep : EndPoint) (frames : List Frame) (keyboard : List Byte) (world : World σ)
    (log earlier : SessionLog σ) (past : List (SessionLog σ))
    (process : Process framerate ep (wire frames) keyboard world log past) (member : earlier ∈ past)
    (library : earlier.library = log.library) (samePlayers : earlier.playerCount = log.playerCount) (n : Nat)
    (calm : n ≤ earlier.calm) (calm' : n ≤ log.calm)
    (benign : ∀ j < n, ∀ turn before, earlier.turns[j]? = some turn → earlier.states[j]? = some before →
      Benign log.library turn before) :
    (∀ k ≤ n, earlier.states[k]? = log.states[k]?) ↔ tables earlier = tables log := by
  obtain ⟨_,done,_,_,_,head⟩ := process_head framerate ep frames keyboard world log past process
  have logged := head.past earlier member
  have replayed := head.logged
  constructor
  · intro same
    rw [tables,tables,same 0 (Nat.zero_le n)]
  · intro same k inside
    have driven (j : Nat) (early : j < n) :
        (earlier.turns[j]?).map Turn.commands = (log.turns[j]?).map Turn.commands := by
      have entry := List.getElem?_eq_getElem (early.trans_le (calm.trans logged.calm))
      have entry' := List.getElem?_eq_getElem (early.trans_le (calm'.trans replayed.calm))
      rw [entry,entry',Option.map_some,Option.map_some,logged.rows j _ entry,replayed.rows j _ entry',samePlayers]
    exact sessions_agree earlier log done done logged replayed (fun _ => by rw [library]) (by rw [library])
      (fun _ _ _ played => by rwa [library]) same n calm calm' driven
      (fun j early turn before entry found => by rw [library]; exact benign j early turn before entry found) k inside

theorem replay_iff_letter : ∃ (log earlier : SessionLog Unit), log.turns = [⟨0,0,[[65]],false⟩] ∧
    tables earlier = tables log ∧ ∀ k ≤ 1, earlier.states[k]? = log.states[k]? := by
  obtain ⟨world,log,earlier,past,process,member,left,right,alone,alone',turns,turns',calm,calm',_,_,states,states',_⟩ :=
    letter_process ⟨1,0,0⟩
  have same : tables earlier = tables log := by
    rw [tables,tables,states,states']
    rfl
  refine ⟨log,earlier,turns',same,?_⟩
  refine (replay_iff 1 endpointFromFd [letterFrame] [] world log earlier past process member (left.trans right.symm)
    (alone.trans alone'.symm) 1 (by rw [calm]) (by rw [calm']) ?_).mpr same
  intro j inside turn before entry _
  have zero : j = 0 := by omega
  subst zero
  rw [turns] at entry
  cases entry
  exact ⟨⟨fun benchmark => absurd benchmark (by decide),fun _ _ _ => trivial⟩,fun kind => absurd kind (by decide)⟩

/-- The frame of "v x 5". -/
def variableFrame : Frame := ⟨0,[118,32,120,32,53],by decide,by decide⟩

/-- The variable of the first run is there when its replay starts. -/
theorem replay_differs : ∃ (world : World Unit) (log earlier : SessionLog Unit) (past : List (SessionLog Unit)),
    Process 1 endpointFromFd (wire [variableFrame]) [] world log past ∧ earlier ∈ past ∧
      earlier.library = log.library ∧ earlier.playerCount = log.playerCount ∧
      earlier.states[0]?.map (fun state => names state.game.engine.globals) = some [] ∧
      log.states[0]?.map (fun state => names state.game.engine.globals) = some [[120]] := by
  obtain ⟨world,log,earlier,past,process,member,left,right,alone,alone',_,_,_,_,_,_,states,states',_⟩ :=
    replayed_process ⟨1,0,0⟩ sumLibrary variableFrame rfl (by decide) _ _ (fun _ => rfl) (fun _ => rfl) rfl rfl
  refine ⟨world,log,earlier,past,process,member,left.trans right.symm,alone.trans alone'.symm,?_,?_⟩
  · rw [states]
    rfl
  · rw [states']
    rfl

end Sessions

end Craftsman.Replay
