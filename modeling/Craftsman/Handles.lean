import Craftsman.Execute

/-! The functor handles over all the sessions of a process. The functor table
and the load handles start afresh with a session; the handles of the stored
results do not, so that a session can meet a handle of an earlier one. -/
namespace Craftsman.Handles
open Craftsman.Memory Craftsman.Text Craftsman.Global Craftsman.Dlfn Craftsman.Execute

inductive Point where
  | commands
  | load (i : Nat)
  | call (i : Nat)
  | store (i : Nat)

/-- What happened to the handles in a session: the slots whose last binding to a
variable met a full functor table, the same of the result commands that named a
function, and the handles of the results when the session started. -/
structure History where
  refused : Nat → Fin 3 → Bool
  stored : Nat → Option Bool
  inherited : Nat → Int

def full (engine : Engine) : Bool := maxFunc ≤ engine.resultFunc.length

def refuses (engine : Engine) (token : List Byte) : Bool :=
  (globalGet engine.globals token).isSome && full engine

def watchParam (tokens : List (List Byte)) (fi : Nat) (watched : Engine × (Nat → Fin 3 → Bool)) (p : Fin 3) :
    Engine × (Nat → Fin 3 → Bool) :=
  match tokens[p.val + 2]? with
  | none => watched
  | some token => (bindParam tokens fi watched.1 p,
      Function.update watched.2 fi (Function.update (watched.2 fi) p (refuses watched.1 token)))

def watchFunction (tokens : List (List Byte)) (filter : List Byte) (watched : Engine × (Nat → Fin 3 → Bool))
    (fi : Nat) : Engine × (Nat → Fin 3 → Bool) :=
  match watched.1.functions[fi]? with
  | none => watched
  | some function => if selects filter function.name then [0,1,2].foldl (watchParam tokens fi) watched else watched

def watchParameter (text : List Byte) (watched : Engine × (Nat → Fin 3 → Bool)) :
    Engine × (Nat → Fin 3 → Bool) :=
  let tokens := tokenize 6 text
  match tokens with
  | _::filter::_ => (List.range watched.1.functions.length).foldl (watchFunction tokens filter) watched
  | _ => watched

def watchResult (text : List Byte) (engine : Engine) (stored : Nat → Option Bool) : Nat → Option Bool :=
  match tokenize 3 text with
  | _::name::target::_ =>
    match dlfnGetSymbol engine.functions name with
    | none => stored
    | some symOffset => Function.update stored symOffset
        (some ((globalGetOrCreate engine.globals target).2.isSome && full engine))
  | _ => stored

def History.command (history : History) (text : List Byte) (engine : Engine) : History :=
  if firstByte text = 112 then {history with refused := (watchParameter text (engine,history.refused)).2}
  else if firstByte text = 114 then {history with stored := watchResult text engine history.stored}
  else history

def History.opened (engine : Engine) : History :=
  ⟨fun _ _ => false,fun _ => none,engine.saveResultHandle⟩

structure Process (σ : Type) where
  library : Library σ
  game : Game σ
  point : Point
  history : History

section Reached
variable {σ : Type}

def Process.opened (library : Library σ) (engine : Engine) : Process σ where
  library := library
  game := ⟨openSession library engine,library.init,0⟩
  point := .commands
  history := .opened engine

def Process.executed (process : Process σ) (text : List Byte) (later : Game σ) : Process σ :=
  {process with game := later, history := process.history.command text process.game.engine}

def Process.moved (process : Process σ) (engine : Engine) (point : Point) : Process σ :=
  {process with game := {process.game with engine := engine}, point := point}

/-- The states of a process: any sessions, commands and frames, function by function. -/
inductive Reached : Process σ → Prop where
  | boot (library : Library σ) : Reached (.opened library .boot)
  | reload (process : Process σ) (library : Library σ) (reached : Reached process)
      (between : process.point = .commands) : Reached (.opened library process.game.engine)
  | command (process : Process σ) (cycles : Nat → Nat → Nat → UInt64) (text : List Byte) (later : Game σ)
      (reached : Reached process) (between : process.point = .commands)
      (ok : executeAny process.library cycles process.game text = .ok later) :
      Reached (process.executed text later)
  | frame (process : Process σ) (unset : Nat → Word) (reached : Reached process)
      (between : process.point = .commands) :
      Reached (process.moved
        {process.game.engine with globals := globalVarOps unset process.game.engine.globals} (.load 0))
  | load (process : Process σ) (i : Nat) (engine : Engine) (reached : Reached process)
      (here : process.point = .load i) (inside : i < process.game.engine.functions.length)
      (ok : callLoadParam i process.game.engine = .ok engine) : Reached (process.moved engine (.call i))
  | call (process : Process σ) (i : Nat) (memory : σ) (returned : Word) (reached : Reached process)
      (here : process.point = .call i)
      (ok : callFunction process.library process.game.engine.functions process.game.memory i = (memory,returned)) :
      Reached {process with
        game := {process.game with
          engine := {process.game.engine with
            result := Function.update process.game.engine.result i returned}
          memory := memory}
        point := .store i}
  | store (process : Process σ) (i : Nat) (engine : Engine) (reached : Reached process)
      (here : process.point = .store i) (ok : callStoreResult i process.game.engine = .ok engine) :
      Reached (process.moved engine (.load (i + 1)))
  | done (process : Process σ) (reached : Reached process)
      (here : process.point = .load process.game.engine.functions.length) :
      Reached (process.moved process.game.engine .commands)

end Reached

/-- A used entry of the functor table: the one that does nothing, or a copy as it is wanted. -/
def SlotValid (table : List Functor) (handle : Int) (wanted : Functor → Prop) : Prop :=
  ∃ slot : Nat, handle = slot ∧ slot < table.length ∧
    ∃ functor, table[slot]? = some functor ∧ (slot = 0 ∧ functor = .noop ∨ slot ≠ 0 ∧ wanted functor)

def LoadsValid (engine : Engine) (i : Nat) : Prop :=
  ∀ p, SlotValid engine.resultFunc (engine.loadParamHandle i p) fun functor =>
    ∃ src, functor = .copy (.param i p) src

def StoreValid (engine : Engine) (i : Nat) : Prop :=
  SlotValid engine.resultFunc (engine.saveResultHandle i) fun functor =>
    ∃ dst, functor = .copy dst (.result i)

theorem SlotValid.later {table : List Functor} {handle : Int} {wanted : Functor → Prop}
    (valid : SlotValid table handle wanted) (more : List Functor) : SlotValid (table ++ more) handle wanted := by
  obtain ⟨slot,same,inside,functor,found,kind⟩ := valid
  refine ⟨slot,same,?_,functor,?_,kind⟩
  · rw [List.length_append]
    exact Nat.lt_add_right _ inside
  · rw [List.getElem?_append_left inside]
    exact found

theorem slot_noop (table : List Functor) (wanted : Functor → Prop) (noop : table[0]? = some .noop) :
    SlotValid table 0 wanted := by
  obtain ⟨inside,_⟩ := List.getElem?_eq_some_iff.mp noop
  exact ⟨0,rfl,inside,.noop,noop,.inl ⟨rfl,rfl⟩⟩

theorem slot_added (table : List Functor) (wanted : Functor → Prop) (functor : Functor)
    (noop : table[0]? = some .noop) (kind : wanted functor) :
    SlotValid (table ++ [functor]) table.length wanted := by
  obtain ⟨inside,_⟩ := List.getElem?_eq_some_iff.mp noop
  refine ⟨table.length,rfl,by simp,functor,List.getElem?_concat_length ..,.inr ⟨?_,kind⟩⟩
  exact Nat.ne_of_gt inside

def Settled (refused : Bool) (table : List Functor) (handle : Int) (wanted : Functor → Prop) : Prop :=
  match refused with
  | true => handle = -1
  | false => SlotValid table handle wanted

theorem Settled.later {refused : Bool} {table : List Functor} {handle : Int} {wanted : Functor → Prop}
    (settled : Settled refused table handle wanted) (more : List Functor) :
    Settled refused (table ++ more) handle wanted := by
  cases refused with
  | true => exact settled
  | false => exact SlotValid.later settled more

theorem Settled.valid_iff {refused : Bool} {table : List Functor} {handle : Int} {wanted : Functor → Prop}
    (settled : Settled refused table handle wanted) : SlotValid table handle wanted ↔ refused = false := by
  cases refused with
  | true =>
    constructor
    · rintro ⟨slot,same,_⟩
      have refusal : handle = -1 := settled
      omega
    · intro never
      cases never
  | false => exact ⟨fun _ => rfl,fun _ => settled⟩

/-- A store handle that the session has not touched is as it was at the start. -/
def Saved (engine : Engine) (i : Nat) (stored : Option Bool) (inherited : Int) : Prop :=
  match stored with
  | none => engine.saveResultHandle i = inherited
  | some refused => Settled refused engine.resultFunc (engine.saveResultHandle i) fun functor =>
      ∃ dst, functor = .copy dst (.result i)

/-- What holds of the handles in every session. -/
structure Handled (engine : Engine) (history : History) : Prop where
  noop : engine.resultFunc[0]? = some .noop
  loads : ∀ i p, Settled (history.refused i p) engine.resultFunc (engine.loadParamHandle i p) fun functor =>
    ∃ src, functor = .copy (.param i p) src
  stores : ∀ i, Saved engine i (history.stored i) (history.inherited i)
  registered : ∀ (slot : Nat) (dst : Loc) (i : Nat), engine.resultFunc[slot]? = some (.copy dst (.result i)) →
    history.stored i ≠ none

section Steps
variable {engine : Engine} {history : History}

theorem Handled.same (handled : Handled engine history) (later : Engine)
    (table : later.resultFunc = engine.resultFunc) (loads : later.loadParamHandle = engine.loadParamHandle)
    (saves : later.saveResultHandle = engine.saveResultHandle) : Handled later history where
  noop := table ▸ handled.noop
  loads := by
    rw [table,loads]
    exact handled.loads
  stores := by
    unfold Saved
    rw [table,saves]
    exact handled.stores
  registered := by
    rw [table]
    exact handled.registered

theorem handled_opened {σ : Type} (library : Library σ) (engine : Engine) :
    Handled (openSession library engine) (.opened engine) where
  noop := rfl
  loads := fun _ _ => slot_noop _ _ rfl
  stores := fun _ => rfl
  registered := by
    intro slot dst i found
    have member := List.mem_of_getElem? found
    rw [openSession,executeInit,List.mem_singleton] at member
    exact absurd member (by simp)

theorem Handled.grow (handled : Handled engine history) (functor : Functor)
    (kind : ∀ dst i, functor = .copy dst (.result i) → history.stored i ≠ none) :
    Handled {engine with resultFunc := engine.resultFunc ++ [functor]} history where
  noop := by
    obtain ⟨inside,_⟩ := List.getElem?_eq_some_iff.mp handled.noop
    dsimp only
    rw [List.getElem?_append_left inside]
    exact handled.noop
  loads := fun i p => (handled.loads i p).later _
  stores := by
    intro i
    have before := handled.stores i
    revert before
    unfold Saved
    cases history.stored i with
    | none => exact id
    | some refused => exact fun settled => Settled.later settled _
  registered := by
    intro slot dst i found
    rcases List.mem_append.mp (List.mem_of_getElem? found) with member | member
    · obtain ⟨early,there⟩ := List.getElem?_of_mem member
      exact handled.registered early dst i there
    · exact kind dst i (List.mem_singleton.mp member).symm

theorem Handled.setLoad (handled : Handled engine history) (i : Nat) (p : Fin 3) (handle : Int) (refused : Bool)
    (settled : Settled refused engine.resultFunc handle fun functor => ∃ src, functor = .copy (.param i p) src) :
    Handled {engine with
      loadParamHandle := Function.update engine.loadParamHandle i (Function.update (engine.loadParamHandle i) p handle)}
      {history with refused := Function.update history.refused i (Function.update (history.refused i) p refused)} where
  noop := handled.noop
  loads := by
    intro j q
    dsimp only
    by_cases slot : j = i ∧ q = p
    · obtain ⟨rfl,rfl⟩ := slot
      rw [update_slot,update_slot]
      exact settled
    · rw [update_other _ _ _ _ _ _ slot,update_other _ _ _ _ _ _ slot]
      exact handled.loads j q
  stores := handled.stores
  registered := handled.registered

theorem Handled.bindParam (handled : Handled engine history) (tokens : List (List Byte)) (i : Nat) (p : Fin 3) :
    Handled (watchParam tokens i (engine,history.refused) p).1
      {history with refused := (watchParam tokens i (engine,history.refused) p).2} := by
  unfold watchParam
  cases given : tokens[p.val + 2]? with
  | none => exact handled
  | some token =>
    dsimp only
    unfold Execute.bindParam setLoadParam addResultFunc refuses
    simp only [given]
    cases globalGet engine.globals token with
    | none => exact (handled.setLoad i p 0 false (slot_noop _ _ handled.noop)).same _ rfl rfl rfl
    | some var =>
      dsimp only
      by_cases filled : maxFunc ≤ engine.resultFunc.length
      · have none : full engine = true := decide_eq_true filled
        simp only [if_pos filled,none]
        exact (handled.setLoad i p (-1) true rfl).same _ rfl rfl rfl
      · have room : full engine = false := decide_eq_false filled
        simp only [if_neg filled,room]
        have valid := slot_added engine.resultFunc (fun functor => ∃ src, functor = .copy (.param i p) src)
          (.copy (.param i p) (.global var)) handled.noop ⟨_,rfl⟩
        have bound := (handled.grow (.copy (.param i p) (.global var)) (by simp)).setLoad i p
          engine.resultFunc.length false valid
        split
        · exact bound.same _ rfl rfl rfl
        · exact bound.same _ rfl rfl rfl

theorem watchFunction_engine (tokens : List (List Byte)) (filter : List Byte)
    (watched : Engine × (Nat → Fin 3 → Bool)) (i : Nat) :
    (watchFunction tokens filter watched i).1 = bindFunction tokens filter watched.1 i := by
  unfold watchFunction bindFunction
  cases watched.1.functions[i]? with
  | none => rfl
  | some function =>
    dsimp only
    split
    · symm
      apply List.foldl_hom Prod.fst
      intro watched p
      unfold watchParam bindParam
      cases tokens[p.val + 2]? <;> rfl
    · rfl

theorem watchParameter_engine (text : List Byte) (watched : Engine × (Nat → Fin 3 → Bool)) :
    (watchParameter text watched).1 = executeParameter text watched.1 := by
  unfold watchParameter executeParameter
  dsimp only
  generalize tokenize 6 text = tokens
  rcases tokens with _ | ⟨command,_ | ⟨filter,rest⟩⟩
  · rfl
  · rfl
  · symm
    apply List.foldl_hom Prod.fst
    exact fun watched i => (watchFunction_engine _ filter watched i).symm

theorem Handled.parameter (handled : Handled engine history) (text : List Byte) :
    Handled (watchParameter text (engine,history.refused)).1
      {history with refused := (watchParameter text (engine,history.refused)).2} := by
  let described (watched : Engine × (Nat → Fin 3 → Bool)) : Prop :=
    Handled watched.1 {history with refused := watched.2}
  change described (watchParameter text (engine,history.refused))
  unfold watchParameter
  dsimp only
  split
  · apply List.foldlRecOn (motive := described) _ _ handled
    intro watched handled i _
    unfold watchFunction
    split
    · exact handled
    · split
      · apply List.foldlRecOn (motive := described) _ _ handled
        intro watched handled p _
        change Handled watched.1 {history with refused := watched.2} at handled
        exact handled.bindParam _ i p
      · exact handled
  · exact handled

theorem Handled.setSave (handled : Handled engine history) (i : Nat) (handle : Int) (refused : Bool)
    (settled : Settled refused engine.resultFunc handle fun functor => ∃ dst, functor = .copy dst (.result i)) :
    Handled {engine with
      saveResultHandle := Function.update engine.saveResultHandle i handle}
      {history with stored := Function.update history.stored i (some refused)} where
  noop := handled.noop
  loads := handled.loads
  stores := by
    intro j
    unfold Saved
    dsimp only
    by_cases same : j = i
    · subst same
      rw [Function.update_self,Function.update_self]
      exact settled
    · rw [Function.update_of_ne same,Function.update_of_ne same]
      exact handled.stores j
  registered := by
    intro slot dst j found
    dsimp only
    by_cases same : j = i
    · subst same
      rw [Function.update_self]
      simp
    · rw [Function.update_of_ne same]
      exact handled.registered slot dst j found

theorem Handled.result (handled : Handled engine history) (text : List Byte) :
    Handled (executeResult text engine) {history with stored := watchResult text engine history.stored} := by
  unfold executeResult watchResult
  generalize tokenize 3 text = tokens
  rcases tokens with _ | ⟨command,_ | ⟨name,_ | ⟨target,rest⟩⟩⟩
  · exact handled
  · exact handled
  · exact handled
  · dsimp only
    cases dlfnGetSymbol engine.functions name with
    | none => exact handled
    | some i =>
      unfold setStoreParam addResultFunc
      dsimp only
      rcases globalGetOrCreate engine.globals target with ⟨globals,_ | var⟩
      · exact (handled.setSave i 0 false (slot_noop _ _ handled.noop)).same _ rfl rfl rfl
      · dsimp only
        by_cases filled : maxFunc ≤ engine.resultFunc.length
        · have none : full engine = true := decide_eq_true filled
          simp only [if_pos filled,none]
          exact (handled.setSave i (-1) true rfl).same _ rfl rfl rfl
        · have room : full engine = false := decide_eq_false filled
          simp only [if_neg filled,room]
          have named := handled.setSave i 0 false (slot_noop _ _ handled.noop)
          have grown := named.grow (.copy (.global var) (.result i)) (by
            intro dst j same
            cases same
            simp)
          have valid := slot_added engine.resultFunc (fun functor => ∃ dst, functor = .copy dst (.result i))
            (.copy (.global var) (.result i)) handled.noop ⟨_,rfl⟩
          have bound := grown.setSave i engine.resultFunc.length false valid
          simp only [Function.update_idem] at bound
          exact bound.same _ rfl rfl rfl

theorem Handled.variables (handled : Handled engine history) (text : List Byte) :
    Handled (executeVariable text engine) history := by
  unfold executeVariable
  split
  · split <;> exact handled.same _ rfl rfl rfl
  · exact handled

theorem Handled.mutation (handled : Handled engine history) (text : List Byte) :
    Handled (executeMutation text engine) history := by
  unfold executeMutation
  split
  · split
    · exact handled
    · exact handled.same _ rfl rfl rfl
  · exact handled

theorem Handled.command {σ : Type} (library : Library σ) (cycles : Nat → Nat → Nat → UInt64)
    (game later : Game σ) (text : List Byte) (handled : Handled game.engine history)
    (ok : executeAny library cycles game text = .ok later) :
    Handled later.engine (history.command text game.engine) := by
  have kept (parameter : firstByte text ≠ 112) (result : firstByte text ≠ 114) :
      history.command text game.engine = history := by
    rw [History.command,if_neg parameter,if_neg result]
  cases executeAny_executed library cycles game later text ok with
  | benchmark kind =>
    rw [kept (by rw [kind]; decide) (by rw [kind]; decide)]
    exact handled
  | mutation kind =>
    rw [kept (by rw [kind]; decide) (by rw [kind]; decide)]
    exact handled.mutation text
  | parameter kind =>
    have watched := handled.parameter text
    rw [watchParameter_engine] at watched
    rw [History.command,if_pos kind]
    exact watched
  | result kind =>
    rw [History.command,kind,if_neg (by decide),if_pos rfl]
    exact handled.result text
  | simulation kind =>
    rw [kept (by rw [kind]; decide) (by rw [kind]; decide)]
    exact handled
  | assign kind =>
    rw [kept (by rw [kind]; decide) (by rw [kind]; decide)]
    exact handled.variables text
  | printed kind =>
    rw [kept (by rintro same; simp [same] at kind) (by rintro same; simp [same] at kind)]
    exact handled

structure SameHandles (later engine : Engine) : Prop where
  table : later.resultFunc = engine.resultFunc
  loads : later.loadParamHandle = engine.loadParamHandle
  saves : later.saveResultHandle = engine.saveResultHandle
  count : later.functions.length = engine.functions.length

theorem invoke_same (handle : Int) (later : Engine) (ok : functorInvoke engine handle = .ok later) :
    SameHandles later engine := by
  unfold functorInvoke at ok
  split at ok
  · split at ok
    · cases ok
    · cases ok
      exact ⟨rfl,rfl,rfl,rfl⟩
    · next dst src _ =>
      cases ok
      cases dst with
      | global i => exact ⟨rfl,rfl,rfl,rfl⟩
      | param f p => exact ⟨rfl,rfl,rfl,List.length_modify ..⟩
      | result f => exact ⟨rfl,rfl,rfl,rfl⟩
  · cases ok

theorem load_same (i : Nat) (slots : List (Fin 3)) (later : Engine)
    (ok : slots.foldlM (fun engine p => functorInvoke engine (engine.loadParamHandle i p)) engine = .ok later) :
    SameHandles later engine := by
  induction slots generalizing engine with
  | nil =>
    cases ok
    exact ⟨rfl,rfl,rfl,rfl⟩
  | cons p slots ih =>
    rw [List.foldlM_cons,bind_ok] at ok
    obtain ⟨next,invoked,rest⟩ := ok
    have one := invoke_same _ next invoked
    have more := ih rest
    exact ⟨more.table.trans one.table,more.loads.trans one.loads,more.saves.trans one.saves,
      more.count.trans one.count⟩

theorem Handled.moved (handled : Handled engine history) {later : Engine} (same : SameHandles later engine) :
    Handled later history :=
  handled.same later same.table same.loads same.saves

end Steps

section Runs
variable {σ : Type}

theorem reached_handled (process : Process σ) (reached : Reached process) :
    Handled process.game.engine process.history := by
  induction reached with
  | boot library => exact handled_opened library .boot
  | reload process library _ _ _ => exact handled_opened library process.game.engine
  | command process cycles text later _ _ ok ih => exact ih.command process.library cycles process.game later text ok
  | frame process unset _ _ ih => exact ih.same _ rfl rfl rfl
  | load process i engine _ _ _ ok ih => exact ih.moved (load_same i _ engine ok)
  | call process i memory returned _ _ _ ih => exact ih.same _ rfl rfl rfl
  | store process i engine _ _ ok ih => exact ih.moved (invoke_same _ engine ok)
  | done process _ _ ih => exact ih.same _ rfl rfl rfl

theorem frame_reached (count i : Nat) (process : Process σ) (reached : Reached process)
    (here : process.point = .load i) (inside : i + count ≤ process.game.engine.functions.length)
    (later : Engine) (memory : σ) (calls : List Call)
    (ok : frameFrom process.library (List.range' i count) process.game.engine process.game.memory =
      .ok (later,memory,calls)) :
    Reached {process with
      game := {process.game with engine := later, memory := memory}, point := .load (i + count)} := by
  induction count generalizing i process calls with
  | zero =>
    cases ok
    rw [Nat.add_zero,← here]
    exact reached
  | succ count ih =>
    rw [List.range'_succ,frameFrom,bind_ok] at ok
    obtain ⟨⟨next,middle,call⟩,function,rest⟩ := ok
    unfold frameFunction at function
    rw [bind_ok] at function
    obtain ⟨loaded,loads,rest'⟩ := function
    rcases called : callFunction process.library loaded.functions process.game.memory i with ⟨after,returned⟩
    simp only [called] at rest'
    rw [bind_ok] at rest'
    obtain ⟨stored,stores,same⟩ := rest'
    cases same
    dsimp only at rest
    rw [bind_ok] at rest
    obtain ⟨⟨final,end',calls'⟩,frame,same⟩ := rest
    cases same
    have one := Reached.load process i loaded reached here (by omega) loads
    have two := Reached.call _ i middle returned one rfl called
    have three := Reached.store _ i next two rfl stores
    have length := (load_same i _ loaded loads).count
    have length' := (invoke_same _ next stores).count
    have bound : i + 1 + count ≤ next.functions.length := by
      dsimp only at length'
      omega
    have done := ih (i + 1) _ three rfl bound calls' frame
    rw [Nat.add_right_comm] at done
    exact done

theorem Handled.store_iff {engine : Engine} {history : History} (handled : Handled engine history) (i : Nat) :
    StoreValid engine i ↔
      history.stored i = some false ∨ history.stored i = none ∧ history.inherited i = 0 := by
  have saved := handled.stores i
  unfold Saved at saved
  cases kind : history.stored i with
  | none =>
    rw [kind] at saved
    constructor
    · rintro ⟨slot,same,_,functor,found,⟨zero,_⟩ | ⟨_,dst,rfl⟩⟩
      · exact .inr ⟨rfl,by omega⟩
      · exact absurd kind (handled.registered slot dst i found)
    · rintro (never | ⟨_,zero⟩)
      · cases never
      · unfold StoreValid
        rw [saved,zero]
        exact slot_noop _ _ handled.noop
  | some refused =>
    rw [kind] at saved
    unfold StoreValid
    rw [saved.valid_iff]
    simp

/-- The handles of a function are valid exactly when the functor table was not full
at its last bindings, and its result, if this session did not bind it, was not bound
when the session started. -/
theorem handles_valid_iff (process : Process σ) (reached : Reached process) (i : Nat) :
    (process.point = .load i → i < process.game.engine.functions.length →
      (LoadsValid process.game.engine i ↔ ∀ p, process.history.refused i p = false)) ∧
    (process.point = .store i →
      (StoreValid process.game.engine i ↔ process.history.stored i = some false ∨
        process.history.stored i = none ∧ process.history.inherited i = 0)) := by
  have handled := reached_handled process reached
  constructor
  · intro _ _
    exact forall_congr' fun p => (handled.loads i p).valid_iff
  · intro _
    exact handled.store_iff i

end Runs

/-- The engine after "r f x" in the first session. -/
def boundEngine : Engine := executeResult [114,32,102,32,120] (openSession sumLibrary .boot)

def staleProcess : Process Unit where
  library := sumLibrary
  game := ⟨{openSession sumLibrary boundEngine with
    globals := globalVarOps (fun _ => 0) boundEngine.globals
    result := Function.update (fun _ => 0) 0 0},(),0⟩
  point := .store 0
  history := .opened boundEngine

theorem boundEngine_handle : boundEngine.saveResultHandle 0 = 1 := by
  unfold boundEngine openSession
  rw [sumLibrary_functions]
  rfl

theorem stale_reached : Reached staleProcess := by
  have first := Reached.boot sumLibrary
  have bound := Reached.command _ (fun _ _ _ => 0) [114,32,102,32,120] _ first rfl rfl
  have second := Reached.reload _ sumLibrary bound rfl
  have frame := Reached.frame _ (fun _ => 0) second rfl
  have inside : 0 < (dlfnOpen sumLibrary).1.length := by
    rw [sumLibrary_functions]
    simp
  have loaded := Reached.load _ 0 _ frame rfl inside rfl
  have called : callFunction sumLibrary (dlfnOpen sumLibrary).1 () 0 = ((),0) := by
    rw [sumLibrary_functions]
    rfl
  exact Reached.call _ 0 () 0 loaded rfl called

theorem handles_valid_iff_stale : ¬ StoreValid staleProcess.game.engine 0 := by
  rw [(handles_valid_iff staleProcess stale_reached 0).2 rfl]
  rintro (never | ⟨_,zero⟩)
  · cases never
  · change boundEngine.saveResultHandle 0 = 0 at zero
    rw [boundEngine_handle] at zero
    exact absurd zero (by decide)

/-- The handle of an earlier session reaches behind the used functors of this one. -/
theorem stale_handle :
    ∃ process : Process Unit, Reached process ∧ process.point = .store 0 ∧
      0 < process.game.engine.functions.length ∧ ¬ StoreValid process.game.engine 0 := by
  refine ⟨staleProcess,stale_reached,rfl,?_,?_⟩
  · change 0 < (dlfnOpen sumLibrary).1.length
    rw [sumLibrary_functions]
    simp
  · rintro ⟨slot,same,inside,_⟩
    change boundEngine.saveResultHandle 0 = slot at same
    rw [boundEngine_handle] at same
    change slot < 1 at inside
    omega

end Craftsman.Handles
