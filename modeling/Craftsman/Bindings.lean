import Craftsman.Execute
import Craftsman.Stream.Rounds

/-! Pointers, functor slots and handles against names: an interpreter that binds
every parameter to a constant or to the name of a variable, and every result to
a name, and the relation that the commands and the frames keep between the two. -/
namespace Craftsman.Bindings
open Craftsman.Memory Craftsman.Text Craftsman.Global Craftsman.Dlfn Craftsman.Execute
open Craftsman.Stream.Rounds (prefix_item)

inductive Event where
  | command (text : List Byte)
  | frame

inductive Source where
  | constant (value : Word)
  | named (name : List Byte)

/-- The interpreter by names. It counts the variables made and the bindings to variables. -/
structure Reference where
  value : List Byte → Option Word
  source : List Byte → Fin 3 → Source
  target : List Byte → Option (List Byte)
  created : Nat
  registered : Nat

def Reference.start : Reference where
  value := fun _ => none
  source := fun _ _ => .constant 0
  target := fun _ => none
  created := 0
  registered := 0

def Reference.declare (reference : Reference) (name : List Byte) : Reference :=
  match reference.value name with
  | some _ => reference
  | none => {reference with
      value := Function.update reference.value name (some 0), created := reference.created + 1}

def Reference.assign (reference : Reference) (name : List Byte) (value : Word) : Reference :=
  {reference with value := Function.update reference.value name (some value)}

def Reference.bindSource (reference : Reference) (function : List Byte) (p : Fin 3) (source : Source) :
    Reference :=
  {reference with source :=
    Function.update reference.source function (Function.update (reference.source function) p source)}

/-- A token that names a variable binds the parameter to it; any other is a constant. -/
def Reference.bind (tokens : List (List Byte)) (function : List Byte) (reference : Reference) (p : Fin 3) :
    Reference :=
  match tokens[p.val + 2]? with
  | none => reference
  | some token =>
    match reference.value token with
    | none => reference.bindSource function p (.constant (setValueParam token).2)
    | some _ => {reference.bindSource function p (.named token) with registered := reference.registered + 1}

def Reference.bindAll (tokens : List (List Byte)) (filter : List Byte) (reference : Reference)
    (function : List Byte) : Reference :=
  if selects filter function then [0,1,2].foldl (Reference.bind tokens function) reference else reference

def Reference.parameter (functions : List Function) (text : List Byte) (reference : Reference) : Reference :=
  match tokenize 6 text with
  | _::filter::_ => functions.foldl (fun reference function =>
      Reference.bindAll (tokenize 6 text) filter reference function.name) reference
  | _ => reference

def Reference.variables (text : List Byte) (reference : Reference) : Reference :=
  match tokenize 3 text with
  | _::name::value::_ => (reference.declare name).assign name (setValueParam value).2
  | _ => reference

def Reference.result (functions : List Function) (text : List Byte) (reference : Reference) : Reference :=
  match tokenize 3 text with
  | _::function::name::_ =>
    let declared := reference.declare name
    if function ∈ functions.map Function.name then
      {declared with
        target := Function.update declared.target function (some name), registered := declared.registered + 1}
    else reference
  | _ => reference

def Reference.command (functions : List Function) (text : List Byte) (reference : Reference) : Reference :=
  if firstByte text = 112 then reference.parameter functions text
  else if firstByte text = 114 then reference.result functions text
  else if firstByte text = 118 then reference.variables text
  else reference

def Reference.argument (reference : Reference) (function : List Byte) (p : Fin 3) : Word :=
  match reference.source function p with
  | .constant value => value
  | .named name => (reference.value name).getD 0

def Reference.store (reference : Reference) (function : List Byte) (returned : Word) : Reference :=
  match reference.target function with
  | none => reference
  | some name => reference.assign name returned

section Library
variable {σ : Type} (library : Library σ)

/-- A call with the arguments of this moment; what it returns is stored at once. -/
def Reference.run (i : Nat) (function : Function) (reference : Reference) (memory : σ) : Reference × σ × Call :=
  let (memory,returned) := library.call memory function.call (reference.argument function.name)
  (reference.store function.name returned,memory,⟨i,reference.argument function.name,returned⟩)

def Reference.frameFrom : Nat → List Function → Reference → σ → Reference × σ × List Call
  | _,[],reference,memory => (reference,memory,[])
  | i,function::later,reference,memory =>
    let (reference,memory,call) := reference.run library i function memory
    let (reference,memory,calls) := Reference.frameFrom (i+1) later reference memory
    (reference,memory,call::calls)

def Reference.play (functions : List Function) : List Event → Reference → σ → Reference × σ × List (List Call)
  | [],reference,memory => (reference,memory,[])
  | .command text::later,reference,memory =>
    Reference.play functions later (reference.command functions text) memory
  | .frame::later,reference,memory =>
    let (reference,memory,calls) := Reference.frameFrom library 0 functions reference memory
    let (reference,memory,frames) := Reference.play functions later reference memory
    (reference,memory,calls::frames)

def play (cycles : Nat → Nat → Nat → UInt64) (unset : Nat → Word) :
    List Event → Game σ → Except Stop (Game σ × List (List Call))
  | [],game => .ok (game,[])
  | .command text::later,game => do
    let game ← executeAny library cycles game text
    play cycles unset later game
  | .frame::later,game => do
    let (engine,memory,calls) ← frameBody library unset game.engine game.memory
    let (game,frames) ← play cycles unset later {game with engine := engine, memory := memory}
    return (game,calls::frames)

end Library

/-- Neither table ran out of entries; the first functor is the one that does nothing. -/
def Reference.Fits (reference : Reference) : Prop :=
  reference.created ≤ maxVariable ∧ reference.registered + 1 ≤ maxFunc

def lookup (globals : List Variable) (name : List Byte) : Option Word :=
  (globalGet globals name).map (valueAt globals)

theorem lookup_setType (globals : List Variable) (i : Nat) (type : Byte) (name : List Byte) :
    lookup (setType globals i type) name = lookup globals name := by
  unfold lookup
  rw [globalGet_congr globals (setType globals i type) name (names_modify globals i _ fun _ => rfl)]
  simp only [funext (valueAt_setType globals i · type)]

theorem lookup_setValue (globals : List Variable) (named : Named globals) (name : List Byte) (i : Nat)
    (value : Word) (found : (names globals)[i]? = some name) :
    lookup (setValue globals i value) = Function.update (lookup globals) name (some value) := by
  have here := (named.get_iff name i).mpr found
  have inside := globalGet_inside globals name i here
  funext other
  unfold lookup
  rw [globalGet_congr globals (setValue globals i value) other (names_modify globals i _ fun _ => rfl)]
  by_cases same : other = name
  · subst same
    rw [here,Function.update_self,Option.map_some,valueAt_setValue globals i i value inside,if_pos rfl]
  · rw [Function.update_of_ne same]
    cases there : globalGet globals other with
    | none => rfl
    | some j =>
      have apart : i ≠ j := by
        rintro rfl
        have again := (named.get_iff other i).mp there
        rw [found] at again
        exact same (Option.some.inj again).symm
      rw [Option.map_some,Option.map_some,valueAt_setValue globals i j value inside,if_neg apart]

theorem lookup_append (globals : List Variable) (named : Named globals) (name : List Byte)
    (short : name.length < 16) (absent : globalGet globals name = none) :
    lookup (globals ++ [globalInit name]) = Function.update (lookup globals) name (some 0) := by
  obtain ⟨whole,later⟩ := named.append name short absent
  have size : (names globals).length = globals.length := List.length_map _
  funext other
  unfold lookup
  by_cases same : other = name
  · subst same
    have last : (names (globals ++ [globalInit other]))[globals.length]? = some other := by
      rw [whole,← size,List.getElem?_concat_length]
    rw [(later.get_iff other globals.length).mpr last,Function.update_self]
    simp [valueAt,globalInit]
  · rw [Function.update_of_ne same]
    cases there : globalGet globals other with
    | none =>
      rw [(later.get_none other).mpr ?_]
      · rfl
      · rw [whole,List.mem_append,List.mem_singleton,not_or]
        exact ⟨(named.get_none other).mp there,same⟩
    | some j =>
      have inside := globalGet_inside globals other j there
      have kept : (names (globals ++ [globalInit name]))[j]? = some other := by
        rw [whole,List.getElem?_append_left (by omega)]
        exact (named.get_iff other j).mp there
      rw [(later.get_iff other j).mpr kept,Option.map_some,Option.map_some]
      unfold valueAt
      rw [List.getElem?_append_left inside]

/-- A parameter slot as the source of its binding asks for it: no functor and the
constant, or a functor that copies from the entry of the name. -/
def LoadFrom (engine : Engine) (i : Nat) (p : Fin 3) : Source → Prop
  | .constant value => engine.loadParamHandle i p = 0 ∧ paramAt engine.functions i p = value
  | .named name => ∃ slot var : Nat, engine.loadParamHandle i p = slot ∧
      engine.resultFunc[slot]? = some (.copy (.param i p) (.global var)) ∧
      (names engine.globals)[var]? = some name

def StoreTo (engine : Engine) (i : Nat) : Option (List Byte) → Prop
  | none => engine.saveResultHandle i = 0
  | some name => ∃ slot var : Nat, engine.saveResultHandle i = slot ∧
      engine.resultFunc[slot]? = some (.copy (.global var) (.result i)) ∧
      (names engine.globals)[var]? = some name

theorem LoadFrom.later {old new : Engine} {i : Nat} {p : Fin 3} {source : Source}
    (load : LoadFrom old i p source) (slots : old.resultFunc <+: new.resultFunc)
    (kept : names old.globals <+: names new.globals)
    (handle : new.loadParamHandle i p = old.loadParamHandle i p)
    (param : paramAt new.functions i p = paramAt old.functions i p) : LoadFrom new i p source := by
  cases source with
  | constant value => exact ⟨handle.trans load.1,param.trans load.2⟩
  | named name =>
    obtain ⟨slot,var,bound,functor,entry⟩ := load
    exact ⟨slot,var,handle.trans bound,prefix_item _ _ slot _ slots functor,prefix_item _ _ var _ kept entry⟩

theorem StoreTo.later {old new : Engine} {i : Nat} {target : Option (List Byte)}
    (store : StoreTo old i target) (slots : old.resultFunc <+: new.resultFunc)
    (kept : names old.globals <+: names new.globals)
    (handle : new.saveResultHandle i = old.saveResultHandle i) : StoreTo new i target := by
  cases target with
  | none => exact handle.trans store
  | some name =>
    obtain ⟨slot,var,bound,functor,entry⟩ := store
    exact ⟨slot,var,handle.trans bound,prefix_item _ _ slot _ slots functor,prefix_item _ _ var _ kept entry⟩

/-- The tables stand for the names. -/
structure Simulates (functions : List Function) (engine : Engine) (reference : Reference) : Prop where
  loaded : signatures engine.functions = signatures functions
  named : Named engine.globals
  idle : ∀ var ∈ engine.globals, var.op.opcode = 0
  value : reference.value = lookup engine.globals
  created : engine.globals.length = reference.created
  registered : engine.resultFunc.length = reference.registered + 1
  noop : engine.resultFunc[0]? = some .noop
  load : ∀ i function, functions[i]? = some function →
    ∀ p, LoadFrom engine i p (reference.source function.name p)
  store : ∀ i function, functions[i]? = some function → StoreTo engine i (reference.target function.name)

section Steps
variable {functions : List Function} {engine : Engine} {reference : Reference}

theorem Simulates.variables (simulates : Simulates functions engine reference) (globals : List Variable)
    (value : List Byte → Option Word) (created : Nat) (kept : names engine.globals <+: names globals)
    (named : Named globals) (idle : ∀ var ∈ globals, var.op.opcode = 0) (same : value = lookup globals)
    (count : globals.length = created) :
    Simulates functions {engine with globals := globals} {reference with value := value, created := created} where
  loaded := simulates.loaded
  named := named
  idle := idle
  value := same
  created := count
  registered := simulates.registered
  noop := simulates.noop
  load := fun i function found p =>
    (simulates.load i function found p).later (List.prefix_refl _) kept rfl rfl
  store := fun i function found => (simulates.store i function found).later (List.prefix_refl _) kept rfl

theorem idle_modify (globals : List Variable) (i : Nat) (change : Variable → Variable)
    (keep : ∀ var, (change var).op = var.op) (idle : ∀ var ∈ globals, var.op.opcode = 0) :
    ∀ var ∈ globals.modify i change, var.op.opcode = 0 := by
  intro var member
  obtain ⟨j,inside,rfl⟩ := List.getElem_of_mem member
  rw [List.getElem_modify]
  have before : j < globals.length := by simpa using inside
  split
  · rw [keep]
    exact idle _ (List.getElem_mem before)
  · exact idle _ (List.getElem_mem before)

theorem named_modify (globals : List Variable) (i : Nat) (change : Variable → Variable)
    (keep : ∀ var, (change var).name = var.name) (named : Named globals) : Named (globals.modify i change) := by
  constructor
  · rw [names_modify globals i change keep]
    exact named.short
  · rw [names_modify globals i change keep]
    exact named.distinct

theorem Simulates.retype (simulates : Simulates functions engine reference) (var : Nat) (type : Byte) :
    Simulates functions {engine with globals := setType engine.globals var type} reference := by
  apply simulates.variables (setType engine.globals var type) reference.value reference.created
  · rw [setType,names_modify]
    · exact fun _ => rfl
  · exact named_modify _ _ _ (fun _ => rfl) simulates.named
  · exact idle_modify _ _ _ (fun _ => rfl) simulates.idle
  · rw [simulates.value]
    exact funext fun name => (lookup_setType engine.globals var type name).symm
  · rw [← simulates.created]
    exact List.length_modify ..

theorem Simulates.assign (simulates : Simulates functions engine reference) (name : List Byte) (var : Nat)
    (value : Word) (entry : (names engine.globals)[var]? = some name) :
    Simulates functions {engine with globals := setValue engine.globals var value} (reference.assign name value) := by
  apply simulates.variables (setValue engine.globals var value) _ reference.created
  · rw [setValue,names_modify]
    · exact fun _ => rfl
  · exact named_modify _ _ _ (fun _ => rfl) simulates.named
  · exact idle_modify _ _ _ (fun _ => rfl) simulates.idle
  · rw [lookup_setValue engine.globals simulates.named name var value entry,simulates.value]
  · rw [← simulates.created]
    exact List.length_modify ..

theorem Simulates.declare (simulates : Simulates functions engine reference) (name : List Byte)
    (short : name.length < 16) (room : (reference.declare name).created ≤ maxVariable) :
    ∃ globals var, globalGetOrCreate engine.globals name = (globals,some var) ∧
      (names globals)[var]? = some name ∧
      Simulates functions {engine with globals := globals} (reference.declare name) := by
  have value : reference.value name = lookup engine.globals name := congrFun simulates.value name
  unfold globalGetOrCreate
  cases found : globalGet engine.globals name with
  | some var =>
    refine ⟨engine.globals,var,rfl,(simulates.named.get_iff name var).mp found,?_⟩
    have same : reference.declare name = reference := by
      rw [lookup,found] at value
      simp [Reference.declare,value]
    rw [same]
    exact simulates
  | none =>
    have absent : reference.value name = none := by rw [value,lookup,found]; rfl
    have grown : reference.declare name = {reference with
        value := Function.update reference.value name (some 0), created := reference.created + 1} := by
      simp [Reference.declare,absent]
    rw [grown] at room ⊢
    have space : ¬ maxVariable ≤ engine.globals.length := by
      have := simulates.created
      dsimp only at room
      omega
    obtain ⟨whole,named⟩ := simulates.named.append name short found
    refine ⟨engine.globals ++ [globalInit name],engine.globals.length,if_neg space,?_,?_⟩
    · have size : (names engine.globals).length = engine.globals.length := List.length_map _
      rw [whole,← size,List.getElem?_concat_length]
    · apply simulates.variables
      · rw [whole]
        exact List.prefix_append _ _
      · exact named
      · intro var member
        rw [List.mem_append,List.mem_singleton] at member
        rcases member with member | rfl
        · exact simulates.idle var member
        · rfl
      · rw [lookup_append engine.globals simulates.named name short found,simulates.value]
      · rw [List.length_append,simulates.created]
        rfl

theorem same_function (distinct : (functions.map Function.name).Nodup) {i j : Nat} {function other : Function}
    (here : functions[i]? = some function) (there : functions[j]? = some other)
    (equal : other.name = function.name) : j = i := by
  obtain ⟨first,rfl⟩ := List.getElem?_eq_some_iff.mp here
  obtain ⟨second,rfl⟩ := List.getElem?_eq_some_iff.mp there
  have same : (functions.map Function.name).get ⟨j,by simpa using second⟩ =
      (functions.map Function.name).get ⟨i,by simpa using first⟩ := by
    rw [List.get_eq_getElem,List.get_eq_getElem,List.getElem_map,List.getElem_map]
    exact equal
  exact distinct.getElem_inj_iff.mp same

theorem Simulates.inside (simulates : Simulates functions engine reference) {i : Nat} {function : Function}
    (here : functions[i]? = some function) : i < engine.functions.length := by
  have sizes := congrArg List.length simulates.loaded
  simp only [signatures,List.length_map] at sizes
  obtain ⟨inside,_⟩ := List.getElem?_eq_some_iff.mp here
  omega

theorem Simulates.rebind (simulates : Simulates functions engine reference)
    (distinct : (functions.map Function.name).Nodup) {i : Nat} {function : Function}
    (here : functions[i]? = some function) (p : Fin 3) (source : Source) (later : Engine)
    (bound : LoadFrom later i p source) (slots : engine.resultFunc <+: later.resultFunc)
    (kept : names engine.globals <+: names later.globals)
    (others : ∀ j q, ¬ (j = i ∧ q = p) → later.loadParamHandle j q = engine.loadParamHandle j q ∧
      paramAt later.functions j q = paramAt engine.functions j q)
    (j : Nat) (other : Function) (there : functions[j]? = some other) (q : Fin 3) :
    LoadFrom later j q ((reference.bindSource function.name p source).source other.name q) := by
  by_cases slot : j = i ∧ q = p
  · obtain ⟨rfl,rfl⟩ := slot
    rw [here] at there
    obtain rfl := Option.some.inj there
    simpa [Reference.bindSource] using bound
  · have same : (reference.bindSource function.name p source).source other.name q =
        reference.source other.name q := by
      dsimp only [Reference.bindSource]
      by_cases equal : other.name = function.name
      · have index := same_function distinct here there equal
        have apart : q ≠ p := fun again => slot ⟨index,again⟩
        rw [equal,Function.update_self,Function.update_of_ne apart]
      · rw [Function.update_of_ne equal]
    obtain ⟨handle,param⟩ := others j q slot
    rw [same]
    exact (simulates.load j other there q).later slots kept handle param

theorem Simulates.register (simulates : Simulates functions engine reference) (var : Nat) (functor : Functor) :
    Simulates functions
      {engine with globals := setType engine.globals var typeInt, resultFunc := engine.resultFunc ++ [functor]}
      {reference with registered := reference.registered + 1} := by
  have retyped := simulates.retype var typeInt
  have same : names (setType engine.globals var typeInt) = names engine.globals := names_modify _ _ _ fun _ => rfl
  exact {
    loaded := simulates.loaded
    named := retyped.named
    idle := retyped.idle
    value := retyped.value
    created := retyped.created
    registered := by rw [List.length_append,simulates.registered]; rfl
    noop := prefix_item _ _ 0 _ (List.prefix_append _ _) simulates.noop
    load := fun j other there q =>
      (simulates.load j other there q).later (List.prefix_append _ _) (by rw [same]) rfl rfl
    store := fun j other there => (simulates.store j other there).later (List.prefix_append _ _) (by rw [same]) rfl}

theorem Simulates.bindSlot (simulates : Simulates functions engine reference)
    (distinct : (functions.map Function.name).Nodup) {i : Nat} {function : Function}
    (here : functions[i]? = some function) (p : Fin 3) (source : Source) (handle : Int) (table : List Function)
    (kept : signatures table = signatures engine.functions)
    (others : ∀ j q, ¬ (j = i ∧ q = p) → paramAt table j q = paramAt engine.functions j q)
    (bound : LoadFrom {engine with
      loadParamHandle := Function.update engine.loadParamHandle i (Function.update (engine.loadParamHandle i) p handle)
      functions := table} i p source) :
    Simulates functions {engine with
      loadParamHandle := Function.update engine.loadParamHandle i (Function.update (engine.loadParamHandle i) p handle)
      functions := table} (reference.bindSource function.name p source) where
  loaded := kept.trans simulates.loaded
  named := simulates.named
  idle := simulates.idle
  value := simulates.value
  created := simulates.created
  registered := simulates.registered
  noop := simulates.noop
  load := simulates.rebind distinct here p source _ bound (List.prefix_refl _) (List.prefix_refl _)
    fun j q apart => ⟨update_other _ _ _ _ _ _ apart,others j q apart⟩
  store := fun j other there =>
    (simulates.store j other there).later (List.prefix_refl _) (List.prefix_refl _) rfl

theorem Simulates.bind (simulates : Simulates functions engine reference)
    (distinct : (functions.map Function.name).Nodup) {i : Nat} {function : Function}
    (here : functions[i]? = some function) (tokens : List (List Byte)) (p : Fin 3)
    (fits : (reference.bind tokens function.name p).Fits) :
    Simulates functions (bindParam tokens i engine p) (reference.bind tokens function.name p) := by
  have inside := simulates.inside here
  unfold bindParam
  unfold Reference.bind at fits ⊢
  cases given : tokens[p.val + 2]? with
  | none => exact simulates
  | some token =>
    simp only [given] at fits ⊢
    have value : reference.value token = lookup engine.globals token := congrFun simulates.value token
    unfold setLoadParam
    cases found : globalGet engine.globals token with
    | none =>
      have absent : reference.value token = none := by rw [value,lookup,found]; rfl
      have still : ¬ (0 : Int) > 0 := Int.lt_irrefl 0
      simp only [absent,if_neg still]
      apply simulates.bindSlot distinct here p
      · exact signatures_setParam ..
      · intro j q apart
        rw [paramAt_setParam _ _ _ _ _ _ inside,if_neg]
        exact fun again => apart ⟨again.1.symm,again.2.symm⟩
      · refine ⟨update_slot ..,?_⟩
        rw [paramAt_setParam _ _ _ _ _ _ inside,if_pos ⟨rfl,rfl⟩]
    | some var =>
      have present : reference.value token = some (valueAt engine.globals var) := by
        rw [value,lookup,found]; rfl
      simp only [present] at fits ⊢
      have count := simulates.registered
      have room : ¬ maxFunc ≤ engine.resultFunc.length := by
        have := fits.2
        dsimp only at this
        omega
      have positive : (engine.resultFunc.length : Int) > 0 := by omega
      unfold addResultFunc
      simp only [if_neg room,if_pos positive]
      have entry := (simulates.named.get_iff token var).mp found
      have same : names (setType engine.globals var typeInt) = names engine.globals :=
        names_modify _ _ _ fun _ => rfl
      apply (simulates.register var (.copy (.param i p) (.global var))).bindSlot distinct here p (.named token)
      · rfl
      · exact fun _ _ _ => rfl
      · refine ⟨engine.resultFunc.length,var,update_slot ..,List.getElem?_concat_length ..,?_⟩
        rw [same]
        exact entry

def Reference.Before (early late : Reference) : Prop :=
  early.created ≤ late.created ∧ early.registered ≤ late.registered

theorem Reference.Before.refl (reference : Reference) : reference.Before reference :=
  ⟨Nat.le_refl _,Nat.le_refl _⟩

theorem Reference.Before.trans {first second third : Reference} (one : first.Before second)
    (two : second.Before third) : first.Before third :=
  ⟨one.1.trans two.1,one.2.trans two.2⟩

theorem Reference.Fits.earlier {early late : Reference} (fits : late.Fits) (before : early.Before late) :
    early.Fits :=
  ⟨before.1.trans fits.1,(Nat.succ_le_succ before.2).trans fits.2⟩

theorem before_fold {α : Type} (step : Reference → α → Reference)
    (each : ∀ (reference : Reference) (x : α), reference.Before (step reference x)) (order : List α) (reference : Reference) :
    reference.Before (order.foldl step reference) := by
  induction order generalizing reference with
  | nil => exact .refl reference
  | cons x order ih => exact (each reference x).trans (ih (step reference x))

theorem bind_before (tokens : List (List Byte)) (function : List Byte) (reference : Reference) (p : Fin 3) :
    reference.Before (reference.bind tokens function p) := by
  unfold Reference.bind
  split
  · exact .refl reference
  · split
    · exact ⟨Nat.le_refl _,Nat.le_refl _⟩
    · exact ⟨Nat.le_refl _,Nat.le_succ _⟩

theorem bindAll_before (tokens : List (List Byte)) (filter : List Byte) (reference : Reference)
    (function : List Byte) : reference.Before (reference.bindAll tokens filter function) := by
  unfold Reference.bindAll
  split
  · exact before_fold _ (bind_before tokens function) _ reference
  · exact .refl reference

theorem declare_before (reference : Reference) (name : List Byte) :
    reference.Before (reference.declare name) := by
  unfold Reference.declare
  split
  · exact .refl reference
  · exact ⟨Nat.le_succ _,Nat.le_refl _⟩

theorem Simulates.function (simulates : Simulates functions engine reference) {i : Nat} {function : Function}
    (here : functions[i]? = some function) :
    ∃ current, engine.functions[i]? = some current ∧ current.name = function.name ∧
      current.call = function.call := by
  have same := congrArg (·[i]?) simulates.loaded
  simp only [signatures,List.getElem?_map,here] at same
  obtain ⟨current,found,equal⟩ := Option.map_eq_some_iff.mp same
  exact ⟨current,found,congrArg Prod.fst equal,congrArg Prod.snd equal⟩

theorem Simulates.bindSlots (distinct : (functions.map Function.name).Nodup) {i : Nat} {function : Function}
    (here : functions[i]? = some function) (tokens : List (List Byte)) (slots : List (Fin 3))
    (simulates : Simulates functions engine reference)
    (fits : (slots.foldl (Reference.bind tokens function.name) reference).Fits) :
    Simulates functions (slots.foldl (bindParam tokens i) engine)
      (slots.foldl (Reference.bind tokens function.name) reference) := by
  induction slots generalizing engine reference with
  | nil => exact simulates
  | cons p slots ih =>
    rw [List.foldl_cons] at fits
    have one := fits.earlier (before_fold _ (bind_before tokens function.name) slots _)
    exact ih (simulates.bind distinct here tokens p one) fits

theorem Simulates.bindFrom (distinct : (functions.map Function.name).Nodup) (tokens : List (List Byte))
    (filter : List Byte) (later : List Function) (start : Nat) (rest : functions.drop start = later)
    (simulates : Simulates functions engine reference)
    (fits : (later.foldl (fun reference function => reference.bindAll tokens filter function.name) reference).Fits) :
    Simulates functions ((List.range' start later.length).foldl (bindFunction tokens filter) engine)
      (later.foldl (fun reference function => reference.bindAll tokens filter function.name) reference) := by
  induction later generalizing start engine reference with
  | nil => exact simulates
  | cons function later ih =>
    rw [List.foldl_cons] at fits
    rw [List.length_cons,List.range'_succ,List.foldl_cons,List.foldl_cons]
    have here : functions[start]? = some function := by
      rw [← List.head?_drop,rest,List.head?_cons]
    have behind : functions.drop (start + 1) = later := by
      rw [← List.tail_drop,rest,List.tail_cons]
    apply ih (start + 1) behind _ fits
    obtain ⟨current,found,name,_⟩ := simulates.function here
    have one := fits.earlier (before_fold _ (fun reference (function : Function) =>
      bindAll_before tokens filter reference function.name) later _)
    unfold Reference.bindAll at one ⊢
    unfold bindFunction
    simp only [found,name]
    by_cases selected : selects filter function.name
    · rw [if_pos selected] at one ⊢
      rw [if_pos selected]
      exact simulates.bindSlots distinct here tokens [0,1,2] one
    · rw [if_neg selected,if_neg selected]
      exact simulates

theorem Simulates.count (simulates : Simulates functions engine reference) :
    engine.functions.length = functions.length := by
  have sizes := congrArg List.length simulates.loaded
  simpa only [signatures,List.length_map] using sizes

theorem Simulates.parameter (simulates : Simulates functions engine reference)
    (distinct : (functions.map Function.name).Nodup) (text : List Byte)
    (fits : (reference.parameter functions text).Fits) :
    Simulates functions (executeParameter text engine) (reference.parameter functions text) := by
  unfold executeParameter
  unfold Reference.parameter at fits ⊢
  dsimp only at fits ⊢
  generalize tokenize 6 text = tokens at fits ⊢
  rcases tokens with _ | ⟨command,_ | ⟨filter,rest⟩⟩
  · exact simulates
  · exact simulates
  · dsimp only at fits ⊢
    rw [simulates.count,List.range_eq_range']
    exact Simulates.bindFrom distinct _ _ functions 0 rfl simulates fits

theorem symbol_found (simulates : Simulates functions engine reference) (name : List Byte) (i : Nat)
    (found : dlfnGetSymbol engine.functions name = some i) :
    ∃ function, functions[i]? = some function ∧ function.name = name := by
  obtain ⟨inside,equal,_⟩ := List.findIdx?_eq_some_iff_getElem.mp found
  have bound : i < functions.length := simulates.count ▸ inside
  obtain ⟨current,there,same,_⟩ := simulates.function (List.getElem?_eq_getElem bound)
  rw [List.getElem?_eq_getElem inside,Option.some_inj] at there
  refine ⟨_,List.getElem?_eq_getElem bound,?_⟩
  rw [← same,← there]
  exact (beq_iff_eq.mp equal).symm

theorem symbol_absent (simulates : Simulates functions engine reference) (name : List Byte)
    (absent : dlfnGetSymbol engine.functions name = none) : name ∉ functions.map Function.name := by
  intro member
  obtain ⟨function,known,rfl⟩ := List.mem_map.mp member
  obtain ⟨i,here⟩ := List.getElem?_of_mem known
  obtain ⟨current,there,same,_⟩ := simulates.function here
  have never := List.findIdx?_eq_none_iff.mp absent current (List.mem_of_getElem? there)
  rw [same] at never
  exact absurd never (by simp)

theorem Simulates.bindResult (simulates : Simulates functions engine reference)
    (distinct : (functions.map Function.name).Nodup) {i : Nat} {function : Function}
    (here : functions[i]? = some function) (name : List Byte) (var : Nat)
    (entry : (names engine.globals)[var]? = some name) (room : reference.registered + 2 ≤ maxFunc) :
    ∃ stored : Engine, addResultFunc {engine with globals := setType engine.globals var typeInt}
        (.copy (.global var) (.result i)) = (stored,(engine.resultFunc.length : Int)) ∧
      Simulates functions
        {stored with saveResultHandle :=
          Function.update stored.saveResultHandle i (engine.resultFunc.length : Int)}
        {reference with
          target := Function.update reference.target function.name (some name)
          registered := reference.registered + 1} := by
  have count := simulates.registered
  have registered := simulates.register var (.copy (.global var) (.result i))
  have same : names (setType engine.globals var typeInt) = names engine.globals := names_modify _ _ _ fun _ => rfl
  have full : ¬ maxFunc ≤ engine.resultFunc.length := by omega
  refine ⟨_,if_neg full,?_⟩
  exact {
    loaded := registered.loaded
    named := registered.named
    idle := registered.idle
    value := registered.value
    created := registered.created
    registered := registered.registered
    noop := registered.noop
    load := fun j other there q =>
      (registered.load j other there q).later (List.prefix_refl _) (List.prefix_refl _) rfl rfl
    store := by
      intro j other there
      by_cases index : j = i
      · subst index
        rw [here,Option.some_inj] at there
        subst there
        dsimp only
        rw [Function.update_self]
        refine ⟨engine.resultFunc.length,var,Function.update_self ..,List.getElem?_concat_length ..,?_⟩
        rw [same]
        exact entry
      · have apart : other.name ≠ function.name := fun equal => index (same_function distinct here there equal)
        dsimp only
        rw [Function.update_of_ne apart]
        exact (registered.store j other there).later (List.prefix_refl _) (List.prefix_refl _)
          (Function.update_of_ne index ..)}

theorem Simulates.result (simulates : Simulates functions engine reference)
    (distinct : (functions.map Function.name).Nodup) (text : List Byte)
    (short : ∀ command function name more,
      tokenize 3 text = command::function::name::more → name.length < 16)
    (fits : (reference.result functions text).Fits) :
    Simulates functions (executeResult text engine) (reference.result functions text) := by
  unfold executeResult
  unfold Reference.result at fits ⊢
  generalize tokenize 3 text = tokens at short fits ⊢
  rcases tokens with _ | ⟨command,_ | ⟨name,_ | ⟨target,rest⟩⟩⟩
  · exact simulates
  · exact simulates
  · exact simulates
  · dsimp only at fits ⊢
    cases found : dlfnGetSymbol engine.functions name with
    | none =>
      rw [if_neg (symbol_absent simulates name found)]
      exact simulates
    | some i =>
      obtain ⟨function,here,rfl⟩ := symbol_found simulates name i found
      have known : function.name ∈ functions.map Function.name :=
        List.mem_map_of_mem (List.mem_of_getElem? here)
      rw [if_pos known] at fits ⊢
      have space := fits.1
      obtain ⟨globals,var,created,entry,declared⟩ := simulates.declare target (short _ _ _ _ rfl) space
      obtain ⟨stored,added,bound⟩ := declared.bindResult distinct here target var entry fits.2
      simp only [setStoreParam,created] at added ⊢
      rw [added]
      exact bound

theorem Simulates.variable_command (simulates : Simulates functions engine reference) (text : List Byte)
    (short : ∀ command name more, tokenize 3 text = command::name::more → name.length < 16)
    (fits : (reference.variables text).Fits) :
    Simulates functions (executeVariable text engine) (reference.variables text) := by
  unfold executeVariable
  unfold Reference.variables at fits ⊢
  generalize tokenize 3 text = tokens at short fits ⊢
  rcases tokens with _ | ⟨command,_ | ⟨name,_ | ⟨value,rest⟩⟩⟩
  · exact simulates
  · exact simulates
  · exact simulates
  · dsimp only at fits ⊢
    obtain ⟨globals,var,created,entry,declared⟩ := simulates.declare name (short _ _ _ rfl) fits.1
    have stored := (declared.assign name var (setValueParam value).2 entry).retype var (setValueParam value).1
    rw [created]
    dsimp only [setType,setValue] at stored
    rw [List.modify_modify_eq] at stored
    exact stored

def newNames (text : List Byte) : List (List Byte) :=
  if firstByte text = 118 then (tokenize 3 text)[1]?.toList
  else if firstByte text = 114 then (tokenize 3 text)[2]?.toList
  else []

def bindingCommand (text : List Byte) : Prop :=
  firstByte text = 112 ∨ firstByte text = 114 ∨ firstByte text = 118

theorem Simulates.command {σ : Type} (library : Library σ) (cycles : Nat → Nat → Nat → UInt64)
    (game : Game σ) (simulates : Simulates functions game.engine reference)
    (distinct : (functions.map Function.name).Nodup) (text : List Byte) (kind : bindingCommand text)
    (short : ∀ name ∈ newNames text, name.length < 16) (fits : (reference.command functions text).Fits) :
    ∃ later, executeAny library cycles game text = .ok later ∧ later.memory = game.memory ∧
      Simulates functions later.engine (reference.command functions text) := by
  unfold Reference.command at fits ⊢
  unfold executeAny
  rcases kind with parameter | result | assigned
  · simp only [parameter,if_true] at fits ⊢
    exact ⟨_,rfl,rfl,simulates.parameter distinct text fits⟩
  · simp only [result] at fits ⊢
    refine ⟨_,rfl,rfl,simulates.result distinct text ?_ fits⟩
    intro command function name more given
    apply short
    simp [newNames,result,given]
  · simp only [assigned] at fits ⊢
    refine ⟨_,rfl,rfl,simulates.variable_command text ?_ fits⟩
    intro command name more given
    apply short
    simp [newNames,assigned,given]

theorem argument_named (simulates : Simulates functions engine reference) (function name : List Byte)
    (p : Fin 3) (var : Nat) (bound : reference.source function p = .named name)
    (entry : (names engine.globals)[var]? = some name) :
    reference.argument function p = valueAt engine.globals var := by
  have found := (simulates.named.get_iff name var).mpr entry
  unfold Reference.argument
  rw [bound,simulates.value]
  simp [lookup,found]

theorem Simulates.loadOne (simulates : Simulates functions engine reference) {i : Nat} {function : Function}
    (here : functions[i]? = some function) (p : Fin 3) :
    ∃ later, functorInvoke engine (engine.loadParamHandle i p) = .ok later ∧
      Simulates functions later reference ∧
      paramAt later.functions i p = reference.argument function.name p ∧
      ∀ q, q ≠ p → paramAt later.functions i q = paramAt engine.functions i q := by
  have load := simulates.load i function here p
  cases bound : reference.source function.name p with
  | constant value =>
    rw [bound] at load
    refine ⟨engine,?_,simulates,?_,fun _ _ => rfl⟩
    · rw [load.1]
      simp [functorInvoke,simulates.noop]
    · rw [load.2,Reference.argument,bound]
  | named name =>
    rw [bound] at load
    obtain ⟨slot,var,handle,functor,entry⟩ := load
    have inside := simulates.inside here
    have written (j : Nat) (q : Fin 3) := paramAt_setParam engine.functions i j p q
      (valueAt engine.globals var) inside
    refine ⟨{engine with functions := setParam engine.functions i p (valueAt engine.globals var)},?_,?_,?_,?_⟩
    · rw [handle]
      simp [functorInvoke,functor,Engine.write,Engine.read]
    · exact {
        loaded := (signatures_setParam ..).trans simulates.loaded
        named := simulates.named
        idle := simulates.idle
        value := simulates.value
        created := simulates.created
        registered := simulates.registered
        noop := simulates.noop
        load := by
          intro j other there q
          have before := simulates.load j other there q
          by_cases slot : i = j ∧ p = q
          · obtain ⟨rfl,rfl⟩ := slot
            rw [here,Option.some_inj] at there
            subst there
            rw [bound] at before ⊢
            exact before
          · exact before.later (List.prefix_refl _) (List.prefix_refl _) rfl ((written j q).trans (if_neg slot))
        store := fun j other there =>
          (simulates.store j other there).later (List.prefix_refl _) (List.prefix_refl _) rfl}
    · rw [written,if_pos ⟨rfl,rfl⟩,argument_named simulates function.name name p var bound entry]
    · intro q apart
      rw [written,if_neg fun again => apart again.2.symm]

theorem Simulates.loadSlots (simulates : Simulates functions engine reference) {i : Nat} {function : Function}
    (here : functions[i]? = some function) (slots : List (Fin 3)) (once : slots.Nodup) :
    ∃ later, slots.foldlM (fun engine p => functorInvoke engine (engine.loadParamHandle i p)) engine = .ok later ∧
      Simulates functions later reference ∧
      (∀ p ∈ slots, paramAt later.functions i p = reference.argument function.name p) ∧
      ∀ q, q ∉ slots → paramAt later.functions i q = paramAt engine.functions i q := by
  induction slots generalizing engine with
  | nil => exact ⟨engine,rfl,simulates,by simp,fun _ _ => rfl⟩
  | cons p slots ih =>
    obtain ⟨fresh,once⟩ := List.nodup_cons.mp once
    obtain ⟨next,invoked,kept,argument,rest⟩ := simulates.loadOne here p
    obtain ⟨later,ok,simulates,arguments,others⟩ := ih kept once
    refine ⟨later,?_,simulates,?_,?_⟩
    · rw [List.foldlM_cons,invoked]
      exact ok
    · intro q member
      rcases List.mem_cons.mp member with rfl | member
      · rw [others q fresh,argument]
      · exact arguments q member
    · intro q outside
      rw [List.mem_cons,not_or] at outside
      rw [others q outside.2,rest q outside.1]

theorem Simulates.loadAll (simulates : Simulates functions engine reference) {i : Nat} {function : Function}
    (here : functions[i]? = some function) :
    ∃ later, callLoadParam i engine = .ok later ∧ Simulates functions later reference ∧
      paramAt later.functions i = reference.argument function.name := by
  obtain ⟨later,ok,kept,arguments,_⟩ := simulates.loadSlots here [0,1,2] (by decide)
  refine ⟨later,ok,kept,?_⟩
  funext p
  apply arguments p
  revert p
  decide

theorem Simulates.storeOne (simulates : Simulates functions engine reference) {i : Nat} {function : Function}
    (here : functions[i]? = some function) (returned : Word) (result : engine.result i = returned) :
    ∃ later, callStoreResult i engine = .ok later ∧
      Simulates functions later (reference.store function.name returned) := by
  have store := simulates.store i function here
  unfold callStoreResult Reference.store
  cases bound : reference.target function.name with
  | none =>
    rw [bound] at store
    refine ⟨engine,?_,simulates⟩
    rw [store]
    simp [functorInvoke,simulates.noop]
  | some name =>
    rw [bound] at store
    obtain ⟨slot,var,handle,functor,entry⟩ := store
    refine ⟨_,?_,simulates.assign name var returned entry⟩
    rw [handle]
    simp [functorInvoke,functor,Engine.write,Engine.read,result]

theorem Simulates.returned (simulates : Simulates functions engine reference) (result : Nat → Word) :
    Simulates functions {engine with result := result} reference where
  loaded := simulates.loaded
  named := simulates.named
  idle := simulates.idle
  value := simulates.value
  created := simulates.created
  registered := simulates.registered
  noop := simulates.noop
  load := fun i function here p =>
    (simulates.load i function here p).later (List.prefix_refl _) (List.prefix_refl _) rfl rfl
  store := fun i function here =>
    (simulates.store i function here).later (List.prefix_refl _) (List.prefix_refl _) rfl

section Frames
variable {σ : Type} (library : Library σ)

theorem Simulates.run (simulates : Simulates functions engine reference) {i : Nat} {function : Function}
    (here : functions[i]? = some function) (memory : σ) :
    ∃ later, frameFunction library engine memory i =
        .ok (later,(reference.run library i function memory).2) ∧
      Simulates functions later (reference.run library i function memory).1 := by
  obtain ⟨full,loaded,kept,arguments⟩ := simulates.loadAll here
  obtain ⟨current,there,_,call⟩ := kept.function here
  have args : current.param = reference.argument function.name := by
    rw [← arguments]
    funext p
    simp [paramAt,there]
  have called : callFunction library full.functions memory i =
      library.call memory function.call (reference.argument function.name) := by
    simp only [callFunction,there,call,args]
  unfold frameFunction Reference.run
  rw [loaded,ok_bind,called,arguments]
  rcases library.call memory function.call (reference.argument function.name) with ⟨memory,returned⟩
  obtain ⟨later,stored,simulates⟩ :=
    (kept.returned (Function.update full.result i returned)).storeOne here returned (Function.update_self ..)
  refine ⟨later,?_,simulates⟩
  dsimp only
  rw [stored]
  rfl

theorem Simulates.frameFrom (later : List Function) (start : Nat) (rest : functions.drop start = later)
    (simulates : Simulates functions engine reference) (memory : σ) :
    ∃ final, frameFrom library (List.range' start later.length) engine memory =
        .ok (final,(reference.frameFrom library start later memory).2) ∧
      Simulates functions final (reference.frameFrom library start later memory).1 := by
  induction later generalizing start engine reference memory with
  | nil => exact ⟨engine,rfl,simulates⟩
  | cons function later ih =>
    have here : functions[start]? = some function := by
      rw [← List.head?_drop,rest,List.head?_cons]
    have behind : functions.drop (start + 1) = later := by
      rw [← List.tail_drop,rest,List.tail_cons]
    obtain ⟨next,ran,simulates⟩ := simulates.run library here memory
    obtain ⟨final,ok,simulates⟩ := ih (start + 1) behind simulates (reference.run library start function memory).2.1
    refine ⟨final,?_,simulates⟩
    rw [List.length_cons,List.range'_succ,Execute.frameFrom,ran,ok_bind]
    dsimp only
    rw [ok,ok_bind]
    rfl

theorem Simulates.frame (simulates : Simulates functions engine reference) (unset : Nat → Word) (memory : σ) :
    ∃ final, frameBody library unset engine memory =
        .ok (final,(reference.frameFrom library 0 functions memory).2) ∧
      Simulates functions final (reference.frameFrom library 0 functions memory).1 := by
  unfold frameBody
  rw [globalVarOps_idle unset engine.globals simulates.idle,simulates.count,List.range_eq_range']
  exact Simulates.frameFrom library functions 0 rfl simulates memory

end Frames

theorem command_before (functions : List Function) (text : List Byte) (reference : Reference) :
    reference.Before (reference.command functions text) := by
  unfold Reference.command
  split
  · unfold Reference.parameter
    split
    · exact before_fold _ (fun reference (function : Function) => bindAll_before _ _ reference function.name) _ _
    · exact .refl reference
  · split
    · unfold Reference.result
      split
      · dsimp only
        split
        · exact (declare_before reference _).trans ⟨Nat.le_refl _,Nat.le_succ _⟩
        · exact .refl reference
      · exact .refl reference
    · split
      · unfold Reference.variables
        split
        · exact declare_before reference _
        · exact .refl reference
      · exact .refl reference

section Runs
variable {σ : Type} (library : Library σ)

theorem store_before (reference : Reference) (function : List Byte) (returned : Word) :
    reference.Before (reference.store function returned) := by
  unfold Reference.store
  split
  · exact .refl reference
  · exact ⟨Nat.le_refl _,Nat.le_refl _⟩

theorem frame_before (later : List Function) (start : Nat) (reference : Reference) (memory : σ) :
    reference.Before (reference.frameFrom library start later memory).1 := by
  induction later generalizing start reference memory with
  | nil => exact .refl reference
  | cons function later ih =>
    exact (store_before reference function.name _).trans (ih (start + 1) _ _)

theorem play_before (functions : List Function) (events : List Event) (reference : Reference) (memory : σ) :
    reference.Before (Reference.play library functions events reference memory).1 := by
  induction events generalizing reference memory with
  | nil => exact .refl reference
  | cons event later ih =>
    cases event with
    | command text => exact (command_before functions text reference).trans (ih _ _)
    | frame => exact (frame_before library functions 0 reference memory).trans (ih _ _)

theorem Simulates.play (cycles : Nat → Nat → Nat → UInt64) (unset : Nat → Word) (events : List Event)
    (game : Game σ) (simulates : Simulates functions game.engine reference)
    (distinct : (functions.map Function.name).Nodup)
    (kinds : ∀ text, .command text ∈ events → bindingCommand text)
    (short : ∀ text, .command text ∈ events → ∀ name ∈ newNames text, name.length < 16)
    (fits : (Reference.play library functions events reference game.memory).1.Fits) :
    ∃ final : Game σ, play library cycles unset events game =
        .ok (final,(Reference.play library functions events reference game.memory).2.2) ∧
      final.memory = (Reference.play library functions events reference game.memory).2.1 ∧
      Simulates functions final.engine (Reference.play library functions events reference game.memory).1 := by
  induction events generalizing game reference with
  | nil => exact ⟨game,rfl,rfl,simulates⟩
  | cons event later ih =>
    have kinds' := fun text member => kinds text (List.mem_cons_of_mem _ member)
    have short' := fun text member => short text (List.mem_cons_of_mem _ member)
    cases event with
    | command text =>
      have one := fits.earlier (play_before library functions later (reference.command functions text) game.memory)
      obtain ⟨next,ran,memory,simulates⟩ := simulates.command library cycles game distinct text
        (kinds text List.mem_cons_self) (short text List.mem_cons_self) one
      rw [Reference.play,← memory] at fits ⊢
      obtain ⟨final,ok,rest⟩ := ih next simulates kinds' short' fits
      refine ⟨final,?_,rest⟩
      rw [Bindings.play,ran]
      exact ok
    | frame =>
      obtain ⟨engine,ran,simulates⟩ := simulates.frame library unset game.memory
      rw [Reference.play] at fits ⊢
      obtain ⟨final,ok,rest⟩ :=
        ih ⟨engine,(reference.frameFrom library 0 functions game.memory).2.1,game.simulationGoal⟩
          simulates kinds' short' fits
      refine ⟨final,?_,rest⟩
      rw [Bindings.play,ran,ok_bind]
      dsimp only
      rw [ok]
      rfl

end Runs

theorem opened_param {σ : Type} (library : Library σ) (i : Nat) (p : Fin 3) :
    paramAt (dlfnOpen library).1 i p = 0 := by
  unfold paramAt
  cases found : (dlfnOpen library).1[i]? with
  | none => rfl
  | some function =>
    have member := List.mem_mergeSort.mp (List.mem_of_getElem? found)
    obtain ⟨symbol,_,rfl⟩ := List.mem_map.mp member
    rfl

theorem Simulates.start {σ : Type} (library : Library σ) :
    Simulates (dlfnOpen library).1 (openSession library .boot) .start where
  loaded := rfl
  named := ⟨by simp [openSession,executeInit,Engine.boot,names],List.nodup_nil⟩
  idle := by simp [openSession,executeInit,Engine.boot]
  value := rfl
  created := rfl
  registered := rfl
  noop := rfl
  load := fun i _ _ p => ⟨rfl,opened_param library i p⟩
  store := fun _ _ _ => rfl

/-- The first session of a process is the interpreter by names: every frame makes
the same calls, and every variable holds the same value. -/
theorem bindings_by_name {σ : Type} (library : Library σ) (cycles : Nat → Nat → Nat → UInt64)
    (unset : Nat → Word) (events : List Event)
    (distinct : ((dlfnOpen library).1.map Function.name).Nodup)
    (kinds : ∀ text, .command text ∈ events → bindingCommand text)
    (short : ∀ text, .command text ∈ events → ∀ name ∈ newNames text, name.length < 16)
    (reference : Reference) (memory : σ) (frames : List (List Call))
    (played : Reference.play library (dlfnOpen library).1 events .start library.init = (reference,memory,frames))
    (fits : reference.Fits) :
    ∃ final, play library cycles unset events ⟨openSession library .boot,library.init,0⟩ = .ok (final,frames) ∧
      final.memory = memory ∧ ∀ name, lookup final.engine.globals name = reference.value name := by
  obtain ⟨final,ok,same,simulates⟩ := Simulates.play library cycles unset events
    ⟨openSession library .boot,library.init,0⟩ (.start library) distinct kinds short (by rwa [played])
  rw [played] at ok same simulates
  refine ⟨final,ok,same,?_⟩
  intro name
  rw [simulates.value]

/-- "v x 5", "p f x 2", "r f x", and two frames. -/
def sumEvents : List Event :=
  [.command [118,32,120,32,53],.command [112,32,102,32,120,32,50],.command [114,32,102,32,120],.frame,.frame]

theorem bindings_by_name_sum :
    ∃ final frames, play sumLibrary (fun _ _ _ => 0) (fun _ => 0) sumEvents
        ⟨openSession sumLibrary .boot,(),0⟩ = .ok (final,frames) ∧
      frames.map (·.map Call.returned) = [[7],[9]] ∧ lookup final.engine.globals [120] = some 9 := by
  obtain ⟨final,ok,_,values⟩ := bindings_by_name sumLibrary (fun _ _ _ => 0) (fun _ => 0) sumEvents
    (by rw [sumLibrary_functions]; decide)
    (by simp [sumEvents,bindingCommand,firstByte])
    (by simp [sumEvents]; decide)
    _ _ _ rfl (by rw [sumLibrary_functions]; unfold Reference.Fits; decide)
  refine ⟨final,_,ok,?_,?_⟩
  · rw [sumLibrary_functions]
    decide
  · rw [values,sumLibrary_functions]
    decide

end Steps

end Craftsman.Bindings
