import Craftsman.Handles

/-! What a parameter command leaves alone. -/
namespace Craftsman.ParameterFrame
open Craftsman.Memory Craftsman.Text Craftsman.Global Craftsman.Dlfn Craftsman.Execute Craftsman.Handles

/-- The command binds parameter `p` of function `f`: the name selects the function and
there is a token for the parameter. -/
def Bound (text : List Byte) (engine : Engine) (f : Nat) (p : Fin 3) : Prop :=
  ∃ filter token function, (tokenize 6 text)[1]? = some filter ∧ (tokenize 6 text)[p.val + 2]? = some token ∧
    engine.functions[f]? = some function ∧ selects filter function.name = true

/-- Only the touched parameters and their handles differ, and functors are appended. -/
structure Framed (touched : Nat → Fin 3 → Prop) (before later : Engine) : Prop where
  signatures : signatures later.functions = signatures before.functions
  params : ∀ f p, ¬ touched f p → paramAt later.functions f p = paramAt before.functions f p
  handles : ∀ f p, ¬ touched f p → later.loadParamHandle f p = before.loadParamHandle f p
  globals : later.globals = before.globals
  functors : before.resultFunc <+: later.resultFunc
  stores : later.saveResultHandle = before.saveResultHandle
  results : later.result = before.result
  objects : later.objects = before.objects

/-- Every bound token that names a variable names one of type 'i' already. -/
def Settled (text : List Byte) (engine : Engine) : Prop :=
  ∀ f p token var, Bound text engine f p → (tokenize 6 text)[p.val + 2]? = some token →
    globalGet engine.globals token = some var → typeAt engine.globals var = typeInt

theorem Framed.refl (touched : Nat → Fin 3 → Prop) (engine : Engine) : Framed touched engine engine :=
  ⟨rfl,fun _ _ _ => rfl,fun _ _ _ => rfl,rfl,List.prefix_refl _,rfl,rfl,rfl⟩

theorem Framed.trans {touched : Nat → Fin 3 → Prop} {first second third : Engine}
    (one : Framed touched first second) (two : Framed touched second third) : Framed touched first third where
  signatures := two.signatures.trans one.signatures
  params f p free := (two.params f p free).trans (one.params f p free)
  handles f p free := (two.handles f p free).trans (one.handles f p free)
  globals := two.globals.trans one.globals
  functors := one.functors.trans two.functors
  stores := two.stores.trans one.stores
  results := two.results.trans one.results
  objects := two.objects.trans one.objects

theorem setType_settled (globals : List Variable) (var : Nat) (type : Byte) (settled : typeAt globals var = type) :
    setType globals var type = globals := by
  apply List.ext_getElem?
  intro i
  unfold setType
  rw [List.getElem?_modify]
  by_cases same : var = i
  · subst same
    unfold typeAt at settled
    cases found : globals[var]? with
    | none => rfl
    | some entry =>
      rw [found] at settled
      subst settled
      simp
  · cases globals[i]? <;> simp [same]

theorem typeAt_setType (globals : List Variable) (var : Nat) (type : Byte) (i : Nat) (inside : var < globals.length) :
    typeAt (setType globals var type) i = if var = i then type else typeAt globals i := by
  unfold typeAt setType
  rw [List.getElem?_modify]
  by_cases same : var = i
  · subst same
    simp [List.getElem?_eq_getElem inside]
  · simp [same]

theorem Framed.wider {touched more : Nat → Fin 3 → Prop} {before later : Engine} (framed : Framed touched before later)
    (wider : ∀ f p, touched f p → more f p) : Framed more before later :=
  {framed with
    params := fun f p free => framed.params f p fun is_touched => free (wider f p is_touched)
    handles := fun f p free => framed.handles f p fun is_touched => free (wider f p is_touched)}

/-- The variables behind a load: the one it names becomes an integer. -/
def retyped (token : List Byte) (globals : List Variable) : List Variable :=
  match globalGet globals token with
  | none => globals
  | some var => setType globals var typeInt

theorem setLoadParam_framed (token : List Byte) (slot : Loc) (engine : Engine) :
    Framed (fun _ _ => False) {engine with globals := retyped token engine.globals} (setLoadParam token slot engine).1 := by
  unfold setLoadParam retyped
  cases globalGet engine.globals token with
  | none => exact .refl _ _
  | some var =>
    unfold addResultFunc
    dsimp only
    split
    · exact .refl _ _
    · exact {Framed.refl (fun _ _ => False) _ with functors := List.prefix_append _ _}

theorem paramAt_setParam_other (functions : List Function) (i j : Nat) (p q : Fin 3) (value : Word)
    (apart : ¬ (j = i ∧ q = p)) : paramAt (setParam functions i p value) j q = paramAt functions j q := by
  unfold paramAt setParam
  rw [List.getElem?_modify]
  by_cases same : i = j
  · subst same
    have slot : q ≠ p := fun again => apart ⟨rfl,again⟩
    cases functions[i]? <;> simp [Function.update_of_ne slot]
  · cases functions[j]? <;> simp [same]

theorem bindParam_framed (tokens : List (List Byte)) (fi : Nat) (engine : Engine) (p : Fin 3) (token : List Byte)
    (supplied : tokens[p.val + 2]? = some token) :
    Framed (fun f q => f = fi ∧ q = p) {engine with globals := retyped token engine.globals}
      (bindParam tokens fi engine p) := by
  have loaded := setLoadParam_framed token (.param fi p) engine
  unfold bindParam
  rw [supplied]
  dsimp only
  generalize setLoadParam token (.param fi p) engine = bound at loaded
  refine .trans (loaded.wider fun _ _ => False.elim) ?_
  have handled : Framed (fun f q => f = fi ∧ q = p) bound.1 {bound.1 with
      loadParamHandle := Function.update bound.1.loadParamHandle fi
        (Function.update (bound.1.loadParamHandle fi) p bound.2)} :=
    {Framed.refl _ bound.1 with handles := fun f q free => update_other _ _ _ _ _ _ free}
  split
  · exact handled
  · refine handled.trans ?_
    exact {Framed.refl _ _ with
      signatures := signatures_setParam _ _ _ _
      params := fun f q free => paramAt_setParam_other _ _ _ _ _ _ free}

theorem signature_at {functions others : List Function} {fi : Nat} {function : Function}
    (same : signatures functions = signatures others) (found : functions[fi]? = some function) :
    ∃ other, others[fi]? = some other ∧ other.name = function.name := by
  have here := congrArg (·[fi]?) same
  simp only [signatures,List.getElem?_map,found,Option.map_some] at here
  obtain ⟨other,there,equal⟩ := Option.map_eq_some_iff.mp here.symm
  exact ⟨other,there,(Prod.mk.inj equal).1⟩

section Command
variable (text : List Byte) (engine : Engine)

theorem bindParam_settled (later : Engine) (fi : Nat) (p : Fin 3)
    (selected : ∀ token, (tokenize 6 text)[p.val + 2]? = some token → Bound text engine fi p)
    (settled : Settled text engine) (framed : Framed (Bound text engine) engine later) :
    Framed (Bound text engine) engine (bindParam (tokenize 6 text) fi later p) := by
  cases supplied : (tokenize 6 text)[p.val + 2]? with
  | none =>
    unfold bindParam
    rw [supplied]
    exact framed
  | some token =>
    have step := bindParam_framed (tokenize 6 text) fi later p token supplied
    have still : retyped token later.globals = later.globals := by
      unfold retyped
      rw [framed.globals]
      cases found : globalGet engine.globals token with
      | none => rfl
      | some var => exact setType_settled _ var _ (settled fi p token var (selected token supplied) supplied found)
    rw [still] at step
    refine framed.trans (step.wider ?_)
    rintro f q ⟨rfl,rfl⟩
    exact selected token supplied

theorem bindFunction_settled (filter : List Byte) (later : Engine) (fi : Nat) (named : (tokenize 6 text)[1]? = some filter)
    (settled : Settled text engine) (framed : Framed (Bound text engine) engine later) :
    Framed (Bound text engine) engine (bindFunction (tokenize 6 text) filter later fi) := by
  unfold bindFunction
  cases found : later.functions[fi]? with
  | none => exact framed
  | some function =>
    dsimp only
    split
    · next selected =>
      obtain ⟨other,there,same⟩ := signature_at framed.signatures found
      rw [← same] at selected
      apply List.foldlRecOn (motive := fun (later : Engine) => Framed (Bound text engine) engine later) _ _ framed
      intro later framed p _
      exact bindParam_settled text engine later fi p
        (fun token supplied => ⟨filter,token,other,named,supplied,there,selected⟩) settled framed
    · exact framed

theorem executeParameter_settled (settled : Settled text engine) :
    Framed (Bound text engine) engine (executeParameter text engine) := by
  unfold executeParameter
  dsimp only
  split
  · next command filter rest tokens =>
    apply List.foldlRecOn (motive := fun (later : Engine) => Framed (Bound text engine) engine later) _ _ (.refl _ _)
    intro later framed fi _
    exact bindFunction_settled text engine filter later fi (by rw [tokens]; rfl) settled framed
  · exact .refl _ _

end Command

/-- Names and integers stay. -/
structure Retyped (before later : Engine) : Prop where
  signatures : signatures later.functions = signatures before.functions
  names : names later.globals = names before.globals
  ints : ∀ i, typeAt before.globals i = typeInt → typeAt later.globals i = typeInt

theorem Retyped.refl (engine : Engine) : Retyped engine engine := ⟨rfl,rfl,fun _ int => int⟩

theorem Retyped.trans {first second third : Engine} (one : Retyped first second) (two : Retyped second third) :
    Retyped first third :=
  ⟨two.signatures.trans one.signatures,two.names.trans one.names,fun i int => two.ints i (one.ints i int)⟩

theorem foldl_retyped {α : Type} (step : Engine → α → Engine) (steps : ∀ engine x, Retyped engine (step engine x))
    (items : List α) (engine : Engine) : Retyped engine (items.foldl step engine) := by
  apply List.foldlRecOn (motive := fun (later : Engine) => Retyped engine later) _ _ (.refl _)
  exact fun later kept x _ => kept.trans (steps later x)

theorem foldl_split {α : Type} (step : Engine → α → Engine) (steps : ∀ engine x, Retyped engine (step engine x))
    (items : List α) (x : α) (member : x ∈ items) (engine : Engine) :
    ∃ before, Retyped engine before ∧ Retyped (step before x) (items.foldl step engine) := by
  obtain ⟨front,rest,rfl⟩ := List.append_of_mem member
  refine ⟨front.foldl step engine,foldl_retyped step steps front engine,?_⟩
  rw [List.foldl_append,List.foldl_cons]
  exact foldl_retyped step steps rest _

section Types
variable (tokens : List (List Byte)) (filter : List Byte)

theorem retyped_names (token : List Byte) (globals : List Variable) : names (retyped token globals) = names globals := by
  unfold retyped
  split
  · rfl
  · exact names_modify _ _ _ fun _ => rfl

theorem retyped_ints (token : List Byte) (globals : List Variable) (i : Nat) (int : typeAt globals i = typeInt) :
    typeAt (retyped token globals) i = typeInt := by
  unfold retyped
  split
  · exact int
  · next var found =>
    rw [typeAt_setType _ _ _ _ (globalGet_inside _ _ _ found),int,ite_self]

theorem bindParam_retyped (fi : Nat) (engine : Engine) (p : Fin 3) : Retyped engine (bindParam tokens fi engine p) := by
  cases supplied : tokens[p.val + 2]? with
  | none =>
    unfold bindParam
    rw [supplied]
    exact .refl engine
  | some token =>
    have framed := bindParam_framed tokens fi engine p token supplied
    refine ⟨framed.signatures,?_,fun i int => ?_⟩
    · rw [framed.globals]
      exact retyped_names token engine.globals
    · rw [framed.globals]
      exact retyped_ints token engine.globals i int

theorem bindParam_int (fi : Nat) (engine : Engine) (p : Fin 3) (token : List Byte) (var : Nat)
    (supplied : tokens[p.val + 2]? = some token)
    (found : globalGet engine.globals token = some var) :
    typeAt (bindParam tokens fi engine p).globals var = typeInt := by
  rw [(bindParam_framed tokens fi engine p token supplied).globals]
  dsimp only
  rw [retyped,found]
  dsimp only
  rw [typeAt_setType _ _ _ _ (globalGet_inside _ _ _ found),if_pos rfl]

theorem bindFunction_retyped (engine : Engine) (fi : Nat) : Retyped engine (bindFunction tokens filter engine fi) := by
  unfold bindFunction
  split
  · exact .refl _
  · split
    · exact foldl_retyped _ (bindParam_retyped tokens fi) _ engine
    · exact .refl _

end Types

theorem executeParameter_ints (text : List Byte) (engine : Engine) (f : Nat) (p : Fin 3) (token : List Byte) (var : Nat)
    (bound : Bound text engine f p) (supplied : (tokenize 6 text)[p.val + 2]? = some token)
    (found : globalGet engine.globals token = some var) :
    typeAt (executeParameter text engine).globals var = typeInt := by
  obtain ⟨filter,_,function,named,_,there,selected⟩ := bound
  rcases tokens : tokenize 6 text with _ | ⟨command,_ | ⟨name,rest⟩⟩
  · rw [tokens] at named
    cases named
  · rw [tokens] at named
    cases named
  · obtain rfl : name = filter := by
      rw [tokens] at named
      exact Option.some.inj named
    unfold executeParameter
    rw [tokens] at supplied ⊢
    dsimp only
    have inside := (List.getElem?_eq_some_iff.mp there).1
    obtain ⟨before,kept,after⟩ := foldl_split _ (bindFunction_retyped (command::name::rest) name)
      (List.range engine.functions.length) f (List.mem_range.mpr inside) engine
    apply after.ints
    obtain ⟨other,here,same⟩ := signature_at kept.signatures.symm there
    rw [← same] at selected
    rw [bindFunction,here]
    dsimp only
    rw [if_pos selected]
    have slots : ∀ p : Fin 3, p ∈ ([0,1,2] : List (Fin 3)) := by decide
    obtain ⟨middle,still,last⟩ := foldl_split _ (bindParam_retyped (command::name::rest) f) [0,1,2] p (slots p) before
    apply last.ints
    apply bindParam_int _ f middle p token var supplied
    rw [globalGet_congr _ _ token (still.names.trans kept.names)]
    exact found

/-- A parameter command touches nothing but its parameters, their handles and the end of
the functor table exactly when every variable it names is an integer already. -/
theorem parameter_frame (text : List Byte) (engine : Engine) :
    Framed (Bound text engine) engine (executeParameter text engine) ↔ Settled text engine := by
  refine ⟨fun framed f p token var bound supplied found => ?_,executeParameter_settled text engine⟩
  rw [← framed.globals]
  exact executeParameter_ints text engine f p token var bound supplied found

/-- The engine after "v x 1.5". -/
def halfEngine : Engine := executeVariable [118,32,120,32,49,46,53] (openSession sumLibrary .boot)

/-- "p f x" makes the variable an integer, with the bits of the double. -/
theorem parameter_retypes :
    ∃ process : Process Unit, Reached process ∧ process.point = .commands ∧
      process.game.engine.globals.map Variable.type = [typeDouble] ∧
      (executeParameter [112,32,102,32,120] process.game.engine).globals.map Variable.type = [typeInt] ∧
      ¬ Framed (Bound [112,32,102,32,120] process.game.engine) process.game.engine
        (executeParameter [112,32,102,32,120] process.game.engine) := by
  have first := Reached.boot sumLibrary
  have half := Reached.command _ (fun _ _ _ => 0) [118,32,120,32,49,46,53] _ first rfl rfl
  have before : halfEngine.globals.map Variable.type = [typeDouble] := by
    unfold halfEngine openSession
    rw [sumLibrary_functions]
    rfl
  have later : (executeParameter [112,32,102,32,120] halfEngine).globals.map Variable.type = [typeInt] := by
    unfold halfEngine openSession
    rw [sumLibrary_functions]
    rfl
  refine ⟨_,half,rfl,before,later,fun framed => ?_⟩
  have same := later.symm.trans ((congrArg (List.map Variable.type) framed.globals).trans before)
  exact absurd same (by decide)

end Craftsman.ParameterFrame
