import Craftsman.Execute
import Craftsman.Stream.Rounds

/-! The little language of the variables. A variable is given a value, or a rule that
every simulated frame applies to it; the table keeps pointers to its own entries, and
the interpreter here keeps names. -/
namespace Craftsman.Mutations
open Craftsman.Memory Craftsman.Text Craftsman.Global Craftsman.Dlfn Craftsman.Execute
open Craftsman.Stream.Rounds (prefix_item)

inductive Term where
  | named (name : List Byte)
  | constant (type : Byte) (value : Word)

/-- The second operand of a rule; the first is the variable that it belongs to. -/
structure Rule where
  opcode : Byte
  right : Term

/-- Values and rules by name, and the names in the order in which they were made. -/
structure Store where
  cell : List Byte → Option (Byte × Word)
  rule : List Byte → Option Rule
  order : List (List Byte)

def Store.empty : Store := ⟨fun _ => none,fun _ => none,[]⟩

def Store.write (store : Store) (name : List Byte) (type : Byte) (value : Word) : Store :=
  {store with cell := Function.update store.cell name (some (type,value))}

def Store.govern (store : Store) (name : List Byte) (rule : Option Rule) : Store :=
  {store with rule := Function.update store.rule name rule}

/-- A token names a variable that exists, or is a number. -/
def Store.term (store : Store) (token : List Byte) : Term :=
  match store.cell token with
  | some _ => .named token
  | none => .constant (setValueParam token).1 (setValueParam token).2

def Store.value (store : Store) : Term → Byte × Word
  | .named name => (store.cell name).getD (0,0)
  | .constant type value => (type,value)

/-- Two integers, or two doubles; of anything else only the type is known. -/
def operate (opcode : Byte) (left right : Byte × Word) : Byte × Option Word :=
  if left.1 &&& right.1 = typeInt then (left.1 &&& right.1,some (performOpInt opcode left.2 right.2))
  else if left.1 &&& right.1 = typeDouble then
    (left.1 &&& right.1,some (performOpDouble opcode (Float.ofBits left.2) (Float.ofBits right.2)).toBits)
  else (left.1 &&& right.1,none)

def Store.assignment (store : Store) (text : List Byte) : Store :=
  match tokenize 3 text with
  | _::name::value::_ =>
    match store.cell name with
    | some _ => store.write name (setValueParam value).1 (setValueParam value).2
    | none =>
      if maxVariable ≤ store.order.length then store
      else {store.write name (setValueParam value).1 (setValueParam value).2 with order := store.order ++ [name]}
  | _ => store

/-- A rule without an operator takes the old rule away. -/
def Store.mutation (store : Store) (text : List Byte) : Store :=
  match tokenize 4 text with
  | _::left::opcode::right::_ =>
    match store.cell left with
    | none => store
    | some _ => store.govern left (if firstByte opcode = 0 then none else some ⟨firstByte opcode,store.term right⟩)
  | _ => store

def Store.condition (store : Store) (text : List Byte) : Option (Byte × Option Word) :=
  match tokenize 4 text with
  | _::left::opcode::right::_ =>
    some (operate (firstByte opcode) (store.value (store.term left)) (store.value (store.term right)))
  | _ => none

def Store.apply (unset : Word) (name : List Byte) (store : Store) : Store :=
  match store.rule name with
  | none => store
  | some rule =>
    let (type,value) := operate rule.opcode ((store.cell name).getD (0,0)) (store.value rule.right)
    store.write name type (value.getD unset)

/-- The rules in the order of the names; each sees what the earlier ones wrote. -/
def Store.passFrom (unset : Nat → Word) : Nat → List (List Byte) → Store → Store
  | _,[],store => store
  | i,name::later,store => Store.passFrom unset (i + 1) later (store.apply (unset i) name)

def Store.pass (unset : Nat → Word) (store : Store) : Store := Store.passFrom unset 0 store.order store

/-- What `execute_condition` prints. -/
def executeCondition (text : List Byte) (globals : List Variable) : Option (Byte × Option Word) :=
  match tokenize 4 text with
  | _::left::opcode::right::_ =>
    let operand (token : List Byte) := match globalGet globals token with
      | some var => Operand.var var
      | none => .constant (setValueParam token).1 (setValueParam token).2
    some (performOp globals ⟨firstByte opcode,operand left,operand right⟩)
  | _ => none

inductive Statement where
  | assignment (text : List Byte)
  | mutation (text : List Byte)
  | frame (unset : Nat → Word)

def execute (engine : Engine) : Statement → Engine
  | .assignment text => executeVariable text engine
  | .mutation text => executeMutation text engine
  | .frame unset => {engine with globals := globalVarOps unset engine.globals}

def Store.execute (store : Store) : Statement → Store
  | .assignment text => store.assignment text
  | .mutation text => store.mutation text
  | .frame unset => store.pass unset

/-- A name that the table does not cut off. -/
def Statement.Short : Statement → Prop
  | .assignment text => ∀ command name rest, tokenize 3 text = command::name::rest → name.length < 16
  | _ => True

def Refers (names : List (List Byte)) : Operand → Term → Prop
  | .var j,.named name => names[j]? = some name
  | .constant type value,.constant type' value' => type = type' ∧ value = value'
  | _,_ => False

def Obeys (names : List (List Byte)) (i : Nat) (op : Op) : Option Rule → Prop
  | none => op.opcode = 0
  | some rule => rule.opcode ≠ 0 ∧ op.opcode = rule.opcode ∧ op.left = .var i ∧ Refers names op.right rule.right

/-- The table holds what the store says. -/
structure Mirrors (globals : List Variable) (store : Store) : Prop where
  named : Named globals
  order : names globals = store.order
  entry : ∀ (i : Nat) var, globals[i]? = some var → store.cell var.name = some (var.type,var.value) ∧
    Obeys (names globals) i var.op (store.rule var.name)
  absent : ∀ name, name ∉ names globals → store.cell name = none ∧ store.rule name = none

theorem Refers.grow {names later : List (List Byte)} {operand : Operand} {term : Term} (refers : Refers names operand term)
    (front : names <+: later) : Refers later operand term := by
  cases operand with
  | var j =>
    cases term with
    | named name => exact prefix_item names later j name front refers
    | constant type value => exact refers
  | constant type value =>
    cases term with
    | named name => exact refers
    | constant type' value' => exact refers

theorem Obeys.grow {names later : List (List Byte)} {i : Nat} {op : Op} {rule : Option Rule}
    (obeys : Obeys names i op rule) (front : names <+: later) : Obeys later i op rule := by
  cases rule with
  | none => exact obeys
  | some rule =>
    obtain ⟨some_op,opcode,left,right⟩ := obeys
    exact ⟨some_op,opcode,left,right.grow front⟩

theorem mirrors_empty : Mirrors [] .empty where
  named := ⟨fun _ member => absurd member List.not_mem_nil,List.nodup_nil⟩
  order := rfl
  entry := fun i var found => by cases found
  absent := fun _ _ => ⟨rfl,rfl⟩

variable {globals : List Variable} {store : Store}

theorem names_entry (globals : List Variable) (i : Nat) : (names globals)[i]? = globals[i]?.map Variable.name :=
  List.getElem?_map

/-- A variable found by its name, and what the store has of it. -/
theorem Mirrors.found (mirrors : Mirrors globals store) (name : List Byte) (i : Nat)
    (get : globalGet globals name = some i) :
    ∃ var, globals[i]? = some var ∧ var.name = name ∧ store.cell name = some (var.type,var.value) := by
  have there := (mirrors.named.get_iff name i).mp get
  rw [names_entry] at there
  obtain ⟨var,here,rfl⟩ := Option.map_eq_some_iff.mp there
  exact ⟨var,here,rfl,(mirrors.entry i var here).1⟩

theorem Mirrors.missing (mirrors : Mirrors globals store) (name : List Byte) (get : globalGet globals name = none) :
    store.cell name = none ∧ store.rule name = none :=
  mirrors.absent name ((mirrors.named.get_none name).mp get)

theorem Mirrors.lookup (mirrors : Mirrors globals store) (name : List Byte) :
    (globalGet globals name).map (fun i => (typeAt globals i,valueAt globals i)) = store.cell name := by
  cases get : globalGet globals name with
  | none => exact (mirrors.missing name get).1.symm
  | some i =>
    obtain ⟨var,here,_,cell⟩ := mirrors.found name i get
    rw [cell,Option.map_some,typeAt,valueAt,here]
    rfl

theorem Mirrors.operand (mirrors : Mirrors globals store) (token : List Byte) :
    Refers (names globals) (match globalGet globals token with
      | some var => Operand.var var
      | none => .constant (setValueParam token).1 (setValueParam token).2) (store.term token) := by
  unfold Store.term
  cases get : globalGet globals token with
  | none =>
    rw [(mirrors.missing token get).1]
    exact ⟨rfl,rfl⟩
  | some i =>
    obtain ⟨var,here,same,cell⟩ := mirrors.found token i get
    rw [cell]
    exact (mirrors.named.get_iff token i).mp get

theorem Mirrors.read (mirrors : Mirrors globals store) (operand : Operand) (term : Term)
    (refers : Refers (names globals) operand term) : operand.read globals = store.value term := by
  cases operand with
  | var j =>
    cases term with
    | named name =>
      have there : (names globals)[j]? = some name := refers
      rw [names_entry] at there
      obtain ⟨var,here,rfl⟩ := Option.map_eq_some_iff.mp there
      rw [Operand.read,Store.value,(mirrors.entry j var here).1,typeAt,valueAt,here]
      rfl
    | constant type value => exact absurd refers id
  | constant type value =>
    cases term with
    | named name => exact absurd refers id
    | constant type' value' =>
      obtain ⟨rfl,rfl⟩ := refers
      rfl

theorem performOp_operate (globals : List Variable) (op : Op) :
    performOp globals op = operate op.opcode (op.left.read globals) (op.right.read globals) := rfl

/-- One entry changes, and with it what the store says of its name. -/
theorem Mirrors.change (mirrors : Mirrors globals store) (later : List Variable) (i : Nat) (var changed : Variable)
    (rule : Option Rule) (here : globals[i]? = some var) (now : later[i]? = some changed)
    (others : ∀ j : Nat, j ≠ i → later[j]? = globals[j]?) (same : changed.name = var.name)
    (obeys : Obeys (names globals) i changed.op rule) :
    Mirrors later ((store.write var.name changed.type changed.value).govern var.name rule) := by
  have unchanged : names later = names globals := by
    apply List.ext_getElem?
    intro j
    rw [names_entry,names_entry]
    rcases eq_or_ne j i with rfl | apart
    · rw [now,here,Option.map_some,Option.map_some,same]
    · rw [others j apart]
  refine ⟨?_,unchanged.trans mirrors.order,?_,?_⟩
  · exact ⟨by rw [unchanged]; exact mirrors.named.short,by rw [unchanged]; exact mirrors.named.distinct⟩
  · intro j entry found
    rw [unchanged]
    rcases eq_or_ne j i with rfl | apart
    · cases now.symm.trans found
      rw [same]
      simpa [Store.write,Store.govern] using obeys
    · rw [others j apart] at found
      have other : entry.name ≠ var.name := by
        intro equal
        have first : (names globals)[j]? = some var.name := by rw [names_entry,found,Option.map_some,equal]
        have second : (names globals)[i]? = some var.name := by rw [names_entry,here,Option.map_some]
        obtain ⟨inside,_⟩ := List.getElem?_eq_some_iff.mp first
        exact apart ((List.getElem?_inj inside mirrors.named.distinct).mp (first.trans second.symm))
      simpa [Store.write,Store.govern,other] using mirrors.entry j entry found
  · intro name missing
    rw [unchanged] at missing
    have other : name ≠ var.name := by
      rintro rfl
      apply missing
      apply List.mem_of_getElem? (i := i)
      rw [names_entry,here,Option.map_some]
    simpa [Store.write,Store.govern,other] using mirrors.absent name missing

theorem write_govern (store : Store) (name : List Byte) (type : Byte) (value : Word) :
    (store.write name type value).govern name (store.rule name) = store.write name type value := by
  change {store.write name type value with rule := Function.update store.rule name (store.rule name)} = _
  rw [Function.update_eq_self]
  rfl

theorem getElem?_modify_self (globals : List Variable) (i : Nat) (var : Variable) (change : Variable → Variable)
    (here : globals[i]? = some var) : (globals.modify i change)[i]? = some (change var) := by
  rw [List.getElem?_modify,here]
  simp

theorem getElem?_modify_other (globals : List Variable) (i j : Nat) (change : Variable → Variable) (apart : j ≠ i) :
    (globals.modify i change)[j]? = globals[j]? := by
  rw [List.getElem?_modify]
  simp [Ne.symm apart]

theorem Mirrors.write (mirrors : Mirrors globals store) (i : Nat) (var : Variable) (here : globals[i]? = some var)
    (type : Byte) (value : Word) :
    Mirrors (globals.modify i fun old => {old with value := value, type := type}) (store.write var.name type value) := by
  have changed := mirrors.change (globals.modify i fun old => {old with value := value, type := type}) i var
    {var with value := value, type := type} (store.rule var.name) here (getElem?_modify_self globals i var _ here)
    (fun j apart => getElem?_modify_other globals i j _ apart) rfl (mirrors.entry i var here).2
  rwa [write_govern] at changed

theorem Mirrors.declare (mirrors : Mirrors globals store) (name : List Byte) (short : name.length < 16)
    (missing : globalGet globals name = none) :
    Mirrors (globals ++ [globalInit name]) {store.write name 0 0 with order := store.order ++ [name]} := by
  obtain ⟨whole,named⟩ := mirrors.named.append name short missing
  have fresh : name ∉ names globals := (mirrors.named.get_none name).mp missing
  have front : names globals <+: names (globals ++ [globalInit name]) := whole ▸ List.prefix_append _ _
  have init : globalInit name = ⟨name,0,0,.none⟩ := by
    rw [globalInit,List.take_of_length_le (by omega)]
  refine ⟨named,by rw [whole,mirrors.order],?_,?_⟩
  · intro j entry found
    rcases Nat.lt_or_ge j globals.length with early | late
    · rw [List.getElem?_append_left early] at found
      have other : entry.name ≠ name := by
        rintro rfl
        apply fresh
        apply List.mem_of_getElem? (i := j)
        rw [names_entry,found,Option.map_some]
      obtain ⟨cell,obeys⟩ := mirrors.entry j entry found
      exact ⟨by simpa [Store.write,other] using cell,obeys.grow front⟩
    · rw [List.getElem?_append_right late] at found
      have last := List.mem_of_getElem? found
      rw [List.mem_singleton,init] at last
      rw [last]
      refine ⟨by simp [Store.write],?_⟩
      change Obeys _ _ _ (store.rule name)
      rw [(mirrors.absent name fresh).2]
      rfl
  · intro other absent
    rw [whole,List.mem_append,List.mem_singleton,not_or] at absent
    simpa [Store.write,absent.2] using mirrors.absent other absent.1

theorem Mirrors.length (mirrors : Mirrors globals store) : globals.length = store.order.length := by
  rw [← mirrors.order,names,List.length_map]

theorem Mirrors.assignment (mirrors : Mirrors globals store) (engine : Engine) (table : engine.globals = globals)
    (text : List Byte) (short : (Statement.assignment text).Short) :
    Mirrors (executeVariable text engine).globals (store.assignment text) := by
  unfold executeVariable Store.assignment
  rcases tokens : tokenize 3 text with _ | ⟨command,_ | ⟨name,_ | ⟨value,rest⟩⟩⟩
  · exact table ▸ mirrors
  · exact table ▸ mirrors
  · exact table ▸ mirrors
  · dsimp only
    rw [globalGetOrCreate,table]
    cases get : globalGet globals name with
    | some i =>
      obtain ⟨var,here,rfl,cell⟩ := mirrors.found name i get
      rw [cell]
      exact mirrors.write i var here _ _
    | none =>
      rw [(mirrors.missing name get).1]
      dsimp only
      rw [mirrors.length]
      by_cases full : maxVariable ≤ store.order.length
      · rw [if_pos full,if_pos full]
        exact mirrors
      · rw [if_neg full,if_neg full]
        have declared := mirrors.declare name (short command name (value::rest) tokens) get
        have here : (globals ++ [globalInit name])[globals.length]? = some (globalInit name) := by simp
        have init : (globalInit name).name = name := List.take_of_length_le (by
          have := short command name (value::rest) tokens
          omega)
        have written := declared.write globals.length (globalInit name) here (setValueParam value).1 (setValueParam value).2
        rw [init,mirrors.length] at written
        simpa [Store.write] using written

theorem Mirrors.mutation (mirrors : Mirrors globals store) (engine : Engine) (table : engine.globals = globals)
    (text : List Byte) : Mirrors (executeMutation text engine).globals (store.mutation text) := by
  unfold executeMutation Store.mutation
  rcases tokens : tokenize 4 text with _ | ⟨command,_ | ⟨left,_ | ⟨opcode,_ | ⟨right,rest⟩⟩⟩⟩
  · exact table ▸ mirrors
  · exact table ▸ mirrors
  · exact table ▸ mirrors
  · exact table ▸ mirrors
  · dsimp only
    rw [table]
    cases get : globalGet globals left with
    | none =>
      rw [(mirrors.missing left get).1]
      exact table ▸ mirrors
    | some i =>
      obtain ⟨var,here,rfl,cell⟩ := mirrors.found left i get
      rw [cell]
      have obeys : Obeys (names globals) i ⟨firstByte opcode,.var i,match globalGet globals right with
          | some rhv => Operand.var rhv
          | none => .constant (setValueParam right).1 (setValueParam right).2⟩
          (if firstByte opcode = 0 then none else some ⟨firstByte opcode,store.term right⟩) := by
        by_cases empty : firstByte opcode = 0
        · rw [if_pos empty]
          exact empty
        · rw [if_neg empty]
          exact ⟨empty,rfl,rfl,mirrors.operand right⟩
      have changed := mirrors.change (globals.modify i fun old => {old with op := ⟨firstByte opcode,.var i,
          match globalGet globals right with
          | some rhv => Operand.var rhv
          | none => .constant (setValueParam right).1 (setValueParam right).2⟩}) i var _ _ here
        (getElem?_modify_self globals i var _ here) (fun j apart => getElem?_modify_other globals i j _ apart) rfl obeys
      have same : store.write var.name var.type var.value = store := by
        rw [Store.write,← cell,Function.update_eq_self]
      rw [same] at changed
      exact changed

theorem Mirrors.apply (mirrors : Mirrors globals store) (unset : Nat → Word) (i : Nat) (var : Variable)
    (here : globals[i]? = some var) : Mirrors (globalVarOp unset globals i) (store.apply (unset i) var.name) := by
  obtain ⟨cell,obeys⟩ := mirrors.entry i var here
  rw [globalVarOp,here,Store.apply]
  dsimp only
  cases attached : store.rule var.name with
  | none =>
    rw [attached] at obeys
    have idle : var.op.opcode = 0 := obeys
    rw [if_pos idle]
    exact mirrors
  | some rule =>
    rw [attached] at obeys
    obtain ⟨some_op,opcode,left,right⟩ := obeys
    have own : var.op.left.read globals = (store.cell var.name).getD (0,0) := by
      rw [left,Operand.read,typeAt,valueAt,here,cell]
      rfl
    rw [if_neg (by rw [opcode]; exact some_op),performOp_operate,own,mirrors.read _ _ right,opcode]
    obtain ⟨inside,_⟩ := List.getElem?_eq_some_iff.mp here
    have changed := mirrors.change (globals.set i {var with
        value := (operate rule.opcode ((store.cell var.name).getD (0,0)) (store.value rule.right)).2.getD (unset i)
        type := (operate rule.opcode ((store.cell var.name).getD (0,0)) (store.value rule.right)).1}) i var _
      (store.rule var.name) here (List.getElem?_set_self inside)
      (fun j apart => List.getElem?_set_ne (Ne.symm apart)) rfl (mirrors.entry i var here).2
    rw [write_govern] at changed
    exact changed

theorem globalVarOp_names (unset : Nat → Word) (globals : List Variable) (i : Nat) :
    names (globalVarOp unset globals i) = names globals := by
  unfold globalVarOp
  split
  · rfl
  · next var here =>
    split
    · rfl
    · dsimp only
      apply List.ext_getElem?
      intro j
      rw [names_entry,names_entry]
      rcases eq_or_ne i j with rfl | apart
      · obtain ⟨inside,_⟩ := List.getElem?_eq_some_iff.mp here
        rw [List.getElem?_set_self inside,here]
        rfl
      · rw [List.getElem?_set_ne apart]

theorem Mirrors.passFrom (unset : Nat → Word) (later front : List (List Byte)) (mirrors : Mirrors globals store)
    (split : names globals = front ++ later) :
    Mirrors ((List.range' front.length later.length).foldl (globalVarOp unset) globals)
      (Store.passFrom unset front.length later store) := by
  induction later generalizing front globals store with
  | nil => exact mirrors
  | cons name later ih =>
    have there : (names globals)[front.length]? = some name := by
      rw [split,List.getElem?_append_right (Nat.le_refl _)]
      simp
    rw [names_entry] at there
    obtain ⟨var,here,rfl⟩ := Option.map_eq_some_iff.mp there
    have one := mirrors.apply unset front.length var here
    have rest := ih (front ++ [var.name]) one (by rw [globalVarOp_names,split]; simp)
    rw [List.length_append,List.length_singleton] at rest
    rw [List.length_cons,List.range'_succ,List.foldl_cons,Store.passFrom]
    exact rest

theorem Mirrors.pass (mirrors : Mirrors globals store) (unset : Nat → Word) :
    Mirrors (globalVarOps unset globals) (store.pass unset) := by
  have whole := Mirrors.passFrom unset (names globals) [] mirrors rfl
  rw [names,List.length_map,← names,mirrors.order] at whole
  rw [globalVarOps,List.range_eq_range',Store.pass]
  exact whole

theorem Mirrors.condition (mirrors : Mirrors globals store) (text : List Byte) :
    executeCondition text globals = store.condition text := by
  unfold executeCondition Store.condition
  rcases tokenize 4 text with _ | ⟨command,_ | ⟨left,_ | ⟨opcode,_ | ⟨right,rest⟩⟩⟩⟩
  · rfl
  · rfl
  · rfl
  · rfl
  · dsimp only
    rw [performOp_operate,mirrors.read _ _ (mirrors.operand left),mirrors.read _ _ (mirrors.operand right)]

theorem Mirrors.execute (statement : Statement) (short : statement.Short) (engine : Engine)
    (mirrors : Mirrors engine.globals store) :
    Mirrors (execute engine statement).globals (store.execute statement) := by
  cases statement with
  | assignment text => exact mirrors.assignment engine rfl text short
  | mutation text => exact mirrors.mutation engine rfl text
  | frame unset => exact mirrors.pass unset

/-- Rules that point into the table mean what they say by name: whatever is declared,
given a rule and run in whatever order, the table has the names, types and values of
the store, and a condition prints what the store makes of it. -/
theorem mutations_by_name (statements : List Statement) (short : ∀ statement ∈ statements, statement.Short)
    (engine : Engine) (fresh : engine.globals = []) :
    names (statements.foldl execute engine).globals = (statements.foldl Store.execute .empty).order ∧
      (∀ name, (globalGet (statements.foldl execute engine).globals name).map (fun i =>
          (typeAt (statements.foldl execute engine).globals i,valueAt (statements.foldl execute engine).globals i)) =
        (statements.foldl Store.execute .empty).cell name) ∧
      ∀ text, executeCondition text (statements.foldl execute engine).globals =
        (statements.foldl Store.execute .empty).condition text := by
  have mirrors : Mirrors (statements.foldl execute engine).globals (statements.foldl Store.execute .empty) := by
    have start : Mirrors engine.globals .empty := by
      rw [fresh]
      exact mirrors_empty
    clear fresh
    generalize Store.empty = store at start
    induction statements generalizing engine store with
    | nil => exact start
    | cons statement statements ih =>
      rw [List.foldl_cons,List.foldl_cons]
      exact ih (fun later member => short later (List.mem_cons_of_mem _ member)) _ _
        (start.execute statement (short statement List.mem_cons_self))
  exact ⟨mirrors.order,mirrors.lookup,mirrors.condition⟩

/-- "v x 5", "v y 2" and "m x + y", and two frames. -/
def addingStatements : List Statement :=
  [.assignment [118,32,120,32,53],.assignment [118,32,121,32,50],.mutation [109,32,120,32,43,32,121],.frame fun _ => 0,
    .frame fun _ => 0]

theorem mutations_by_name_adding :
    (addingStatements.foldl execute .boot).globals =
        [⟨[120],9,typeInt,⟨43,.var 0,.var 1⟩⟩,⟨[121],2,typeInt,.none⟩] ∧
      (addingStatements.foldl Store.execute .empty).order = [[120],[121]] ∧
      (∀ name, (globalGet (addingStatements.foldl execute .boot).globals name).map (fun i =>
          (typeAt (addingStatements.foldl execute .boot).globals i,valueAt (addingStatements.foldl execute .boot).globals i)) =
        (addingStatements.foldl Store.execute .empty).cell name) ∧
      ∀ text, executeCondition text (addingStatements.foldl execute .boot).globals =
        (addingStatements.foldl Store.execute .empty).condition text := by
  have short : ∀ statement ∈ addingStatements, statement.Short := by
    have named (text command name : List Byte) (rest : List (List Byte)) (tokens : tokenize 3 text = command::name::rest)
        (one : ∀ token ∈ tokenize 3 text, token.length < 16) : name.length < 16 :=
      one name (by rw [tokens]; simp)
    intro statement member
    simp only [addingStatements,List.mem_cons,List.not_mem_nil,or_false] at member
    rcases member with rfl | rfl | rfl | rfl | rfl
    · exact fun command name rest tokens => named _ command name rest tokens (by decide)
    · exact fun command name rest tokens => named _ command name rest tokens (by decide)
    · trivial
    · trivial
    · trivial
  have table : (addingStatements.foldl execute .boot).globals =
      [⟨[120],9,typeInt,⟨43,.var 0,.var 1⟩⟩,⟨[121],2,typeInt,.none⟩] := by decide
  obtain ⟨order,cells,conditions⟩ := mutations_by_name addingStatements short .boot rfl
  exact ⟨table,order.symm.trans (by rw [table]; rfl),cells,conditions⟩

end Craftsman.Mutations
