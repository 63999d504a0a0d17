import Craftsman.Replay
import Craftsman.Stream.Selection

/-! The numbers of functions and objects. The loops over the symbol table keep the
first qualifying symbols that fit, and the sort orders what was kept; which number
a function gets is the order in which a frame calls it. -/
namespace Craftsman.Numbering
open Craftsman.Memory Craftsman.Text Craftsman.Frames Craftsman.Network Craftsman.Dlfn Craftsman.Execute Craftsman.Simulation
open Craftsman.Lockstep Craftsman.Replay Craftsman.Stream.Rounds Craftsman.Stream.Selection

section Tables
variable {β : Type}

/-- One loop of `parse_symtab`: it ends at the first symbol that finds the table full. -/
def parseSymtab (type : SymbolType) (entry : Symbol → β) : List Symbol → List β → List β
  | [],table => table
  | symbol::iter,table =>
    if symbol.type ≠ type then parseSymtab type entry iter table
    else if symbol.isGlobal = false then parseSymtab type entry iter table
    else if symbol.bytes = 0 then parseSymtab type entry iter table
    else if maxSymbols ≤ table.length then table
    else parseSymtab type entry iter (table ++ [entry symbol])

def functionInit (symbol : Symbol) : Function := ⟨symbol.name,symbol.address,fun _ => 0⟩

def objectInit (symbol : Symbol) : Object := ⟨symbol.name,symbol.address,symbol.bytes⟩

theorem parseSymtab_taken (type : SymbolType) (entry : Symbol → β) (symbols : List Symbol) (table : List β) :
    parseSymtab type entry symbols table =
      table ++ ((symbols.filter (exported type)).take (maxSymbols - table.length)).map entry := by
  induction symbols generalizing table with
  | nil => simp [parseSymtab]
  | cons symbol symbols ih =>
    rw [parseSymtab]
    by_cases qualifies : exported type symbol = true
    · have checks : symbol.type = type ∧ symbol.isGlobal = true ∧ symbol.bytes ≠ 0 := by
        simpa [exported,and_assoc] using qualifies
      obtain ⟨kind,isGlobal,bytes⟩ := checks
      rw [if_neg (not_not.mpr kind),if_neg (by simp [isGlobal]),if_neg bytes,List.filter_cons_of_pos qualifies]
      split
      · next full => rw [Nat.sub_eq_zero_of_le full,List.take_zero,List.map_nil,List.append_nil]
      · next free =>
        obtain ⟨room,left⟩ := Nat.exists_eq_succ_of_ne_zero (n := maxSymbols - table.length) (by omega)
        have next : maxSymbols - (table ++ [entry symbol]).length = room := by
          rw [List.length_append,List.length_singleton]
          omega
        rw [ih,next,left,List.take_succ_cons,List.map_cons,List.append_assoc]
        rfl
    · have skipped : symbol.type ≠ type ∨ symbol.isGlobal = false ∨ symbol.bytes = 0 := by
        by_contra checks
        simp only [not_or,not_not,Bool.not_eq_false] at checks
        exact qualifies (by simp [exported,checks])
      rw [List.filter_cons_of_neg qualifies,← ih]
      split
      · rfl
      · split
        · rfl
        · next kind isGlobal =>
          rw [if_pos (by tauto)]

theorem parseSymtab_empty (type : SymbolType) (entry : Symbol → β) (symbols : List Symbol) :
    parseSymtab type entry symbols [] = ((symbols.filter (exported type)).take maxSymbols).map entry :=
  parseSymtab_taken type entry symbols []

theorem parseFunctions_loop (symbols : List Symbol) :
    parseSymtab .func functionInit symbols [] = parseFunctions symbols := parseSymtab_empty .func functionInit symbols

theorem parseObjects_loop (symbols : List Symbol) :
    parseSymtab .object objectInit symbols [] = parseObjects symbols := parseSymtab_empty .object objectInit symbols

def addressOrder (lhs rhs : Nat) : Int := if lhs < rhs then -1 else if lhs > rhs then 1 else 0

def symbolOrder (lhs rhs : Function) : Int := addressOrder lhs.call rhs.call

def objectOrder (lhs rhs : Object) : Int := addressOrder lhs.address rhs.address

theorem addressOrder_le (lhs rhs : Nat) : addressOrder lhs rhs ≤ 0 ↔ lhs ≤ rhs := by
  unfold addressOrder
  split
  · omega
  · split <;> omega

/-- What `qsort` may leave of an array. -/
structure Qsort (compar : β → β → Int) (base sorted : List β) : Prop where
  same : sorted.Perm base
  ordered : sorted.Pairwise fun lhs rhs => compar lhs rhs ≤ 0

/-- The tables that `dlfn_open` may leave, whatever its `qsort` does with equal addresses. -/
structure Opened (symbols : List Symbol) (functions : List Function) (objects : List Object) : Prop where
  functions : Qsort symbolOrder (parseSymtab .func functionInit symbols []) functions
  objects : Qsort objectOrder (parseSymtab .object objectInit symbols []) objects

/-- No two qualifying symbols of a kind have one address. -/
structure Distinct (symbols : List Symbol) : Prop where
  functions : ((symbols.filter (exported .func)).map Symbol.address).Nodup
  objects : ((symbols.filter (exported .object)).map Symbol.address).Nodup

/-- Increasing by address, and exactly the qualifying symbols of the kind. -/
structure Numbered (type : SymbolType) (entry : Symbol → β) (address : β → Nat) (symbols : List Symbol)
    (table : List β) : Prop where
  increasing : table.Pairwise fun lhs rhs => address lhs < address rhs
  exact : table.Perm ((symbols.filter (exported type)).map entry)

def exportedCount (type : SymbolType) (symbols : List Symbol) : Nat := symbols.countP (exported type)

end Tables

section Kind
variable {β : Type} (type : SymbolType) (entry : Symbol → β) (address : β → Nat) (compar : β → β → Int)

/-- What a kind's entries and comparator have in common: they go by the symbol's address. -/
structure ByAddress : Prop where
  placed : ∀ symbol, address (entry symbol) = symbol.address
  compares : ∀ lhs rhs, compar lhs rhs ≤ 0 ↔ address lhs ≤ address rhs

variable {type entry address compar} (kind : ByAddress entry address compar) {symbols : List Symbol} {table : List β}
  (sorted : Qsort compar (parseSymtab type entry symbols []) table)
  (distinct : ((symbols.filter (exported type)).map Symbol.address).Nodup)
include kind sorted

theorem table_addresses :
    (table.map address).Perm (((symbols.filter (exported type)).take maxSymbols).map Symbol.address) := by
  have same := sorted.same.map address
  rw [parseSymtab_empty,List.map_map] at same
  have placed : address ∘ entry = Symbol.address := funext kind.placed
  rwa [placed] at same

theorem table_ordered : table.Pairwise fun lhs rhs => address lhs ≤ address rhs :=
  sorted.ordered.imp fun {lhs rhs} => (kind.compares lhs rhs).mp

include distinct

theorem table_distinct : (table.map address).Nodup := by
  apply (table_addresses kind sorted).nodup_iff.mpr
  rw [List.map_take]
  exact distinct.sublist (List.take_sublist _ _)

theorem table_increasing : table.Pairwise fun lhs rhs => address lhs < address rhs :=
  sorted_strict address table (table_distinct kind sorted distinct) (table_ordered kind sorted)

theorem numbered_iff : Numbered type entry address symbols table ↔ exportedCount type symbols ≤ maxSymbols := by
  have taken := sorted.same
  rw [parseSymtab_empty] at taken
  rw [exportedCount,List.countP_eq_length_filter]
  constructor
  · intro numbered
    have sizes := taken.length_eq.symm.trans numbered.exact.length_eq
    rw [List.length_map,List.length_map,List.length_take] at sizes
    omega
  · intro fits
    refine ⟨table_increasing kind sorted distinct,?_⟩
    rwa [List.take_of_length_le fits] at taken

theorem table_same {others : List Symbol} {table' : List β} (same : symbols.Perm others)
    (again : Qsort compar (parseSymtab type entry others []) table') (fits : exportedCount type symbols ≤ maxSymbols) :
    table' = table := by
  rw [exportedCount,List.countP_eq_length_filter] at fits
  have taken : (parseSymtab type entry symbols []).Perm (parseSymtab type entry others []) := by
    rw [parseSymtab_empty,parseSymtab_empty]
    exact (take_perm maxSymbols _ _ (same.filter _) fits).map entry
  symm
  apply sorted_unique address _ _ _ (table_distinct kind sorted distinct) (table_ordered kind sorted) (table_ordered kind again)
  exact (sorted.same.trans taken).trans again.same.symm

/-- With more symbols than room some order of them leads to another table. -/
theorem crowded_depends (crowded : maxSymbols < exportedCount type symbols) :
    ∃ others, symbols.Perm others ∧ ∀ table', Qsort compar (parseSymtab type entry others []) table' → table' ≠ table := by
  rw [exportedCount,List.countP_eq_length_filter] at crowded
  obtain ⟨others,x,same,first,last⟩ := cut_depends (exported type) maxSymbols symbols (by decide) (List.Nodup.of_map _ distinct) crowded
  refine ⟨others,same,fun table' again equal => last ?_⟩
  subst equal
  have here := (table_addresses kind again).mem_iff.mpr (List.mem_map_of_mem first)
  obtain ⟨y,member,address⟩ := List.mem_map.mp ((table_addresses kind sorted).mem_iff.mp here)
  have one := List.inj_on_of_nodup_map distinct (List.mem_of_mem_take member)
    ((same.filter _).mem_iff.mpr (List.mem_of_mem_take first)) address
  rwa [← one]

end Kind

section Sorting
variable {β : Type} {address : β → Nat} {compar : β → β → Int}

theorem mergeSort_qsort (compares : ∀ lhs rhs, compar lhs rhs ≤ 0 ↔ address lhs ≤ address rhs) (base : List β) :
    Qsort compar base (base.mergeSort fun lhs rhs => address lhs ≤ address rhs) := by
  refine ⟨List.mergeSort_perm base _,?_⟩
  apply (List.pairwise_mergeSort _ _ base).imp
  · intro lhs rhs low
    exact (compares lhs rhs).mpr (of_decide_eq_true low)
  · intro a b c first second
    exact decide_eq_true ((of_decide_eq_true first).trans (of_decide_eq_true second))
  · intro a b
    rcases Nat.le_total (address a) (address b) with low | high
    · simp [low]
    · simp [high]

end Sorting

theorem functions_by_address : ByAddress functionInit Function.call symbolOrder :=
  ⟨fun _ => rfl,fun lhs rhs => addressOrder_le lhs.call rhs.call⟩

theorem objects_by_address : ByAddress objectInit Object.address objectOrder :=
  ⟨fun _ => rfl,fun lhs rhs => addressOrder_le lhs.address rhs.address⟩

theorem opened_sorted (symbols : List Symbol) :
    Opened symbols (sortFunctions (parseFunctions symbols)) (sortObjects (parseObjects symbols)) := by
  constructor
  · rw [parseFunctions_loop]
    exact mergeSort_qsort functions_by_address.compares _
  · rw [parseObjects_loop]
    exact mergeSort_qsort objects_by_address.compares _

theorem opened_dlfnOpen {σ : Type} (library : Library σ) :
    Opened library.symbols (dlfnOpen library).1 (dlfnOpen library).2 := opened_sorted library.symbols

/-- The tables are in the order of the addresses. They hold exactly the qualifying symbols,
and no other order of the symbols leads to other tables, if and only if these fit. -/
theorem numbered_by_address (symbols : List Symbol) (distinct : Distinct symbols) (functions : List Function)
    (objects : List Object) (opened : Opened symbols functions objects) :
    functions.Pairwise (fun lhs rhs => lhs.call < rhs.call) ∧
      objects.Pairwise (fun lhs rhs => lhs.address < rhs.address) ∧
      (Numbered .func functionInit Function.call symbols functions ↔ exportedCount .func symbols ≤ maxSymbols) ∧
      (Numbered .object objectInit Object.address symbols objects ↔ exportedCount .object symbols ≤ maxSymbols) ∧
      ((∀ others functions' objects', symbols.Perm others → Opened others functions' objects' → functions' = functions) ↔
        exportedCount .func symbols ≤ maxSymbols) ∧
      ((∀ others functions' objects', symbols.Perm others → Opened others functions' objects' → objects' = objects) ↔
        exportedCount .object symbols ≤ maxSymbols) := by
  refine ⟨table_increasing functions_by_address opened.functions distinct.functions,
    table_increasing objects_by_address opened.objects distinct.objects,
    numbered_iff functions_by_address opened.functions distinct.functions,
    numbered_iff objects_by_address opened.objects distinct.objects,⟨?_,?_⟩,⟨?_,?_⟩⟩
  · intro ordered
    by_contra crowded
    obtain ⟨others,same,differs⟩ :=
      crowded_depends functions_by_address opened.functions distinct.functions (Nat.lt_of_not_le crowded)
    have again := opened_sorted others
    exact differs _ again.functions (ordered others _ _ same again)
  · intro fits others functions' objects' same again
    exact table_same functions_by_address opened.functions distinct.functions same again.functions fits
  · intro ordered
    by_contra crowded
    obtain ⟨others,same,differs⟩ :=
      crowded_depends objects_by_address opened.objects distinct.objects (Nat.lt_of_not_le crowded)
    have again := opened_sorted others
    exact differs _ again.objects (ordered others _ _ same again)
  · intro fits others functions' objects' same again
    exact table_same objects_by_address opened.objects distinct.objects same again.objects fits

/-- Two functions and an object, listed against the order of their addresses. -/
def fewSymbols : List Symbol :=
  [⟨[103],.func,true,8192,64⟩,⟨[111],.object,true,12288,8⟩,⟨[102],.func,true,4096,64⟩]

theorem numbered_by_address_few :
    sortFunctions (parseFunctions fewSymbols.reverse) = sortFunctions (parseFunctions fewSymbols) :=
  (numbered_by_address fewSymbols ⟨by decide,by decide⟩ _ _ (opened_sorted fewSymbols)).2.2.2.2.1.mpr (by decide)
    fewSymbols.reverse _ _ (List.reverse_perm _).symm (opened_sorted fewSymbols.reverse)

/-- One function more than the table has room for. -/
def crowdedSymbols : List Symbol := (List.range 33).map fun k => ⟨[UInt8.ofNat (65 + k)],.func,true,4096 + k,64⟩

theorem crowded_order_matters : crowdedSymbols.Perm crowdedSymbols.reverse ∧ Distinct crowdedSymbols ∧
    ∀ functions objects functions' objects', Opened crowdedSymbols functions objects →
      Opened crowdedSymbols.reverse functions' objects' → functions' ≠ functions := by
  refine ⟨(List.reverse_perm _).symm,⟨by decide,by decide⟩,?_⟩
  intro functions objects functions' objects' opened again same
  have first : 4096 ∈ ((crowdedSymbols.filter (exported .func)).take maxSymbols).map Symbol.address := by decide
  have missing : 4096 ∉ ((crowdedSymbols.reverse.filter (exported .func)).take maxSymbols).map Symbol.address := by decide
  have here := (table_addresses functions_by_address opened.functions).mem_iff.mpr first
  rw [← same] at here
  exact missing ((table_addresses functions_by_address again.functions).mem_iff.mp here)

section Builds
variable {σ : Type} (library : Library σ) (others : List Symbol)

/-- Another build of the feature: the same entries in another order. -/
def rebuilt : Library σ := {library with symbols := others}

variable (same : library.symbols.Perm others) (distinct : Distinct library.symbols)
  (functions : exportedCount .func library.symbols ≤ maxSymbols)
  (objects : exportedCount .object library.symbols ≤ maxSymbols)
include same distinct functions objects

theorem dlfnOpen_rebuilt : dlfnOpen (rebuilt library others) = dlfnOpen library := by
  have opened := opened_dlfnOpen library
  have again := opened_dlfnOpen (rebuilt library others)
  apply Prod.ext
  · exact table_same functions_by_address opened.functions distinct.functions same again.functions functions
  · exact table_same objects_by_address opened.objects distinct.objects same again.objects objects

theorem openSession_rebuilt (engine : Engine) : openSession (rebuilt library others) engine = openSession library engine := by
  unfold openSession
  rw [dlfnOpen_rebuilt library others same distinct functions objects]

end Builds

section Sessions
variable {σ : Type} (library : Library σ) (others : List Symbol)

theorem executeAny_rebuilt : executeAny (rebuilt library others) = executeAny library := rfl

theorem frameFunction_rebuilt : frameFunction (rebuilt library others) = frameFunction library := rfl

theorem executeAll_rebuilt (cycles : Nat → Nat → Nat → Nat → UInt64) (i : Nat) (texts : List (List Byte)) (game : Game σ) :
    executeAll (rebuilt library others) cycles i texts game = executeAll library cycles i texts game := by
  induction texts generalizing i game with
  | nil => rfl
  | cons text texts ih =>
    rw [executeAll,executeAll,executeAny_rebuilt]
    cases executeAny library (cycles i) game text with
    | error stop => rfl
    | ok next => exact ih (i+1) next

theorem frameFrom_rebuilt (order : List Nat) (engine : Engine) (memory : σ) :
    frameFrom (rebuilt library others) order engine memory = frameFrom library order engine memory := by
  induction order generalizing engine memory with
  | nil => rfl
  | cons i order ih =>
    rw [frameFrom,frameFrom,frameFunction_rebuilt]
    cases frameFunction library engine memory i with
    | error stop => rfl
    | ok next =>
      obtain ⟨engine,memory,call⟩ := next
      rw [ok_bind,ok_bind]
      dsimp only
      rw [ih]

theorem played_rebuilt (turn : Turn) (before after : Shared σ) :
    Played (rebuilt library others) turn before after ↔ Played library turn before after := by
  simp only [Played,executeAll_rebuilt,frameBody,frameFrom_rebuilt]

/-- Two sessions that run builds of one feature whose tables differ in their order
go through the same states under the same commands. -/
theorem rebuilt_agree (log log' : SessionLog σ) (done done' : List Frame) (logged : Logged log done)
    (logged' : Logged log' done') (builds : log'.library = rebuilt log.library others) (same : log.library.symbols.Perm others)
    (distinct : Distinct log.library.symbols) (functions : exportedCount .func log.library.symbols ≤ maxSymbols)
    (objects : exportedCount .object log.library.symbols ≤ maxSymbols) (alike : tables log = tables log') (n : Nat)
    (calm : n ≤ log.calm) (calm' : n ≤ log'.calm)
    (driven : ∀ j < n, (log.turns[j]?).map Turn.commands = (log'.turns[j]?).map Turn.commands)
    (benign : ∀ j < n, ∀ turn before, log.turns[j]? = some turn → log.states[j]? = some before →
      Benign log.library turn before) :
    ∀ k ≤ n, log.states[k]? = log'.states[k]? := by
  intro k inside
  refine sessions_agree log log' done done' logged logged' ?_ ?_ ?_ alike n calm calm' driven benign k inside
  · intro engine
    rw [builds]
    exact openSession_rebuilt log.library others same distinct functions objects engine
  · rw [builds]
    rfl
  · intro turn before after played
    rw [builds] at played
    exact (played_rebuilt log.library others turn before after).mp played

end Sessions

end Craftsman.Numbering
