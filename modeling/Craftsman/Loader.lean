import Craftsman.Elf

/-! The loader over the sessions of a process. Every session names the library,
opens it, and at its end closes it and empties the tables, so that the next one
starts from nothing. -/
namespace Craftsman.Loader
open Craftsman.Memory Craftsman.Text Craftsman.Execute Craftsman.Simulation Craftsman.Numbering Craftsman.Elf
open Craftsman.Dlfn (Symbol Function Object Library parseFunctions parseObjects sortFunctions sortObjects)

structure DlState where
  dlname : List Byte
  dlhandle : Bool
  tables : Tables

def DlState.boot : DlState := ⟨[],false,⟨[],[]⟩⟩

/-- "code/feature.so" has ".so" in it. -/
def soSuffix : List Byte := [46,115,111]

def maxPath : Nat := 128

def dlfnInit (filepath : List Byte) (loader : DlState) : Bool × DlState :=
  if strstr filepath soSuffix then (true,{loader with dlname := filepath.take (maxPath - 1)}) else (false,loader)

/-- An entry of the link map: a loaded file and where it is mapped. -/
structure LinkMap where
  name : List Byte
  mapping : Mapping

/-- What the dynamic linker answers: no handle, a handle without its link map, or both. -/
inductive Linked where
  | refused
  | unlisted
  | listed (maps : List LinkMap)

def Linked.handle : Linked → Bool
  | .refused => false
  | _ => true

def parseMaps (dlname : List Byte) : List LinkMap → Tables → Except Stop Tables
  | [],tables => .ok tables
  | iter::later,tables =>
    if strstr iter.name dlname then do
      let tables ← parseElfHeader iter.mapping tables
      parseMaps dlname later tables
    else parseMaps dlname later tables

def dlfnOpen (loader : DlState) (linked : Linked) : Except Stop (Bool × DlState) :=
  match linked with
  | .refused => .ok (false,{loader with dlhandle := false})
  | .unlisted => .ok (false,{loader with dlhandle := true})
  | .listed maps => do
    let tables ← parseMaps loader.dlname maps loader.tables
    return (true,{loader with
      dlhandle := true
      tables := ⟨sortFunctions tables.functions,sortObjects tables.objects⟩})

def dlfnClose (loader : DlState) : Bool × DlState :=
  if loader.dlhandle then (true,{loader with dlhandle := false, tables := ⟨[],[]⟩}) else (false,loader)

def dlfnShutdown (loader : DlState) : DlState := {(dlfnClose loader).2 with dlname := []}

/-- The runs of a process: the loader, whether a session is on, and how many handles
were opened and closed. What a session does to its tables is left open. -/
inductive LoaderRun : DlState → Bool → Nat → Nat → Prop
  | boot : LoaderRun .boot false 0 0
  | start (loader later : DlState) (opens closes : Nat) (linked : Linked) (result : Bool)
      (run : LoaderRun loader false opens closes) (step : dlfnOpen (dlfnInit dlpath loader).2 linked = .ok (result,later)) :
      LoaderRun later true (opens + linked.handle.toNat) closes
  | play (loader : DlState) (opens closes : Nat) (functions : List Function) (run : LoaderRun loader true opens closes)
      (bound : functions ≠ [] → loader.dlhandle = true) :
      LoaderRun {loader with tables := {loader.tables with functions := functions}} true opens closes
  | shutdown (loader : DlState) (opens closes : Nat) (run : LoaderRun loader true opens closes) :
      LoaderRun (dlfnShutdown loader) false opens (closes + loader.dlhandle.toNat)

/-- Before a session the loader is as at the start of the process; in one, a table that
is not empty belongs to an open handle. -/
structure Settled (loader : DlState) (on : Bool) (opens closes : Nat) : Prop where
  handles : opens = closes + loader.dlhandle.toNat
  closed : loader.dlhandle = false → loader.tables = ⟨[],[]⟩
  off : on = false → loader = .boot

theorem open_handle (loader later : DlState) (linked : Linked) (result : Bool)
    (ok : dlfnOpen loader linked = .ok (result,later)) :
    later.dlhandle = linked.handle ∧ (linked.handle = false → later.tables = loader.tables) := by
  cases linked with
  | refused =>
    cases ok
    exact ⟨rfl,fun _ => rfl⟩
  | unlisted =>
    cases ok
    exact ⟨rfl,fun _ => rfl⟩
  | listed maps =>
    obtain ⟨tables,_,same⟩ := (bind_ok _ _ _).mp ok
    cases same
    exact ⟨rfl,fun none => by cases none⟩

theorem init_boot : (dlfnInit dlpath .boot).2 = ⟨dlpath,false,⟨[],[]⟩⟩ := by
  rw [dlfnInit,if_pos (by decide)]
  rfl

theorem run_settled (loader : DlState) (on : Bool) (opens closes : Nat) (run : LoaderRun loader on opens closes) :
    Settled loader on opens closes := by
  induction run with
  | boot => exact ⟨rfl,fun _ => rfl,fun _ => rfl⟩
  | start loader later opens closes linked result run step ih =>
    obtain rfl := ih.off rfl
    obtain ⟨handle,kept⟩ := open_handle _ _ _ _ step
    rw [init_boot] at kept
    refine ⟨?_,?_,fun off => by cases off⟩
    · rw [handle,ih.handles]
      rfl
    · rw [handle]
      exact kept
  | play loader opens closes functions run bound ih =>
    refine ⟨ih.handles,?_,fun off => by cases off⟩
    intro closed
    have empty : functions = [] := by
      by_contra some
      rw [bound some] at closed
      cases closed
    dsimp only
    rw [empty,ih.closed closed]
  | shutdown loader opens closes run ih =>
    unfold dlfnShutdown dlfnClose
    split
    · next handle =>
      refine ⟨?_,fun _ => rfl,fun _ => rfl⟩
      rw [ih.handles,handle]
      rfl
    · next none =>
      have closed : loader.dlhandle = false := by simpa using none
      refine ⟨?_,ih.closed,fun _ => ?_⟩
      · rw [ih.handles]
        dsimp only
        rw [closed]
        rfl
      · dsimp only
        rw [closed,ih.closed closed]
        rfl

section Opening
variable {β : Type}

theorem parseSymtab_full (type : Dlfn.SymbolType) (entry : Symbol → β) (symbols : List Symbol) (table : List β)
    (full : Dlfn.maxSymbols ≤ table.length) : parseSymtab type entry symbols table = table := by
  rw [parseSymtab_taken,Nat.sub_eq_zero_of_le full,List.take_zero,List.map_nil,List.append_nil]

/-- A loop that goes on behind another one finds what one loop over both would. -/
theorem parseSymtab_append (type : Dlfn.SymbolType) (entry : Symbol → β) (first second : List Symbol) (table : List β) :
    parseSymtab type entry (first ++ second) table =
      parseSymtab type entry second (parseSymtab type entry first table) := by
  induction first generalizing table with
  | nil => rfl
  | cons symbol first ih =>
    rw [List.cons_append,parseSymtab,parseSymtab]
    split
    · exact ih table
    · split
      · exact ih table
      · split
        · exact ih table
        · split
          · next full => exact (parseSymtab_full type entry second table full).symm
          · exact ih _

/-- The symbols of the mapped files whose names have the library's in them. -/
inductive Listed : List LinkMap → List Symbol → Prop
  | nil : Listed [] []
  | other (iter : LinkMap) (maps : List LinkMap) (symbols : List Symbol) (foreign : strstr iter.name dlpath = false)
      (rest : Listed maps symbols) : Listed (iter::maps) symbols
  | mine (iter : LinkMap) (maps : List LinkMap) (image : Image) (first symbols : List Symbol)
      (named : strstr iter.name dlpath = true) (mapped : Maps iter.mapping image)
      (described : List.Forall₂ (Describes iter.mapping image.strtab) image.entries first)
      (rest : Listed maps symbols) : Listed (iter::maps) (first ++ symbols)

theorem parseMaps_listed (maps : List LinkMap) (symbols : List Symbol) (listed : Listed maps symbols) (tables : Tables) :
    parseMaps dlpath maps tables = .ok ⟨parseSymtab .func functionInit symbols tables.functions,
      parseSymtab .object objectInit symbols tables.objects⟩ := by
  induction listed generalizing tables with
  | nil => rfl
  | other iter maps symbols foreign rest ih =>
    rw [parseMaps,foreign,if_neg Bool.false_ne_true]
    exact ih tables
  | mine iter maps image first symbols named mapped described rest ih =>
    rw [parseMaps,if_pos named,image_parsed iter.mapping image first tables mapped described,ok_bind,ih,
      parseSymtab_append,parseSymtab_append]

variable {σ : Type}

/-- Whatever the sessions before did, and whether their library opened or not, a session
starts with the tables of the library as it is now mapped; one whose library does not
open starts with none; and every handle that was opened is closed. -/
theorem opened_fresh (loader : DlState) (opens closes : Nat) (run : LoaderRun loader false opens closes)
    (library : Library σ) (maps : List LinkMap) (listed : Listed maps library.symbols) (engine : Engine) :
    opens = closes ∧
      (∃ later, dlfnOpen (dlfnInit dlpath loader).2 (.listed maps) = .ok (true,later) ∧
        {executeInit engine with functions := later.tables.functions, objects := later.tables.objects} =
          openSession library engine) ∧
      ∀ linked result later, linked = .refused ∨ linked = .unlisted →
        dlfnOpen (dlfnInit dlpath loader).2 linked = .ok (result,later) → result = false ∧ later.tables = ⟨[],[]⟩ := by
  have settled := run_settled loader false opens closes run
  obtain rfl := settled.off rfl
  refine ⟨by simpa [DlState.boot] using settled.handles,?_,?_⟩
  · refine ⟨⟨dlpath,true,⟨(Dlfn.dlfnOpen library).1,(Dlfn.dlfnOpen library).2⟩⟩,?_,rfl⟩
    rw [init_boot,dlfnOpen,parseMaps_listed maps library.symbols listed,ok_bind,parseFunctions_loop,parseObjects_loop]
    rfl
  · intro linked result later failed ok
    rw [init_boot] at ok
    rcases failed with rfl | rfl
    · cases ok
      exact ⟨rfl,rfl⟩
    · cases ok
      exact ⟨rfl,rfl⟩

def smallLibrary : Library Unit := {Dlfn.sumLibrary with symbols := [⟨[102],.func,true,8192,64⟩]}

theorem small_listed : Listed [⟨dlpath,smallMap⟩] smallLibrary.symbols :=
  .mine ⟨dlpath,smallMap⟩ [] smallImage [⟨[102],.func,true,8192,64⟩] [] (by decide) small_maps
    (.cons ⟨by decide,by decide,by decide,by decide,by decide⟩ .nil) .nil

/-- A link map that lists the library twice, as two mappings with one function each. -/
def twiceLibrary : Library Unit := {smallLibrary with symbols := smallLibrary.symbols ++ smallLibrary.symbols}

theorem twice_listed : Listed [⟨dlpath,smallMap⟩,⟨dlpath,smallMap⟩] twiceLibrary.symbols :=
  .mine ⟨dlpath,smallMap⟩ _ smallImage smallLibrary.symbols _ (by decide) small_maps
    (.cons ⟨by decide,by decide,by decide,by decide,by decide⟩ .nil) small_listed

/-- A session that loaded two functions, and behind it one whose library has one. -/
theorem opened_again : ∃ earlier, dlfnOpen (dlfnInit dlpath .boot).2
      (.listed [⟨dlpath,smallMap⟩,⟨dlpath,smallMap⟩]) = .ok (true,earlier) ∧ earlier.tables.functions.length = 2 ∧
    LoaderRun (dlfnShutdown earlier) false 1 1 ∧ (1 = 1 ∧
    (∃ later, dlfnOpen (dlfnInit dlpath (dlfnShutdown earlier)).2 (.listed [⟨dlpath,smallMap⟩]) = .ok (true,later) ∧
      {executeInit .boot with functions := later.tables.functions, objects := later.tables.objects} =
        openSession smallLibrary .boot) ∧
    ∀ linked result later, linked = .refused ∨ linked = .unlisted →
      dlfnOpen (dlfnInit dlpath (dlfnShutdown earlier)).2 linked = .ok (result,later) →
        result = false ∧ later.tables = ⟨[],[]⟩) := by
  obtain ⟨_,⟨earlier,opened,tables⟩,_⟩ := opened_fresh .boot 0 0 .boot twiceLibrary _ twice_listed .boot
  have functions : earlier.tables.functions = (Dlfn.dlfnOpen twiceLibrary).1 := congrArg Engine.functions tables
  have started : LoaderRun earlier true 1 0 := .start .boot _ 0 0 (.listed _) true .boot opened
  have shut := LoaderRun.shutdown _ 1 0 started
  have handle : earlier.dlhandle = true := (open_handle _ _ _ _ opened).1
  rw [handle] at shut
  refine ⟨earlier,opened,?_,shut,opened_fresh _ 1 1 shut smallLibrary _ small_listed .boot⟩
  rw [functions]
  simp [Dlfn.dlfnOpen,twiceLibrary,smallLibrary,Dlfn.sortFunctions,Dlfn.parseFunctions,Dlfn.exported,Dlfn.maxSymbols]

end Opening

end Craftsman.Loader
