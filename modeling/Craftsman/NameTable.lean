import Craftsman.Global
import Mathlib.Data.Finset.Card
import Mathlib.Data.Finset.Dedup

/-! The variable table as a map by name. The names are stored up to 15 bytes and
compared up to 16, so it is one exactly for the names that an entry holds whole. -/
namespace Craftsman.NameTable
open Craftsman.Memory Craftsman.Text Craftsman.Global

inductive Request where
  | get (name : List Byte)
  | getOrCreate (name : List Byte)

def answer (globals : List Variable) : Request → List Variable × Option Nat
  | .get name => (globals,globalGet globals name)
  | .getOrCreate name => globalGetOrCreate globals name

def tableAfter (requests : List Request) : List Variable :=
  requests.foldl (fun globals request => (answer globals request).1) []

def Request.creates : Request → Option (List Byte)
  | .get _ => none
  | .getOrCreate name => some name

def created (requests : List Request) : List (List Byte) := requests.filterMap Request.creates

def Fits (requests : List Request) : Prop :=
  ∀ earlier name later, requests = earlier ++ .getOrCreate name::later →
    (globalGetOrCreate (tableAfter earlier) name).2 ≠ none

structure MapByName (requests : List Request) : Prop where
  /-- A created name leads to the entry that its creation returned. -/
  found : ∀ earlier name later, requests = earlier ++ .getOrCreate name::later →
    globalGet (tableAfter requests) name = (globalGetOrCreate (tableAfter earlier) name).2
  /-- Asking again returns that entry and adds none. -/
  again : ∀ name ∈ created requests,
    globalGetOrCreate (tableAfter requests) name = (tableAfter requests,globalGet (tableAfter requests) name)
  count : (tableAfter requests).length = (created requests).dedup.length
  apart : ∀ name ∈ created requests, ∀ other ∈ created requests, name ≠ other →
    globalGet (tableAfter requests) name ≠ globalGet (tableAfter requests) other
  stored : (names (tableAfter requests)).Nodup
  /-- No request changes an entry that was there before it. -/
  kept : ∀ earlier later, requests = earlier ++ later → tableAfter earlier <+: tableAfter requests

theorem tableAfter_append (earlier later : List Request) :
    tableAfter (earlier ++ later) = later.foldl (fun globals request => (answer globals request).1) (tableAfter earlier) :=
  List.foldl_append

theorem answer_keeps (globals : List Variable) (request : Request) : globals <+: (answer globals request).1 := by
  cases request with
  | get name => exact List.prefix_refl _
  | getOrCreate name =>
    unfold answer globalGetOrCreate
    dsimp only
    split
    · exact List.prefix_refl _
    · split
      · exact List.prefix_refl _
      · exact List.prefix_append _ _

theorem later_keeps (globals : List Variable) (later : List Request) :
    globals <+: later.foldl (fun globals request => (answer globals request).1) globals := by
  induction later generalizing globals with
  | nil => exact List.prefix_refl _
  | cons request later ih => exact (answer_keeps globals request).trans (ih _)

theorem table_keeps (earlier later : List Request) : tableAfter earlier <+: tableAfter (earlier ++ later) := by
  rw [tableAfter_append]
  exact later_keeps _ _

theorem globalGet_early (globals later : List Variable) (name : List Byte) (i : Nat) (kept : globals <+: later)
    (found : globalGet globals name = some i) : globalGet later name = some i := by
  obtain ⟨more,rfl⟩ := kept
  unfold globalGet at found ⊢
  rw [List.findIdx?_append,found]
  rfl

theorem globalGet_long (globals : List Variable) (name : List Byte) (short : ∀ stored ∈ names globals, stored.length < 16)
    (long : 16 ≤ name.length) : globalGet globals name = none := by
  rw [globalGet_names,List.findIdx?_eq_none_iff]
  intro stored member
  have bound := short stored member
  rw [Bool.eq_false_iff,ne_eq,sameName_short name stored bound]
  rintro rfl
  omega

/-- Whatever is created, an entry holds at most 15 bytes of a name. -/
theorem table_short (requests : List Request) : ∀ stored ∈ names (tableAfter requests), stored.length < 16 := by
  induction requests using List.reverseRecOn with
  | nil =>
    intro stored member
    exact absurd member List.not_mem_nil
  | append_singleton requests request ih =>
    rw [tableAfter_append,List.foldl_cons,List.foldl_nil]
    cases request with
    | get name => exact ih
    | getOrCreate name =>
      unfold answer globalGetOrCreate
      dsimp only
      split
      · exact ih
      · split
        · exact ih
        · intro stored member
          rw [names,List.map_append,List.mem_append] at member
          rcases member with member | member
          · exact ih stored member
          · rw [List.map_singleton,List.mem_singleton] at member
            rw [member,globalInit,List.length_take]
            omega

theorem fits_earlier (earlier later : List Request) (fits : Fits (earlier ++ later)) : Fits earlier := by
  intro before name after same
  exact fits before name (after ++ later) (by rw [same,List.append_assoc,List.cons_append])

theorem table_named (requests : List Request) (fits : Fits requests)
    (short : ∀ name ∈ created requests, name.length < 16) :
    Named (tableAfter requests) ∧ ∀ name, name ∈ names (tableAfter requests) ↔ name ∈ created requests := by
  induction requests using List.reverseRecOn with
  | nil => exact ⟨⟨fun _ member => absurd member List.not_mem_nil,List.nodup_nil⟩,fun _ => Iff.rfl⟩
  | append_singleton requests request ih =>
    have grown : created (requests ++ [request]) = created requests ++ request.creates.toList := by
      rw [created,List.filterMap_append,created]
      cases request <;> rfl
    rw [grown] at short ⊢
    obtain ⟨named,same⟩ := ih (fits_earlier _ _ fits) fun name member => short name (List.mem_append_left _ member)
    rw [tableAfter_append,List.foldl_cons,List.foldl_nil]
    cases request with
    | get name => exact ⟨named,by simpa [answer,Request.creates] using same⟩
    | getOrCreate name =>
      have created := fits requests name [] rfl
      have length := short name (List.mem_append_right _ (List.mem_singleton_self name))
      unfold answer
      dsimp only
      unfold globalGetOrCreate at created ⊢
      cases lookup : globalGet (tableAfter requests) name with
      | some i =>
        refine ⟨named,fun other => ?_⟩
        have here := List.mem_of_getElem? ((named.get_iff name i).mp lookup)
        rw [same] at here
        dsimp only
        rw [same,Request.creates,Option.toList_some,List.mem_append,List.mem_singleton]
        exact ⟨.inl,fun member => member.elim id fun equal => equal ▸ here⟩
      | none =>
        rw [lookup] at created
        dsimp only at created ⊢
        by_cases full : maxVariable ≤ (tableAfter requests).length
        · rw [if_pos full] at created
          exact absurd rfl created
        · rw [if_neg full]
          obtain ⟨whole,after⟩ := named.append name length lookup
          refine ⟨after,fun other => ?_⟩
          rw [whole,List.mem_append,List.mem_append,same]
          rfl

theorem create_found (globals : List Variable) (named : Named globals) (name : List Byte) (short : name.length < 16)
    (i : Nat) (result : (globalGetOrCreate globals name).2 = some i) :
    globalGet (globalGetOrCreate globals name).1 name = some i := by
  unfold globalGetOrCreate at result ⊢
  cases lookup : globalGet globals name with
  | some j =>
    rw [lookup] at result
    cases result
    exact lookup
  | none =>
    rw [lookup] at result
    dsimp only at result ⊢
    by_cases full : maxVariable ≤ globals.length
    · rw [if_pos full] at result
      cases result
    · rw [if_neg full] at result ⊢
      cases result
      obtain ⟨whole,after⟩ := named.append name short lookup
      have size : (names globals).length = globals.length := List.length_map _
      dsimp only
      rw [after.get_iff,whole,← size]
      exact List.getElem?_concat_length ..

/-- The table is a map by name if and only if no created name is longer than an entry holds. -/
theorem map_by_name (requests : List Request) (fits : Fits requests) :
    MapByName requests ↔ ∀ name ∈ created requests, name.length < 16 := by
  constructor
  · intro map name member
    by_contra long
    obtain ⟨request,inside,creates⟩ := List.mem_filterMap.mp member
    obtain ⟨earlier,later,split⟩ := List.append_of_mem inside
    cases request with
    | get other => cases creates
    | getOrCreate other =>
      cases creates
      have found := map.found earlier name later split
      rw [globalGet_long _ name (table_short requests) (by omega)] at found
      exact fits earlier name later split found.symm
  · intro short
    obtain ⟨named,same⟩ := table_named requests fits short
    have present (name : List Byte) (member : name ∈ created requests) :
        ∃ i, globalGet (tableAfter requests) name = some i := by
      obtain ⟨i,entry⟩ := List.getElem?_of_mem ((same name).mpr member)
      exact ⟨i,(named.get_iff name i).mpr entry⟩
    refine ⟨?_,?_,?_,?_,named.distinct,?_⟩
    · rintro earlier name later rfl
      obtain ⟨i,result⟩ := Option.ne_none_iff_exists'.mp (fits earlier name later rfl)
      have before : ∀ other ∈ created earlier, other.length < 16 := by
        intro other member
        apply short
        rw [created,List.filterMap_append]
        exact List.mem_append_left _ member
      have length := short name (by
        rw [created,List.filterMap_append]
        exact List.mem_append_right _ List.mem_cons_self)
      obtain ⟨named',_⟩ := table_named earlier (fits_earlier earlier _ fits) before
      have entry := create_found (tableAfter earlier) named' name length i result
      rw [result,tableAfter_append,List.foldl_cons]
      exact globalGet_early _ _ name i (later_keeps _ later) entry
    · intro name member
      obtain ⟨i,entry⟩ := present name member
      rw [globalGetOrCreate,entry]
    · have length : (tableAfter requests).length = (names (tableAfter requests)).length := (List.length_map _).symm
      rw [length,← List.toFinset_card_of_nodup named.distinct,← List.card_toFinset]
      congr 1
      ext name
      rw [List.mem_toFinset,List.mem_toFinset]
      exact same name
    · intro name member other member' differ equal
      obtain ⟨i,entry⟩ := present name member
      rw [entry] at equal
      have left := (named.get_iff name i).mp entry
      have right := (named.get_iff other i).mp equal.symm
      rw [left] at right
      exact differ (Option.some.inj right)
    · rintro earlier later rfl
      exact table_keeps earlier later

theorem fits_one (name : List Byte) : Fits [.getOrCreate name] := by
  intro earlier other later same
  cases earlier with
  | nil => exact fun full => nomatch full
  | cons request earlier =>
    have lengths := congrArg List.length same
    simp at lengths

/-- Two names, the first asked for again, and one that is nowhere. -/
def threeRequests : List Request := [.getOrCreate [120],.getOrCreate [121,49],.get [122],.getOrCreate [120]]

theorem three_fit : Fits threeRequests := by
  intro earlier name later same
  rcases earlier with _ | ⟨_,_ | ⟨_,_ | ⟨_,_ | ⟨_,earlier⟩⟩⟩⟩
  · cases same
    exact fun full => nomatch full
  · cases same
    exact fun full => nomatch full
  · cases same
  · cases same
    exact fun full => nomatch full
  · have lengths := congrArg List.length same
    simp [threeRequests] at lengths

theorem map_by_name_two : MapByName threeRequests ∧ (tableAfter threeRequests).length = 2 := by
  have map : MapByName threeRequests := by
    apply (map_by_name threeRequests three_fit).mpr
    decide
  exact ⟨map,map.count.trans (by decide)⟩

/-- A name of 16 bytes is not found again, and a second create makes a second entry. -/
theorem long_name_lost : Fits [.getOrCreate (List.replicate 16 65)] ∧
    ¬ MapByName [.getOrCreate (List.replicate 16 65)] ∧
    (tableAfter [.getOrCreate (List.replicate 16 65),.getOrCreate (List.replicate 16 65)]).length = 2 := by
  refine ⟨fits_one _,?_,rfl⟩
  intro map
  have found := map.found [] (List.replicate 16 65) [] rfl
  exact absurd found (by decide)

end Craftsman.NameTable
