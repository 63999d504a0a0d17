import Mathlib.Data.List.Infix
import Mathlib.Tactic.Common

/-! Consumers in lockstep over append-only logs. A round takes one entry of every
log; logs that extend one another give the same rounds, and systems that are
driven by the same rounds pass through related states. -/
namespace Craftsman.Stream.Rounds

section Rows
variable {ι α : Type}

def row (order : List ι) (logs : ι → List α) (j : Nat) : List α := order.filterMap fun i => (logs i)[j]?

def Covers (order : List ι) (logs : ι → List α) (n : Nat) : Prop := ∀ i ∈ order, n ≤ (logs i).length

def Compatible (order : List ι) (first second : ι → List α) : Prop :=
  ∀ i ∈ order, first i <+: second i ∨ second i <+: first i

theorem prefix_entry (early late : List α) (front : early <+: late) (j : Nat) (inside : j < early.length) :
    late[j]? = early[j]? := by
  obtain ⟨rest,rfl⟩ := front
  exact List.getElem?_append_left inside

theorem prefix_item (early late : List α) (j : Nat) (item : α) (front : early <+: late)
    (found : early[j]? = some item) : late[j]? = some item := by
  obtain ⟨inside,_⟩ := List.getElem?_eq_some_iff.mp found
  rwa [prefix_entry early late front j inside]

theorem row_agree (order : List ι) (first second : ι → List α) (j : Nat)
    (compatible : Compatible order first second) (left : Covers order first (j + 1))
    (right : Covers order second (j + 1)) : row order first j = row order second j := by
  apply List.filterMap_congr
  intro i member
  rcases compatible i member with front | front
  · exact (prefix_entry _ _ front j (left i member)).symm
  · exact prefix_entry _ _ front j (right i member)

/-- A round over logs that reach it has the entry of every log, at the log's place. -/
theorem row_entry (order : List ι) (logs : ι → List α) (j : Nat) (covers : Covers order logs (j + 1)) :
    (row order logs j).length = order.length ∧
      ∀ (k : Nat) i, order[k]? = some i → (row order logs j)[k]? = (logs i)[j]? := by
  induction order with
  | nil => exact ⟨rfl,fun k i found => by cases found⟩
  | cons first order ih =>
    obtain ⟨length,entries⟩ := ih fun i member => covers i (List.mem_cons_of_mem _ member)
    have inside : j < (logs first).length := covers first List.mem_cons_self
    have here : row (first::order) logs j = (logs first)[j]::row order logs j := by
      rw [row,List.filterMap_cons,List.getElem?_eq_getElem inside]
      rfl
    rw [here]
    refine ⟨by rw [List.length_cons,List.length_cons,length],?_⟩
    intro k i found
    cases k with
    | zero =>
      cases found
      exact (List.getElem?_eq_getElem inside).symm
    | succ k => exact entries k i found

theorem prefix_of_entries (early late : List α)
    (same : ∀ j < early.length, early[j]? = late[j]?) : early <+: late := by
  apply List.prefix_iff_getElem?.mpr
  intro j inside
  rw [← same j inside,List.getElem?_eq_getElem inside]

/-- Rounds that take one entry each take the first entries. -/
theorem singles_front {τ : Type} (rounds : List τ) (taken : τ → List α) (entries : List α)
    (single : ∀ (j : Nat) round, rounds[j]? = some round → ∃ entry, entries[j]? = some entry ∧ taken round = [entry]) :
    rounds.flatMap taken <+: entries := by
  induction rounds generalizing entries with
  | nil => exact List.nil_prefix
  | cons round rounds ih =>
    obtain ⟨entry,found,one⟩ := single 0 round rfl
    cases entries with
    | nil => cases found
    | cons first entries =>
      obtain rfl : first = entry := Option.some.inj found
      have rest := ih entries fun j later found => single (j + 1) later found
      rw [List.flatMap_cons,one]
      exact (List.prefix_cons_inj first).mpr rest

theorem Covers.grow {order : List ι} {early late : ι → List α} {n : Nat} (covers : Covers order early n)
    (extends_ : ∀ i, early i <+: late i) : Covers order late n :=
  fun i member => (covers i member).trans (extends_ i).length_le

end Rows

section Chains
variable {τ ρ σ : Type}

/-- The first `n` rounds lead from each state to the next. -/
def Chain (step : τ → σ → σ → Prop) (rounds : List τ) (states : List σ) (n : Nat) : Prop :=
  ∀ j < n, ∃ round before after, rounds[j]? = some round ∧ states[j]? = some before ∧
    states[j+1]? = some after ∧ step round before after

theorem Chain.extend {step : τ → σ → σ → Prop} {rounds : List τ} {states : List σ} {n : Nat}
    (chain : Chain step rounds states n) (more : List τ) (later : List σ) :
    Chain step (rounds ++ more) (states ++ later) n := by
  intro j inside
  obtain ⟨round,before,after,entry,left,right,step⟩ := chain j inside
  refine ⟨round,before,after,?_,?_,?_,step⟩
  · exact prefix_item _ _ _ _ (List.prefix_append _ _) entry
  · exact prefix_item _ _ _ _ (List.prefix_append _ _) left
  · exact prefix_item _ _ _ _ (List.prefix_append _ _) right

theorem Chain.snoc {step : τ → σ → σ → Prop} {rounds : List τ} {states : List σ}
    (chain : Chain step rounds states rounds.length) (sizes : states.length = rounds.length + 1)
    (round : τ) (before after : σ) (last : states[rounds.length]? = some before) (next : step round before after) :
    Chain step (rounds ++ [round]) (states ++ [after]) (rounds.length + 1) := by
  intro j inside
  rcases Nat.lt_or_eq_of_le (Nat.le_of_lt_succ inside) with early | same
  · exact chain.extend [round] [after] j early
  · subst same
    refine ⟨round,before,after,List.getElem?_concat_length ..,?_,?_,next⟩
    · rwa [List.getElem?_append_left (by omega)]
    · rw [← sizes]
      exact List.getElem?_concat_length ..

/-- Two systems that start related and are driven by the same inputs stay
related, and their rounds are the same. -/
theorem chain_agree {σ' : Type} (first : τ → σ → σ → Prop) (second : τ → σ' → σ' → Prop) (input : τ → ρ)
    (related : σ → σ' → Prop)
    (forced : ∀ a b s s' t t', related s t → input a = input b → first a s s' → second b t t' →
      related s' t' ∧ a = b)
    (rounds rounds' : List τ) (states : List σ) (states' : List σ') (n : Nat) (left : Chain first rounds states n)
    (right : Chain second rounds' states' n)
    (start : ∀ s t, states[0]? = some s → states'[0]? = some t → related s t)
    (driven : ∀ j < n, (rounds[j]?).map input = (rounds'[j]?).map input) (k : Nat) (inside : k ≤ n) :
    (∀ s t, states[k]? = some s → states'[k]? = some t → related s t) ∧
      ∀ j < k, rounds[j]? = rounds'[j]? := by
  induction k with
  | zero => exact ⟨start,by omega⟩
  | succ k ih =>
    obtain ⟨related_k,same⟩ := ih (by omega)
    obtain ⟨a,s,s',entry,before,after,step⟩ := left k (by omega)
    obtain ⟨b,t,t',entry',before',after',step'⟩ := right k (by omega)
    have inputs := driven k (by omega)
    rw [entry,entry',Option.map_some,Option.map_some,Option.some_inj] at inputs
    obtain ⟨next,equal⟩ := forced a b s s' t t' (related_k s t before before') inputs step step'
    refine ⟨?_,?_⟩
    · intro u v found found'
      rw [after,Option.some_inj] at found
      rw [after',Option.some_inj] at found'
      subst found found'
      exact next
    · intro j early
      rcases Nat.lt_or_eq_of_le (Nat.le_of_lt_succ early) with before_k | rfl
      · exact same j before_k
      · rw [entry,entry',equal]

end Chains

end Craftsman.Stream.Rounds
