import Mathlib.Tactic.Common

/-! Systems whose steps use up a potential. A walk is no longer than the potential it
starts from, so every walk comes to where the system has settled. -/
namespace Craftsman.Stream.Draining

section Walks
variable {α : Type} (step : α → α → Prop)

inductive Walk (start : α) : Nat → α → Prop
  | stay : Walk start 0 start
  | go (n : Nat) (a b : α) (before : Walk start n a) (next : step a b) : Walk start (n + 1) b

def Settled (a : α) : Prop := ∀ b, ¬ step a b

/-- From a good state every step leads to a good state of a lower potential. -/
structure Drains (Good : α → Prop) (potential : α → Nat) : Prop where
  keeps : ∀ a b, Good a → step a b → Good b
  lowers : ∀ a b, Good a → step a b → potential b < potential a

variable {step} {Good : α → Prop} {potential : α → Nat} {start : α}

theorem Walk.before {a last : α} {n : Nat} (walk : Walk step a n last) (first : step start a) :
    Walk step start (n + 1) last := by
  induction walk with
  | stay => exact .go 0 start a .stay first
  | go n b c _ next ih => exact .go (n + 1) b c ih next

theorem Drains.walk (drains : Drains step Good potential) (good : Good start) {n : Nat} {last : α}
    (walk : Walk step start n last) : Good last ∧ potential last + n ≤ potential start := by
  induction walk with
  | stay => exact ⟨good,Nat.le_refl _⟩
  | go n a b _ next ih =>
    obtain ⟨here,total⟩ := ih
    have lower := drains.lowers a b here next
    exact ⟨drains.keeps a b here next,by omega⟩

theorem Drains.settles (drains : Drains step Good potential) (good : Good start) :
    ∃ n last, Walk step start n last ∧ Settled step last := by
  induction size : potential start using Nat.strongRecOn generalizing start with
  | ind bound ih =>
    by_cases settled : Settled step start
    · exact ⟨0,start,.stay,settled⟩
    · unfold Settled at settled
      push Not at settled
      obtain ⟨next,first⟩ := settled
      obtain ⟨n,last,walk,ends⟩ := ih (potential next) (size ▸ drains.lowers start next good first)
        (drains.keeps start next good first) rfl
      exact ⟨n + 1,last,walk.before first,ends⟩

end Walks

end Craftsman.Stream.Draining
