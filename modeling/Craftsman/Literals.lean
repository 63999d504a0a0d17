import Craftsman.Execute
import Mathlib.Data.List.TakeWhile

/-! Spellings of whole numbers in the three bases, and what the commands make of them. -/
namespace Craftsman.Literals
open Craftsman.Memory Craftsman.Text Craftsman.Global Craftsman.Execute

inductive Radix where
  | decimal
  | octal
  | hexadecimal (capital : Bool)

def Radix.base : Radix → Nat
  | .decimal => 10
  | .octal => 8
  | .hexadecimal _ => 16

def Radix.lead : Radix → List Byte
  | .decimal => []
  | .octal => [48]
  | .hexadecimal capital => [48,if capital then 88 else 120]

/-- The digits a lead leaves open: a zero would lead a decimal elsewhere, and an
octal may be the lead alone. -/
def Radix.Complete : Radix → List Byte → Prop
  | .decimal,digits => digits ≠ [] ∧ digits.head? ≠ some 48
  | .octal,_ => True
  | .hexadecimal _,digits => digits ≠ []

def signText : Option Bool → List Byte
  | none => []
  | some true => [45]
  | some false => [43]

structure Spelling where
  spaces : List Byte
  minus : Option Bool
  radix : Radix
  digits : List Byte
  spaced : ∀ c ∈ spaces, isSpace c = true
  valid : ∀ c ∈ digits, isDigit radix.base c = true
  complete : radix.Complete digits

def Spelling.body (s : Spelling) : List Byte := s.radix.lead ++ s.digits

def Spelling.text (s : Spelling) : List Byte := s.spaces ++ (signText s.minus ++ s.body)

def Spelling.value (s : Spelling) : Int :=
  if s.minus = some true then -(number s.radix.base s.digits : Int) else number s.radix.base s.digits

theorem digits_all (base : Nat) (text : List Byte) (valid : ∀ c ∈ text, isDigit base c = true) :
    digits base text = (text,[]) := by
  rw [digits,List.span_eq_takeWhile_dropWhile,List.takeWhile_eq_self_iff.mpr valid,List.dropWhile_eq_nil_iff.mpr valid]

theorem unsigned_plain (text : List Byte) (plain : ∀ x rest, text ≠ 48::x::rest) :
    unsignedNumber text = (number 10 (digits 10 text).1,(digits 10 text).2) := by
  unfold unsignedNumber
  split
  · exact absurd rfl (plain _ _)
  · rfl

/-- No digit of base 10 or below is the letter behind a hexadecimal lead. -/
theorem digit_plain (c : Byte) (valid : isDigit 10 c = true ∨ isDigit 8 c = true) : ¬ (c = 120 ∨ c = 88) := by
  rintro (rfl | rfl)
  · revert valid
    decide
  · revert valid
    decide

theorem unsigned_body (s : Spelling) : (unsignedNumber s.body).1 = number s.radix.base s.digits := by
  obtain ⟨spaces,minus,radix,digits,spaced,valid,complete⟩ := s
  cases radix with
  | decimal =>
    have plain : ∀ x rest, digits ≠ 48::x::rest := by
      rintro x rest rfl
      exact complete.2 rfl
    change (unsignedNumber digits).1 = number 10 digits
    rw [unsigned_plain digits plain,digits_all 10 digits valid]
  | octal =>
    cases digits with
    | nil => rfl
    | cons x rest =>
      have octal : ¬ (x = 120 ∨ x = 88) := digit_plain x (.inr (valid x List.mem_cons_self))
      change (unsignedNumber (48::x::rest)).1 = number 8 (x::rest)
      rw [unsignedNumber,if_neg fun both => octal both.1,digits_all 8 (x::rest) valid]
  | hexadecimal capital =>
    change (unsignedNumber (48::(if capital then 88 else 120)::digits)).1 = number 16 digits
    have whole := digits_all 16 digits valid
    rw [unsignedNumber,if_pos ⟨by cases capital <;> simp,by rw [whole]; exact complete⟩,whole]

theorem body_head (s : Spelling) : ∃ c rest, s.body = c::rest ∧ isDigit 10 c = true := by
  obtain ⟨spaces,minus,radix,digits,spaced,valid,complete⟩ := s
  cases radix with
  | decimal =>
    cases digits with
    | nil => exact absurd rfl complete.1
    | cons c rest => exact ⟨c,rest,rfl,valid c List.mem_cons_self⟩
  | octal => exact ⟨48,digits,rfl,by decide⟩
  | hexadecimal capital => exact ⟨48,_,rfl,by decide⟩

theorem digit_high (base : Nat) (c : Byte) (valid : isDigit base c = true) : 48 ≤ c.toNat := by
  by_contra low
  have none_such : digitValue c = none := by
    unfold digitValue
    simp only [UInt8.le_iff_toNat_le,UInt8.reduceToNat]
    rw [if_neg (by omega),if_neg (by omega),if_neg (by omega)]
  rw [isDigit,none_such] at valid
  cases valid

theorem space_low (c : Byte) (space : isSpace c = true) : c.toNat ≤ 32 := by
  unfold isSpace at space
  rcases Bool.or_eq_true_iff.mp space with blank | control
  · rw [beq_iff_eq.mp blank]
    decide
  · have top := (Bool.and_eq_true_iff.mp control).2
    rw [decide_eq_true_iff,UInt8.le_iff_toNat_le] at top
    exact le_trans top (by decide)

/-- A digit is no blank, no sign and no point. -/
theorem digit_apart (base : Nat) (c : Byte) (valid : isDigit base c = true) :
    isSpace c = false ∧ c ≠ 45 ∧ c ≠ 43 ∧ c ≠ 46 := by
  have high := digit_high base c valid
  refine ⟨?_,?_,?_,?_⟩
  · rw [Bool.eq_false_iff]
    intro space
    have low := space_low c space
    omega
  · rintro rfl
    exact absurd high (by decide)
  · rintro rfl
    exact absurd high (by decide)
  · rintro rfl
    exact absurd high (by decide)

theorem sign_read (s : Spelling) :
    sign (signText s.minus ++ s.body) = (decide (s.minus = some true),s.body) := by
  obtain ⟨c,rest,body,digit⟩ := body_head s
  obtain ⟨-,not_minus,not_plus,-⟩ := digit_apart 10 c digit
  rw [body]
  rcases s.minus with _ | _ | _
  · change sign (c::rest) = (false,c::rest)
    unfold sign
    split
    · next same => exact absurd (List.cons.inj same).1 not_minus
    · next same => exact absurd (List.cons.inj same).1 not_plus
    · rfl
  · rfl
  · rfl

theorem spaces_dropped (s : Spelling) : s.text.dropWhile isSpace = signText s.minus ++ s.body := by
  obtain ⟨c,rest,body,digit⟩ := body_head s
  rw [Spelling.text,List.dropWhile_append_of_pos s.spaced,body]
  rcases s.minus with _ | _ | _
  · exact List.dropWhile_cons_of_neg (by simp [(digit_apart 10 c digit).1])
  · rfl
  · rfl

theorem strtol_spelling (s : Spelling) (low : -2^63 ≤ s.value) (high : s.value < 2^63) : strtol s.text = s.value := by
  unfold strtol
  rw [spaces_dropped,sign_read]
  dsimp only
  rw [unsigned_body]
  unfold Spelling.value at low high ⊢
  by_cases minus : s.minus = some true
  · simp only [minus,if_true,decide_true] at low ⊢
    exact Int.max_eq_left low
  · simp only [minus,if_false,decide_false] at high ⊢
    exact Int.min_eq_left (Int.le_sub_one_of_lt high)

theorem no_point (s : Spelling) : 46 ∉ s.text := by
  simp only [Spelling.text,Spelling.body,List.mem_append,not_or]
  refine ⟨fun member => ?_,?_,?_,fun member => (digit_apart _ 46 (s.valid 46 member)).2.2.2 rfl⟩
  · exact absurd (s.spaced 46 member) (by decide)
  · rcases s.minus with _ | _ | _ <;> decide
  · rcases s.radix with _ | _ | _ | _ <;> decide

theorem tokenizeFrom_word (left : Nat) (word rest : List Byte) (free : 32 ∉ word) :
    tokenizeFrom (left+1) (word ++ 32::rest) = word::tokenizeFrom left rest := by
  induction word with
  | nil => simp [tokenizeFrom]
  | cons c word ih =>
    have apart : ¬ c = 32 := fun same => free (by simp [same])
    rw [List.cons_append,tokenizeFrom,if_neg apart,ih fun member => free (List.mem_cons_of_mem c member)]

theorem tokenizeFrom_last (text : List Byte) : tokenizeFrom 0 text = [text] := by
  cases text <;> rfl

theorem executeVariable_value (command name value : List Byte) (engine : Engine) (one : 32 ∉ command) (two : 32 ∉ name) :
    executeVariable (command ++ 32::(name ++ 32::value)) engine =
      match globalGetOrCreate engine.globals name with
      | (globals,none) => {engine with globals := globals}
      | (globals,some var) =>
        {engine with globals := globals.modify var fun old =>
          {old with value := (setValueParam value).2, type := (setValueParam value).1}} := by
  have tokens : tokenize 3 (command ++ 32::(name ++ 32::value)) = [command,name,value] := by
    rw [tokenize,tokenizeFrom_word 1 command _ one,tokenizeFrom_word 0 name _ two,tokenizeFrom_last]
  cases created : globalGetOrCreate engine.globals name with
  | mk globals found => cases found <;> simp only [executeVariable,tokens,created]

theorem spelling_value (s : Spelling) (low : -2^63 ≤ s.value) (high : s.value < 2^63) (plain : 101 ∉ s.text) :
    setValueParam s.text = (typeInt,UInt64.ofNat (size s.value)) := by
  have point : s.text.contains 46 = false := by simpa using no_point s
  have letter : s.text.contains 101 = false := by simpa using plain
  rw [setValueParam,point,letter,strtol_spelling s low high]
  rfl

theorem spelling_double (text : List Byte) (letter : 101 ∈ text) : setValueParam text = (typeDouble,strtod text) := by
  have found : text.contains 101 = true := by simpa using letter
  rw [setValueParam,found,Bool.or_true,if_pos rfl]

theorem spelling_type (text : List Byte) (bits : Word) (int : setValueParam text = (typeInt,bits)) : 101 ∉ text := by
  intro letter
  rw [spelling_double text letter] at int
  have apart : typeDouble ≠ typeInt := by decide
  exact apart (congrArg Prod.fst int)

/-- A spelling reads as the integer it spells exactly when it has no 'e' in it; two such
spellings of one number then leave the same variable. -/
theorem integer_literal (s : Spelling) (low : -2^63 ≤ s.value) (high : s.value < 2^63) :
    (setValueParam s.text = (typeInt,UInt64.ofNat (size s.value)) ↔ 101 ∉ s.text) ∧
      ∀ t : Spelling, t.value = s.value → 101 ∉ s.text →
        (setValueParam t.text = setValueParam s.text ↔ 101 ∉ t.text) ∧
          (101 ∉ t.text → ∀ command name engine, 32 ∉ command → 32 ∉ name →
            executeVariable (command ++ 32::(name ++ 32::t.text)) engine =
              executeVariable (command ++ 32::(name ++ 32::s.text)) engine) := by
  refine ⟨⟨spelling_type s.text _,spelling_value s low high⟩,fun t same plain => ?_⟩
  have value := spelling_value s low high plain
  have again : 101 ∉ t.text → setValueParam t.text = setValueParam s.text := by
    intro other
    rw [value,spelling_value t (by rw [same]; exact low) (by rw [same]; exact high) other,same]
  refine ⟨⟨fun equal => spelling_type t.text _ (equal.trans value),again⟩,fun other command name engine one two => ?_⟩
  rw [executeVariable_value command name t.text engine one two,executeVariable_value command name s.text engine one two,
    again other]

def hexTeen (capital : Bool) (last : Byte) (valid : isDigit 16 last = true) : Spelling where
  spaces := []
  minus := none
  radix := .hexadecimal capital
  digits := [49,last]
  spaced := by simp
  valid := by
    intro c member
    rcases List.mem_cons.mp member with rfl | member
    · exact (by decide : isDigit 16 49 = true)
    · rwa [List.mem_singleton.mp member]
  complete := List.cons_ne_nil _ _

theorem integer_literal_hex : setValueParam [48,120,49,102] = (typeInt,31) :=
  (integer_literal (hexTeen false 102 (by decide)) (by decide) (by decide)).1.mpr (by decide)

/-- `0x1e` is a double, `0x1E` an integer. -/
theorem integer_literal_letter :
    ∃ s t : Spelling, s.text = [48,120,49,101] ∧ t.text = [48,120,49,69] ∧ s.value = 30 ∧ t.value = 30 ∧
      setValueParam s.text = (typeDouble,0x403e000000000000) ∧ setValueParam t.text = (typeInt,30) :=
  ⟨hexTeen false 101 (by decide),hexTeen false 69 (by decide),rfl,rfl,by decide,by decide,by decide,by decide⟩

end Craftsman.Literals
