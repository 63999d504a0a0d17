import Craftsman.Memory

/-! The command text: tokens between single blanks, and the numbers of the C
library, read from the front of a string. -/
namespace Craftsman.Text
open Craftsman.Memory

abbrev Word := UInt64

/-- At most `left` blanks are turned into string ends; the last token keeps its blanks. -/
def tokenizeFrom : Nat → List Byte → List (List Byte)
  | _,[] => [[]]
  | 0,text => [text]
  | left+1,c::rest =>
    if c = 32 then []::tokenizeFrom left rest
    else
      match tokenizeFrom (left+1) rest with
      | [] => [[c]]
      | token::later => (c::token)::later

def tokenize (tokenCount : Nat) (text : List Byte) : List (List Byte) := tokenizeFrom (tokenCount - 1) text

def isSpace (c : Byte) : Bool := c == 32 || (9 ≤ c && c ≤ 13)

def digitValue (c : Byte) : Option Nat :=
  if 48 ≤ c ∧ c ≤ 57 then some (c.toNat - 48)
  else if 97 ≤ c ∧ c ≤ 122 then some (c.toNat - 87)
  else if 65 ≤ c ∧ c ≤ 90 then some (c.toNat - 55)
  else none

def isDigit (base : Nat) (c : Byte) : Bool := (digitValue c).any (· < base)

def digits (base : Nat) (text : List Byte) : List Byte × List Byte := text.span (isDigit base)

def number (base : Nat) (digits : List Byte) : Nat :=
  digits.foldl (fun value c => value * base + (digitValue c).getD 0) 0

def sign : List Byte → Bool × List Byte
  | 45::rest => (true,rest)
  | 43::rest => (false,rest)
  | text => (false,text)

/-- Base 0: the prefix of the digits decides. A `0x` without a digit is the number 0. -/
def unsignedNumber : List Byte → Nat × List Byte
  | 48::x::rest =>
    if (x = 120 ∨ x = 88) ∧ (digits 16 rest).1 ≠ [] then
      (number 16 (digits 16 rest).1,(digits 16 rest).2)
    else (number 8 (digits 8 (x::rest)).1,(digits 8 (x::rest)).2)
  | text => (number 10 (digits 10 text).1,(digits 10 text).2)

/-- `strtol` in base 0, with its range errors. -/
def strtol (text : List Byte) : Int :=
  let (negative,rest) := sign (text.dropWhile isSpace)
  let value := (unsignedNumber rest).1
  if negative then max (-(value : Int)) (-2^63) else min (value : Int) (2^63 - 1)

/-- The bits of the double nearest to a positive fraction, ties to even; an
infinity from half a unit above the largest double on. -/
def roundFraction (num den : Nat) : Nat :=
  if num = 0 then 0
  else
    let scaled (e : Int) : Nat × Nat := (num * 2^(-e).toNat,den * 2^e.toNat)
    let estimate : Int := (num.log2 : Int) - den.log2
    let magnitude := if (scaled estimate).2 ≤ (scaled estimate).1 then estimate else estimate - 1
    let e := max (magnitude - 52) (-1074)
    let (n,d) := scaled e
    let even := if 2 * (n % d) > d ∨ (2 * (n % d) = d ∧ n / d % 2 = 1) then n / d + 1 else n / d
    min ((e + 1074).toNat * 2^52 + even) 0x7ff0000000000000

def lower (c : Byte) : Byte := if 65 ≤ c ∧ c ≤ 90 then c + 32 else c

def exponent (letter : Byte) (text : List Byte) : Int :=
  match text with
  | c::rest =>
    if lower c = letter then
      let (negative,rest) := sign rest
      let value := number 10 (digits 10 rest).1
      if negative then -value else value
    else 0
  | [] => 0

def mantissa (base : Nat) (text : List Byte) : List Byte × Nat × List Byte :=
  let (whole,rest) := digits base text
  match rest with
  | 46::behind =>
    let (part,rest) := digits base behind
    (whole ++ part,part.length,rest)
  | rest => (whole,0,rest)

def startsWith (word text : List Byte) : Bool := (text.take word.length).map lower == word

def nanPayload (text : List Byte) : Nat :=
  match text with
  | 40::rest =>
    let (sequence,rest) := rest.span fun c => (digitValue c).isSome || c == 95
    match rest,unsignedNumber sequence with
    | 41::_,(value,[]) => min value (2^64 - 1) % 2^51
    | _,_ => 0
  | _ => 0

/-- The magnitude of a number that starts the text; none when no number does. -/
def magnitudeBits (text : List Byte) : Option Nat :=
  let decimal :=
    let (all,behind,rest) := mantissa 10 text
    let power := exponent 101 rest - behind
    if all = [] then none
    else some (roundFraction (number 10 all * 10^power.toNat) (10^(-power).toNat))
  if startsWith [105,110,102] text then some 0x7ff0000000000000
  else if startsWith [110,97,110] text then some (0x7ff8000000000000 + nanPayload (text.drop 3))
  else if startsWith [48,120] text then
    let (all,behind,rest) := mantissa 16 (text.drop 2)
    let power := exponent 112 rest - 4 * behind
    if all = [] then decimal
    else some (roundFraction (number 16 all * 2^power.toNat) (2^(-power).toNat))
  else decimal

def strtod (text : List Byte) : Word :=
  let (negative,rest) := sign (text.dropWhile isSpace)
  match magnitudeBits rest with
  | none => 0
  | some bits => UInt64.ofNat (if negative then 2^63 + bits else bits)

def typeInt : Byte := 105
def typeDouble : Byte := 100

/-- A point or an 'e' makes a double. -/
def setValueParam (text : List Byte) : Byte × Word :=
  if text.contains 46 || text.contains 101 then (typeDouble,strtod text)
  else (typeInt,UInt64.ofNat (size (strtol text)))

example : setValueParam [45,49,46,53,101,50] = (typeDouble,0xc062c00000000000) := by decide

example : setValueParam [45,48,120,49,70] = (typeInt,0xffffffffffffffe1) := by decide

end Craftsman.Text
