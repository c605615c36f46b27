import ApiClient.Decimal.Shortest
import ApiClient.Json.Basic

namespace ApiClient.Number

open Decimal

def greatestWord : Nat := pow2 64 - 1

def greatestPower : Nat := pow2 31 - 1

def decimalText (d : Digits) : List Char :=
  let ds := Nat.toDigits 10 d.digits
  let point := (ds.length : Int) + d.exponent
  if d.digits = 0 then "0.0".toList
  else if 0 ≤ d.exponent ∧ point ≤ 16 then
    ds ++ List.replicate d.exponent.toNat '0' ++ ['.', '0']
  else if 0 < point ∧ point ≤ 16 then
    ds.take point.toNat ++ '.' :: ds.drop point.toNat
  else if -5 < point ∧ point ≤ 0 then
    '0' :: '.' :: List.replicate (-point).toNat '0' ++ ds
  else
    let e := point - 1
    let mark := if e < 0 then ['e', '-'] else ['e', '+']
    let fraction := if ds.length = 1 then [] else '.' :: ds.drop 1
    ds.take 1 ++ fraction ++ mark ++ Nat.toDigits 10 e.natAbs

/-- The shortest text that reads back: positional up to sixteen places, at least one decimal. -/
def text : Number → String
  | integer n => toString n
  | binary64 negative magnitude =>
    let digits := decimalText (shortest magnitude)
    String.ofList (if negative then '-' :: digits else digits)

def isZero : Number → Bool
  | integer n => n == 0
  | binary64 _ magnitude => magnitude.mantissa == 0

def digitValue (c : Char) : Nat :=
  c.toNat - '0'.toNat

def takeDigits (significand : Nat) : List Char → Nat × Nat × Nat
  | [] => (significand, 0, 0)
  | c :: rest =>
    let next := significand * 10 + digitValue c
    if next > greatestWord then (significand, 0, rest.length + 1)
    else
      let (s, taken, dropped) := takeDigits next rest
      (s, taken + 1, dropped)

/-- Apply a power of ten. Powers below `10 ^ -308` are divided out in steps. -/
def applyPower (d : Binary64) (e : Int) : Option Binary64 :=
  if e.natAbs ≤ 308 then do
    let p ← powerOfTen? e.natAbs
    if 0 ≤ e then d.mul? p else d.div? p
  else if d.mantissa = 0 then some d
  else if 0 ≤ e then none
  else do
    let p ← powerOfTen? 308
    let d ← d.div? p
    applyPower d (e + 308)
termination_by e.natAbs

structure Literal where
  negative : Bool
  whole : List Char
  fraction : Option (List Char)
  exponent : Option (Bool × List Char)

def exponentValue (digits : List Char) : Nat :=
  digits.foldl (fun n c => n * 10 + digitValue c) 0

def Literal.value? (l : Literal) : Option Number :=
  let (significand, _, dropped) := takeDigits 0 l.whole
  match l.fraction, l.exponent with
  | none, none =>
    let n : Int := if l.negative then -significand else significand
    if dropped = 0 ∧ -(pow2 63 : Int) ≤ n ∧ ¬ (l.negative ∧ significand = 0) then some (.integer n)
    else scaled significand dropped
  | fraction, exponent =>
    let (significand, taken, _) := takeDigits significand (fraction.getD [])
    let start : Int := (dropped : Int) - taken
    match exponent with
    | none => scaled significand start
    | some (down, digits) =>
      let e := exponentValue digits
      if e > greatestPower then
        if significand ≠ 0 ∧ !down then none else some (.binary64 l.negative ⟨0, 0⟩)
      else scaled significand (if down then start - e else start + e)
where
  scaled (significand : Nat) (e : Int) : Option Number := do
    let d ← nearest significand 1 0
    (applyPower d e).map (.binary64 l.negative)

def isDigit (c : Char) : Bool :=
  c.isDigit

def literal? (cs : List Char) : Option Literal := do
  let (negative, cs) := match cs with
    | '-' :: rest => (true, rest)
    | cs => (false, cs)
  let whole := cs.takeWhile isDigit
  let cs := cs.dropWhile isDigit
  guard (whole ≠ [] ∧ (whole.length = 1 ∨ whole.head? ≠ some '0'))
  let (fraction, cs) := match cs with
    | '.' :: rest => (some (rest.takeWhile isDigit), rest.dropWhile isDigit)
    | cs => (none, cs)
  guard (fraction ≠ some [])
  match cs with
  | [] => some ⟨negative, whole, fraction, none⟩
  | c :: rest =>
    guard (c = 'e' ∨ c = 'E')
    let (down, digits) := match rest with
      | '-' :: digits => (true, digits)
      | '+' :: digits => (false, digits)
      | digits => (false, digits)
    guard (digits ≠ [] ∧ digits.all isDigit)
    some ⟨negative, whole, fraction, some (down, digits)⟩

def ofText? (cs : List Char) : Option Number :=
  (literal? cs).bind Literal.value?

end ApiClient.Number
