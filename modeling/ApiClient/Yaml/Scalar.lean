import ApiClient.Json.Number
import ApiClient.Text.Hex

namespace ApiClient.Yaml

open Decimal

def isNullText (s : String) : Bool :=
  ["null", "Null", "NULL", "~"].contains s

def truth? (s : String) : Option Bool :=
  if ["true", "True", "TRUE"].contains s then some true
  else if ["false", "False", "FALSE"].contains s then some false
  else none

def dropSign (sign : Char) : List Char → List Char
  | [] => []
  | c :: rest => if c = sign then rest else c :: rest

def isSign (c : Char) : Bool :=
  c == '+' || c == '-'

/-- Digits with a leading zero are not a number. -/
def isZeroLed (cs : List Char) : Bool :=
  let digits := match cs with
    | c :: rest => if isSign c then rest else cs
    | [] => []
  digits.length > 1 && digits.head? == some '0' && digits.all Char.isDigit

def natural? (base : Nat) (cs : List Char) : Option Nat :=
  if cs.isEmpty then none
  else cs.foldlM (fun n c => do
    let d ← Text.hexValue? c
    if d < base then some (n * base + d) else none) 0

/-- The value of digits without a sign, after `0x`, `0o` or `0b` in another base than ten. -/
def magnitude? : List Char → Option Nat
  | '0' :: 'x' :: rest => natural? 16 rest
  | '0' :: 'o' :: rest => natural? 8 rest
  | '0' :: 'b' :: rest => natural? 2 rest
  | cs => if isZeroLed cs then none else natural? 10 cs

def integer? : List Char → Option Int
  | '-' :: rest => (magnitude? rest).map fun n => -(n : Int)
  | cs => (magnitude? (dropSign '+' cs)).map fun n => (n : Int)

/-- How an integer is represented: in 64 bits, not at all though in 128 bits, or as something else
than an integer. -/
inductive IntegerRange where
  | word
  | wide
  | beyond
deriving DecidableEq, Repr

def integerRange (n : Int) : IntegerRange :=
  if -(pow2 63 : Int) ≤ n ∧ n < pow2 64 then .word
  else if -(pow2 127 : Int) ≤ n ∧ n < pow2 128 then .wide
  else .beyond

def decimal? (cs : List Char) : Option Binary64 := do
  let whole := cs.takeWhile Char.isDigit
  let cs := cs.dropWhile Char.isDigit
  let (fraction, cs) := match cs with
    | '.' :: rest => (rest.takeWhile Char.isDigit, rest.dropWhile Char.isDigit)
    | cs => ([], cs)
  let digits ← natural? 10 (whole ++ fraction)
  let e ← match cs with
    | [] => some 0
    | c :: rest =>
      if c ≠ 'e' ∧ c ≠ 'E' then none
      else match rest with
        | '-' :: rest => (natural? 10 rest).map fun n => -(n : Int)
        | rest => (natural? 10 (dropSign '+' rest)).map fun n => (n : Int)
  ofDecimal? digits (e - fraction.length)

inductive FloatValue where
  | finite (n : Number)
  | special

/-- Values too large for binary64 are not numbers. -/
def float? (cs : List Char) : Option FloatValue :=
  let bare := dropSign '+' cs
  if bare ≠ cs ∧ bare.head?.any isSign then none
  else if [".inf", ".Inf", ".INF"].any (·.toList = dropSign '-' bare) ∨
      [".nan", ".NaN", ".NAN"].any (·.toList = cs) then some .special
  else
    let isNegative := bare.head? = some '-'
    (decimal? (dropSign '-' bare)).map fun d => .finite (.binary64 isNegative d)

end ApiClient.Yaml
