namespace ApiClient.Decimal

/-- The value `mantissa · 2 ^ exponent`. -/
structure Binary64 where
  mantissa : Nat
  exponent : Int
deriving DecidableEq, Repr

def leastExponent : Int := -1074

def greatestExponent : Int := 971

def pow2 (k : Nat) : Nat :=
  Nat.pow 2 k

def pow10 (k : Nat) : Nat :=
  Nat.pow 10 k

def roundHalfEven (num den : Nat) : Nat :=
  let q := num / den
  let r := num % den
  if 2 * r < den then q
  else if 2 * r = den then q + q % 2
  else q + 1

def scaleNum (num : Nat) (e : Int) : Nat :=
  num * pow2 e.toNat

def scaleDen (den : Nat) (e : Int) : Nat :=
  den * pow2 (-e).toNat

def floorLog2 (num den : Nat) : Int :=
  let k : Int := (num.log2 : Int) - den.log2
  if scaleNum num (-k) < scaleDen den (-k) then k - 1 else k

/-- The representable value nearest to `num / den · 2 ^ e`; nothing when that is out of range. -/
def nearest (num den : Nat) (e : Int) : Option Binary64 :=
  if num = 0 then some ⟨0, 0⟩
  else
    let num' := scaleNum num e
    let den' := scaleDen den e
    let x := max (floorLog2 num' den' - 52) leastExponent
    let m := roundHalfEven (scaleNum num' (-x)) (scaleDen den' (-x))
    let d : Binary64 := if m = pow2 53 then ⟨pow2 52, x + 1⟩ else ⟨m, x⟩
    if d.exponent > greatestExponent then none else some d

def Binary64.mul? (a b : Binary64) : Option Binary64 :=
  nearest (a.mantissa * b.mantissa) 1 (a.exponent + b.exponent)

def Binary64.div? (a b : Binary64) : Option Binary64 :=
  nearest a.mantissa b.mantissa (a.exponent - b.exponent)

def powerOfTen? (n : Nat) : Option Binary64 :=
  if n ≤ 308 then nearest (pow10 n) 1 0 else none

/-- The value nearest to `digits · 10 ^ e`. Digits far outside the range are not multiplied out. -/
def ofDecimal? (digits : Nat) (e : Int) : Option Binary64 :=
  if digits = 0 then some ⟨0, 0⟩
  else
    let size : Int := (digits.log2 : Int) / 4 + e
    if size > 400 then none
    else if (digits.log2 : Int) + e * 3 < -1500 then some ⟨0, 0⟩
    else nearest (digits * pow10 e.toNat) (pow10 (-e).toNat) 0

end ApiClient.Decimal
