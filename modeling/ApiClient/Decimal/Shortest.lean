import ApiClient.Decimal.Binary64

namespace ApiClient.Decimal

structure Digits where
  digits : Nat
  exponent : Int
deriving DecidableEq, Repr

/-- The reals that round to a value are those between `low` and `high`, in quarters of its unit. -/
def lowQuarters (d : Binary64) : Nat :=
  if d.mantissa = pow2 52 ∧ d.exponent > leastExponent then 4 * d.mantissa - 1
  else 4 * d.mantissa - 2

def highQuarters (d : Binary64) : Nat :=
  4 * d.mantissa + 2

/-- Whether `n · 10 ^ k` rounds to the value. The ends belong to it when its mantissa is even. -/
def roundsTo (d : Binary64) (k : Int) (n : Nat) : Bool :=
  let point := n * pow10 k.toNat * pow2 (2 - d.exponent).toNat
  let unit := pow10 (-k).toNat * pow2 (d.exponent - 2).toNat
  let low := lowQuarters d * unit
  let high := highQuarters d * unit
  if d.mantissa % 2 = 0 then low ≤ point && point ≤ high else low < point && point < high

def gridPoint? (d : Binary64) (k : Int) : Option Nat :=
  let num := d.mantissa * pow2 d.exponent.toNat * pow10 (-k).toNat
  let den := pow2 (-d.exponent).toNat * pow10 k.toNat
  let below := num / den
  let nearer := roundHalfEven num den
  if below ≠ 0 ∧ roundsTo d k below ∧ roundsTo d k (below + 1) then some nearer
  else if below ≠ 0 ∧ roundsTo d k below then some below
  else if roundsTo d k (below + 1) then some (below + 1)
  else none

def topExponent (d : Binary64) : Int :=
  ((d.mantissa.log2 : Int) + d.exponent + 1) * 30103 / 100000 + 1

def shortest (d : Binary64) : Digits :=
  if d.mantissa = 0 then ⟨0, 0⟩
  else
    let grids := (List.range 25).map fun (i : Nat) => topExponent d - (i : Int)
    (grids.findSome? fun k => (gridPoint? d k).map fun n => (⟨n, k⟩ : Digits)).getD ⟨0, 0⟩

end ApiClient.Decimal
