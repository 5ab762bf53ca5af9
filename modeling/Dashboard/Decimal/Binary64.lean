/-!
Double-precision numbers as exact values `± significand · 2 ^ exponent`. Every result is the exact
value rounded once, to the nearest representable number, a tie to the even significand.
-/
namespace Dashboard

def twoTo (n : Nat) : Nat := Nat.pow 2 n

def tenTo (n : Nat) : Nat := Nat.pow 10 n

/-- A finite number keeps its significand below `2 ^ 53` and its exponent at least `-1074`; the
significand is at least `2 ^ 52` unless the exponent is `-1074`. -/
inductive Binary64 where
  | finite (negative : Bool) (significand : Nat) (exponent : Int)
  | infinite (negative : Bool)
  deriving DecidableEq, Repr, Inhabited

namespace Binary64

def zero (negative : Bool) : Binary64 := .finite negative 0 (-1074)

def IsCanonical : Binary64 → Prop
  | finite _ m e =>
    m < twoTo 53 ∧ -1074 ≤ e ∧ e ≤ 971 ∧ (twoTo 52 ≤ m ∨ e = -1074)
  | infinite _ => True

/-- The quotient rounded to the nearest natural number, a tie to the even one. -/
def roundDiv (num den : Nat) : Nat :=
  let q := num / den
  let r := num % den
  if 2 * r < den then q
  else if den < 2 * r then q + 1
  else if q % 2 = 0 then q else q + 1

/-- The quotient of `num · 2 ^ -e` by `den`, as a fraction of natural numbers. -/
def scaleDown (num den : Nat) (e : Int) : Nat × Nat :=
  if 0 ≤ e then (num, den * twoTo e.toNat) else (num * twoTo (-e).toNat, den)

/-- The exponent at which a positive quotient has a significand of 53 bits, or the least one. -/
def exponentOf (num den : Nat) : Int :=
  let guess : Int := (num.log2 : Int) - (den.log2 : Int) - 52
  let scaled := scaleDown num den guess
  let exact := if scaled.1 < twoTo 52 * scaled.2 then guess - 1 else guess
  max exact (-1074)

/-- The double nearest to `± num / den`. -/
def ofRatio (negative : Bool) (num den : Nat) : Binary64 :=
  if num = 0 then zero negative
  else
    let e := exponentOf num den
    let scaled := scaleDown num den e
    let m := roundDiv scaled.1 scaled.2
    let rounded : Nat × Int := if m = twoTo 53 then (twoTo 52, e + 1) else (m, e)
    if 971 < rounded.2 then .infinite negative else .finite negative rounded.1 rounded.2

/-- The double nearest to `± digits · 10 ^ exponent`. Exponents so far out that the result is
infinite or zero whatever the digits are settled without building the power. -/
def ofDecimal (negative : Bool) (digits : Nat) (exponent : Int) : Binary64 :=
  if digits = 0 then zero negative
  else
    let size : Int := (Nat.toDigits 10 digits).length
    if 400 < size + exponent then .infinite negative
    else if size + exponent < -400 then zero negative
    else if 0 ≤ exponent then ofRatio negative (digits * tenTo exponent.toNat) 1
    else ofRatio negative digits (tenTo (-exponent).toNat)

def ofNat (n : Nat) : Binary64 := ofRatio false n 1

def ofInt (n : Int) : Binary64 := ofRatio (n < 0) n.natAbs 1

def isNegative : Binary64 → Bool
  | finite s _ _ => s
  | infinite s => s

def isFinite : Binary64 → Bool
  | finite .. => true
  | infinite _ => false

def isZero : Binary64 → Bool
  | finite _ m _ => m = 0
  | infinite _ => false

def negate : Binary64 → Binary64
  | finite s m e => .finite (!s) m e
  | infinite s => .infinite (!s)

/-- The magnitude of a finite number as a fraction. -/
def ratio (m : Nat) (e : Int) : Nat × Nat :=
  if 0 ≤ e then (m * twoTo e.toNat, 1) else (m, twoTo (-e).toNat)

def magnitudeBelow (x : Binary64) (bound : Nat) : Bool :=
  match x with
  | finite _ m e => let q := ratio m e; q.1 < bound * q.2
  | infinite _ => false

def magnitudeAbove (x : Binary64) (bound : Nat) : Bool :=
  match x with
  | finite _ m e => let q := ratio m e; bound * q.2 < q.1
  | infinite _ => true

/-- The integer that a finite number without fraction equals. -/
def toInt? : Binary64 → Option Int
  | finite s m e =>
    let q := ratio m e
    if q.1 % q.2 = 0 then
      let n : Int := q.1 / q.2
      some (if s then -n else n)
    else none
  | infinite _ => none

def mul : Binary64 → Binary64 → Binary64
  | finite s m e, finite t n f =>
    let p := ratio m e
    let q := ratio n f
    ofRatio (s != t) (p.1 * q.1) (p.2 * q.2)
  | x, y => .infinite (x.isNegative != y.isNegative)

/-- Division by a finite number other than zero. -/
def div : Binary64 → Binary64 → Binary64
  | finite s m e, finite t n f =>
    let p := ratio m e
    let q := ratio n f
    ofRatio (s != t) (p.1 * q.2) (p.2 * q.1)
  | finite s _ _, infinite t => zero (s != t)
  | infinite s, y => .infinite (s != y.isNegative)

example : ofDecimal false 1 (-1) = .finite false 0x1999999999999a (-56) := by decide +kernel
example : ofDecimal false 49 (-325) = .finite false 1 (-1074) := by decide +kernel
example : ofDecimal false 9007199254740993 0 = .finite false (twoTo 52) 1 := by decide +kernel
example : (ofDecimal false 1 309, ofDecimal true 1 (-400)) = (.infinite false, zero true) := by
  decide +kernel

end Binary64

end Dashboard
