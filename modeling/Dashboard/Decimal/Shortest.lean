import Dashboard.Decimal.Binary64

/-!
Decimal text of doubles. The digits are the fewest that read back as the same double, and of those
the nearest to it; a layout then fixes which of two equally near ones it is, where the point stands
and when an exponent is written.
-/
namespace Dashboard

/-- The number `digits · 10 ^ exponent`. -/
structure Decimal where
  digits : Nat
  exponent : Int
  deriving DecidableEq, Repr

namespace Decimal

def digitCount (n : Nat) : Nat := (Nat.toDigits 10 n).length

/-- The power of ten at which the first digit of the positive number `num / den` stands. -/
def leadingExponent (num den : Nat) : Int :=
  if den ≤ num then (digitCount (num / den) : Int) - 1
  else
    let size := digitCount (den / num)
    if den = num * tenTo (size - 1) then 1 - (size : Int) else -(size : Int)

/-- Where a number goes that lies halfway between two. -/
inductive Tie where
  | toEven | up
  deriving DecidableEq, Repr

/-- Whether a number halfway above `low` goes up. -/
def Tie.goesUp (low : Nat) : Tie → Bool
  | toEven => low % 2 = 1
  | up => true

/-- The multiples of `10 ^ exponent` on both sides of `num / den`, and whether the upper one is
the nearer. -/
def neighbours (tie : Tie) (num den : Nat) (exponent : Int) : Decimal × Decimal × Bool :=
  let scaled : Nat × Nat :=
    if 0 ≤ exponent then (num, den * tenTo exponent.toNat) else (num * tenTo (-exponent).toNat, den)
  let low := scaled.1 / scaled.2
  let rest := scaled.1 % scaled.2
  let high := if rest = 0 then low else low + 1
  let upper := scaled.2 < 2 * rest || (scaled.2 = 2 * rest && tie.goesUp low)
  (⟨low, exponent⟩, ⟨high, exponent⟩, upper)

/-- The same number without zeros at the end of its digits. -/
def stripped (d : Decimal) : Decimal :=
  if h : d.digits ≠ 0 ∧ d.digits % 10 = 0 then stripped ⟨d.digits / 10, d.exponent + 1⟩ else d
termination_by d.digits
decreasing_by omega

def readsBack (x : Binary64) (d : Decimal) : Bool :=
  Binary64.ofDecimal x.isNegative d.digits d.exponent = x

/-- The candidate with `count` digits that reads back, the nearer one if both do. -/
def candidate? (tie : Tie) (x : Binary64) (num den : Nat) (count : Nat) : Option Decimal :=
  let n := neighbours tie num den (leadingExponent num den - count + 1)
  let first := if n.2.2 then n.2.1 else n.1
  let second := if n.2.2 then n.1 else n.2.1
  if readsBack x first then some first
  else if readsBack x second then some second
  else none

/-- The first hit for 1, 2, … 17 digits. Seventeen digits always suffice for a canonical double;
the exact value stands in where the search finds none. -/
def shortest (tie : Tie) : Binary64 → Decimal
  | .infinite _ => ⟨0, 0⟩
  | x@(.finite _ m e) =>
    if m = 0 then ⟨0, 0⟩
    else
      let q := Binary64.ratio m e
      match (List.range 17).findSome? fun i => candidate? tie x q.1 q.2 (i + 1) with
      | some d => d.stripped
      | none => if 0 ≤ e then ⟨q.1, 0⟩ else ⟨m * Nat.pow 5 (-e).toNat, e⟩

/-- Where positional text is used: while the power of ten of the first digit lies between `low`
and `high`. A positive exponent may carry a sign. -/
structure Layout where
  low : Int
  high : Int
  plus : Bool
  tie : Tie

def zeros (n : Nat) : List Char := List.replicate n '0'

def positional (digits : List Char) (leading : Int) : List Char :=
  if leading < 0 then ['0', '.'] ++ zeros (-leading - 1).toNat ++ digits
  else
    let whole := leading.toNat + 1
    if digits.length ≤ whole then digits ++ zeros (whole - digits.length) ++ ['.', '0']
    else digits.take whole ++ ['.'] ++ digits.drop whole

def scientific (plus : Bool) (digits : List Char) (leading : Int) : List Char :=
  let fraction := match digits with
    | [] => []
    | [d] => [d]
    | d :: more => d :: '.' :: more
  let sign := if leading < 0 then ['-'] else if plus then ['+'] else []
  fraction ++ ['e'] ++ sign ++ Nat.toDigits 10 leading.natAbs

def Layout.chars (layout : Layout) (x : Binary64) : List Char :=
  let d := shortest layout.tie x
  let digits := Nat.toDigits 10 d.digits
  let leading : Int := d.exponent + (digits.length : Int) - 1
  let sign := if x.isNegative then ['-'] else []
  sign ++
    (if !x.isFinite then ['i', 'n', 'f']
    else if layout.low ≤ leading && leading ≤ layout.high then positional digits leading
    else scientific layout.plus digits leading)

example : shortest .toEven (Binary64.ofDecimal false 3 (-1)) = ⟨3, -1⟩ := by decide +kernel
example : shortest .toEven (.finite false 1 (-1074)) = ⟨5, -324⟩ := by decide +kernel
example : shortest .toEven (Binary64.ofDecimal false 1 (-7)) = ⟨1, -7⟩ := by decide +kernel
example : shortest .toEven (.finite true (twoTo 53 - 1) 971) = ⟨17976931348623157, 292⟩ := by
  decide +kernel
example : (shortest .toEven (Binary64.ofDecimal false 224923824687554425 (-2)),
    shortest .up (Binary64.ofDecimal false 224923824687554425 (-2))) =
      (⟨22492382468755442, -1⟩, ⟨22492382468755443, -1⟩) := by decide +kernel

end Decimal

end Dashboard
