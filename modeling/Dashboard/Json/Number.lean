import Dashboard.Json.Basic
import Dashboard.Text.Letter

/-!
Numbers of JSON text. An integer that fits 64 bits keeps its kind. Any other number is read into a
64-bit significand, digits that no longer fit being dropped, and a power of ten; the power is then
applied by one rounded multiplication or division of doubles.
-/
namespace Dashboard.Json

def digitValue (c : Char) : Nat := c.toNat - 48

def significandLimit : Nat := twoTo 64 - 1

/-- What is known of a number: its significand and power of ten so far. -/
structure Magnitude where
  significand : Nat
  exponent : Int
  deriving DecidableEq, Repr

/-- Digits before the point: once one does not fit, it and all later ones count as zeros. -/
def wholePart : Magnitude → List Char → Magnitude
  | m, [] => m
  | m, d :: more =>
    if m.exponent = 0 ∧ m.significand * 10 + digitValue d ≤ significandLimit then
      wholePart ⟨m.significand * 10 + digitValue d, 0⟩ more
    else wholePart ⟨m.significand, m.exponent + 1⟩ more

/-- Digits after the point, up to the first that does not fit. -/
def fractionPart : Magnitude → List Char → Magnitude
  | m, [] => m
  | m, d :: more =>
    if m.significand * 10 + digitValue d ≤ significandLimit then
      fractionPart ⟨m.significand * 10 + digitValue d, m.exponent - 1⟩ more
    else m

def powerOfTen (n : Nat) : Binary64 := .ofDecimal false 1 n

/-- Multiplies by `10 ^ exponent`; below `10 ^ -308` in steps. No result where it overflows. -/
def applyPower (x : Binary64) (exponent : Int) : Option Binary64 :=
  if 308 < exponent then if x.isZero then some x else none
  else if 0 ≤ exponent then
    let y := x.mul (powerOfTen exponent.toNat)
    if y.isFinite then some y else none
  else if -308 ≤ exponent then some (x.div (powerOfTen exponent.natAbs))
  else if x.isZero then some x
  else applyPower (x.div (powerOfTen 308)) (exponent + 308)
termination_by exponent.natAbs
decreasing_by omega

def exponentLimit : Nat := twoTo 31 - 1

/-- An exponent too large to be kept makes a zero of a negative power and nothing of a positive
one, unless the significand is zero. -/
def signedPower (m : Magnitude) (negative : Bool) (digits : List Char) : Option Binary64 :=
  let size := digits.foldl (fun n d => n * 10 + digitValue d) 0
  if exponentLimit < size then
    if m.significand ≠ 0 ∧ negative = false then none else some (.zero false)
  else
    applyPower (.ofNat m.significand) (if negative then m.exponent - size else m.exponent + size)

/-- The parts of a number as they are written. -/
structure Numeral where
  negative : Bool
  whole : List Char
  fraction : Option (List Char)
  exponent : Option (Bool × List Char)
  deriving Repr

def Numeral.value (n : Numeral) : Option Json :=
  let sign := fun x : Binary64 => Json.float (if n.negative then x.negate else x)
  let whole := wholePart ⟨0, 0⟩ n.whole
  match n.fraction, n.exponent with
  | none, none =>
    let integer : Int := if n.negative then -whole.significand else whole.significand
    if whole.exponent ≠ 0 then (applyPower (.ofNat whole.significand) whole.exponent).map sign
    else if (n.negative ∧ integer = 0) ∨ ¬ isInteger integer then
      some (sign (.ofNat whole.significand))
    else some (.int integer)
  | fraction, exponent =>
    let m := fractionPart whole (fraction.getD [])
    match exponent with
    | none => (applyPower (.ofNat m.significand) m.exponent).map sign
    | some (negative, digits) => (signedPower m negative digits).map sign

def digitRun (text : List Char) : List Char :=
  text.takeWhile Text.isAsciiDigit

/-- Splits off an exponent; the count says how many characters it takes. -/
def exponentPart (text : List Char) : Option (Option (Bool × List Char) × Nat) :=
  match text with
  | c :: rest =>
    if c = 'e' ∨ c = 'E' then
      let signed : Bool × Nat := match rest with
        | '-' :: _ => (true, 1)
        | '+' :: _ => (false, 1)
        | _ => (false, 0)
      let digits := digitRun (rest.drop signed.2)
      if digits.isEmpty then none else some (some (signed.1, digits), 1 + signed.2 + digits.length)
    else some (none, 0)
  | [] => some (none, 0)

def fractionDigits (text : List Char) : Option (Option (List Char) × Nat) :=
  match text with
  | '.' :: rest =>
    let digits := digitRun rest
    if digits.isEmpty then none else some (some digits, 1 + digits.length)
  | _ => some (none, 0)

/-- The number at the start of a text and how many characters it takes. A leading zero stands
alone before the point. -/
def numeral? (text : List Char) : Option (Numeral × Nat) := do
  let negative := text.head? = some '-'
  let start := if negative then 1 else 0
  let run := digitRun (text.drop start)
  let whole := if run.head? = some '0' then ['0'] else run
  if whole.isEmpty then none
  let afterWhole := start + whole.length
  let fraction ← fractionDigits (text.drop afterWhole)
  let afterFraction := afterWhole + fraction.2
  let exponent ← exponentPart (text.drop afterFraction)
  some (⟨negative, whole, fraction.1, exponent.1⟩, afterFraction + exponent.2)

end Dashboard.Json
