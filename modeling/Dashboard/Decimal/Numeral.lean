import Dashboard.Decimal.Binary64
import Dashboard.Text.Letter

/-!
Decimal numerals: an optional sign, digits with at most one point among or around them, and an
optional exponent. At least one digit stands before the exponent, and one in it.
-/
namespace Dashboard.Decimal

def digitsValue (digits : List Char) : Nat :=
  digits.foldl (fun n d => n * 10 + (d.toNat - 48)) 0

def signed (text : List Char) : Bool × List Char :=
  match text with
  | '-' :: rest => (true, rest)
  | '+' :: rest => (false, rest)
  | rest => (false, rest)

/-- The power of ten that follows the digits; none where the text is not an exponent. -/
def exponent? (text : List Char) : Option Int :=
  match text with
  | [] => some 0
  | c :: rest =>
    if c = 'e' ∨ c = 'E' then
      let (negative, digits) := signed rest
      if digits.isEmpty || !digits.all Text.isAsciiDigit then none
      else
        let size : Int := digitsValue digits
        some (if negative then -size else size)
    else none

/-- The nearest double to an unsigned numeral. -/
def unsigned? (negative : Bool) (text : List Char) : Option Binary64 :=
  let whole := text.takeWhile Text.isAsciiDigit
  let afterWhole := text.dropWhile Text.isAsciiDigit
  let fraction := match afterWhole with
    | '.' :: rest => rest.takeWhile Text.isAsciiDigit
    | _ => []
  let afterFraction := match afterWhole with
    | '.' :: rest => rest.dropWhile Text.isAsciiDigit
    | rest => rest
  if whole.isEmpty && fraction.isEmpty then none
  else (exponent? afterFraction).map fun e =>
    .ofDecimal negative (digitsValue (whole ++ fraction)) (e - fraction.length)

def numeral? (text : List Char) : Option Binary64 :=
  let (negative, rest) := signed text
  unsigned? negative rest

example : numeral? "1e3".toList = some (.ofNat 1000) := by decide +kernel
example : (numeral? ".5".toList).isSome ∧ (numeral? "5.".toList).isSome ∧ numeral? ".".toList = none := by
  decide +kernel

end Dashboard.Decimal
