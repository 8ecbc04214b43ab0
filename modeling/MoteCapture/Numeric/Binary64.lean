import MoteCapture.Text.Basic

/-!
Binary floating point with 53 bits, in exact arithmetic on natural numbers. Decimal text is rounded
to the nearest number, a half to the even mantissa; a number is written with the fewest digits that
are rounded back to it, and of those with the ones that are nearest to it, a half away from zero.
-/

namespace MoteCapture

open Text

/-- A finite number is `mantissa * 2 ^ exponent` with a sign. -/
inductive Binary64 where
  | finite (negative : Bool) (mantissa : Nat) (exponent : Int)
  | infinite (negative : Bool)
  | notANumber
  deriving DecidableEq, Repr

namespace Binary64

def leastExponent : Int := -1074

def greatestExponent : Int := 971

def divideEven (num den : Nat) : Nat :=
  let floor := num / den
  let twice := 2 * (num % den)
  if twice < den then floor
  else if den < twice then floor + 1
  else floor + floor % 2

def scaleDown (num den : Nat) (exponent : Int) : Nat × Nat :=
  let power := Nat.pow 2 exponent.natAbs
  if exponent < 0 then (num * power, den) else (num, den * power)

def leastFull : Nat := Nat.pow 2 52

def exponentOf (num den : Nat) : Int :=
  let guess : Int := Nat.log2 num - Nat.log2 den - 52
  let scaled := scaleDown num den guess
  max leastExponent (if scaled.1 / scaled.2 < leastFull then guess - 1 else guess)

def ofRatio (negative : Bool) (num den : Nat) : Binary64 :=
  if num == 0 then .finite negative 0 leastExponent
  else
    let exponent := exponentOf num den
    let scaled := scaleDown num den exponent
    let mantissa := divideEven scaled.1 scaled.2
    let carried :=
      if mantissa == 2 * leastFull then (leastFull, exponent + 1) else (mantissa, exponent)
    if greatestExponent < carried.2 then .infinite negative
    else .finite negative carried.1 carried.2

/-- The number nearest to `digits * 10 ^ power`. Powers far out of range are not computed. -/
def ofDecimal (negative : Bool) (digits : Nat) (power : Int) : Binary64 :=
  let size := power + (Numeral.write digits).length
  if digits == 0 || size < -400 then .finite negative 0 leastExponent
  else if 400 < size then .infinite negative
  else if power < 0 then ofRatio negative digits (Nat.pow 10 power.natAbs)
  else ofRatio negative (digits * Nat.pow 10 power.natAbs) 1

def ofNat (n : Nat) : Binary64 :=
  ofDecimal false n 0

def isFinite : Binary64 → Bool
  | .finite .. => true
  | _ => false

def readMantissa? (text : List Char) : Option (Nat × Nat) :=
  let parts := (cutAt? (· == '.') text).getD (text, [])
  if (parts.1 ++ parts.2).all Numeral.isDigit && !(parts.1 ++ parts.2).isEmpty then
    some (Numeral.continueFrom 0 (parts.1 ++ parts.2), parts.2.length)
  else none

def readPower? : List Char → Option Int
  | '-' :: text => (Numeral.readDigits? text).map fun n => -(n : Int)
  | '+' :: text => (Numeral.readDigits? text).map fun n => (n : Int)
  | text => (Numeral.readDigits? text).map fun n => (n : Int)

def readUnsigned? (negative : Bool) (text : List Char) : Option Binary64 :=
  let lower := text.map Char.toLower
  if lower == ['i', 'n', 'f'] || lower == ['i', 'n', 'f', 'i', 'n', 'i', 't', 'y'] then
    some (.infinite negative)
  else if lower == ['n', 'a', 'n'] then some .notANumber
  else
    match cutAt? (fun c => c == 'e' || c == 'E') text with
    | none =>
        (readMantissa? text).map fun mantissa => ofDecimal negative mantissa.1 (-mantissa.2)
    | some parts =>
        match readMantissa? parts.1, readPower? parts.2 with
        | some mantissa, some power => some (ofDecimal negative mantissa.1 (power - mantissa.2))
        | _, _ => none

def read? : List Char → Option Binary64
  | '-' :: text => readUnsigned? true text
  | '+' :: text => readUnsigned? false text
  | text => readUnsigned? false text

structure Range where
  lower : Nat
  value : Nat
  upper : Nat
  denominator : Nat
  closed : Bool

/-- The bounds lie half way to the neighbours; below a power of two the neighbour is nearer. -/
def range (mantissa : Nat) (exponent : Int) : Range :=
  let step := exponent - 2
  let unit := if step < 0 then 1 else Nat.pow 2 step.natAbs
  let below := if mantissa == leastFull && leastExponent < exponent then 1 else 2
  { lower := (4 * mantissa - below) * unit
    value := 4 * mantissa * unit
    upper := (4 * mantissa + 2) * unit
    denominator := if step < 0 then Nat.pow 2 step.natAbs else 1
    closed := mantissa % 2 == 0 }

def Range.holds (range : Range) (digits : Nat) (power : Int) : Bool :=
  let point :=
    if power < 0 then digits * range.denominator
    else digits * range.denominator * Nat.pow 10 power.natAbs
  let scale := if power < 0 then Nat.pow 10 power.natAbs else 1
  if range.closed then range.lower * scale ≤ point && point ≤ range.upper * scale
  else range.lower * scale < point && point < range.upper * scale

/-- The greatest multiple of `10 ^ power` that is at most the value, and whether the next one is at
least as near to it. -/
def Range.below (range : Range) (power : Int) : Nat × Bool :=
  let scale := Nat.pow 10 power.natAbs
  let num := if power < 0 then range.value * scale else range.value
  let den := if power < 0 then range.denominator else range.denominator * scale
  (num / den, den ≤ 2 * (num % den))

def Range.onGrid? (range : Range) (power : Int) : Option Nat :=
  let found := range.below power
  let low := 0 < found.1 && range.holds found.1 power
  let high := range.holds (found.1 + 1) power
  if low && high then some (if found.2 then found.1 + 1 else found.1)
  else if low then some found.1
  else if high then some (found.1 + 1)
  else none

def Range.search (range : Range) : Nat → Int → Nat × Int
  | 0, power => ((range.below power).1, power)
  | tries + 1, power =>
      match range.onGrid? power with
      | some digits => (digits, power)
      | none => range.search tries (power - 1)

def Range.topPower (range : Range) : Nat → Int → Int
  | 0, power => power
  | tries + 1, power =>
      if (range.below power).1 == 0 then power else range.topPower tries (power + 1)

def dropZeros : Nat → Nat → Int → Nat × Int
  | 0, digits, power => (digits, power)
  | tries + 1, digits, power =>
      if digits % 10 == 0 && digits != 0 then dropZeros tries (digits / 10) (power + 1)
      else (digits, power)

def shortest (mantissa : Nat) (exponent : Int) : Nat × Int :=
  let range := range mantissa exponent
  let found := range.search 800 (range.topPower 800 (-330))
  dropZeros 20 found.1 found.2

def positional (digits : Nat) (power : Int) : List Char :=
  let text := Numeral.write digits
  if 0 ≤ power then text ++ List.replicate power.natAbs '0'
  else if power.natAbs < text.length then
    text.take (text.length - power.natAbs) ++ ['.'] ++ text.drop (text.length - power.natAbs)
  else ['0', '.'] ++ List.replicate (power.natAbs - text.length) '0' ++ text

def write : Binary64 → String
  | .finite negative mantissa exponent =>
      let found := if mantissa == 0 then (0, 0) else shortest mantissa exponent
      String.ofList ((if negative then ['-'] else []) ++ positional found.1 found.2)
  | .infinite negative => if negative then "-inf" else "inf"
  | .notANumber => "NaN"

end Binary64

end MoteCapture
