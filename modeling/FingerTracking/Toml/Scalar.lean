import FingerTracking.Numeral
import FingerTracking.Toml.Value

/-!
TOML scalars that stand without quotes: numbers, truth values, dates and times.

Such a scalar is a run of characters of a small set (`isBare`), and the whole run has to be one of
them. A date and a time may also be parted by a blank.
-/

namespace FingerTracking.Toml

/-- A character of a key or scalar without quotes. -/
def isBareKey (c : Char) : Bool :=
  c.isAlphanum || c == '_' || c == '-'

def isBare (c : Char) : Bool :=
  isBareKey c || c == '+' || c == '.' || c == ':'

/-! ## Numbers -/

def isDigitOf (base : Nat) (c : Char) : Bool :=
  match Numeral.digitValue? c with
  | some d => d < base
  | none => false

/-- Digits with an underscore allowed between any two; without the underscores. -/
def grouped? (base : Nat) : List Char → Option (List Char)
  | [] => none
  | [c] => if isDigitOf base c then some [c] else none
  | c :: '_' :: r => if isDigitOf base c then (grouped? base r).map (c :: ·) else none
  | c :: r => if isDigitOf base c then (grouped? base r).map (c :: ·) else none

/-- A decimal number without sign: no zero stands in front of another digit. -/
def decimal? (cs : List Char) : Option (List Char) :=
  match grouped? 10 cs with
  | some ('0' :: _ :: _) => none
  | other => other

/-- A sign and what follows it. -/
def splitSign : List Char → Bool × List Char
  | '-' :: r => (true, r)
  | '+' :: r => (false, r)
  | r => (false, r)

/-- Integers have 64 bits. -/
def inRange? (n : Int) : Option Int :=
  if Int64.minValue.toInt ≤ n ∧ n ≤ Int64.maxValue.toInt then some n else none

def based? (base : Nat) (cs : List Char) : Option Int := do
  let digits ← grouped? base cs
  let n ← Numeral.ofDigits? base digits
  inRange? n

def integer? : List Char → Option Int
  | '0' :: 'x' :: r => based? 16 r
  | '0' :: 'o' :: r => based? 8 r
  | '0' :: 'b' :: r => based? 2 r
  | cs => do
    let (negative, r) := splitSign cs
    let digits ← decimal? r
    let n ← Numeral.ofDigits? 10 digits
    inRange? (if negative then -(n : Int) else n)

/-- An exponent, with what marks it. -/
def isExponent : List Char → Bool
  | 'e' :: r | 'E' :: r => (grouped? 10 (splitSign r).2).isSome
  | _ => false

def isFloat (cs : List Char) : Bool :=
  let r := (splitSign cs).2
  let notMark (c : Char) : Bool := c != 'e' && c != 'E'
  let mantissa := r.takeWhile notMark
  let exponent := r.dropWhile notMark
  let whole := mantissa.takeWhile (· != '.')
  r == ['i', 'n', 'f'] || r == ['n', 'a', 'n'] ||
    ((decimal? whole).isSome &&
      match mantissa.dropWhile (· != '.') with
      | [] => isExponent exponent
      | _ :: fraction =>
        (grouped? 10 fraction).isSome && (exponent.isEmpty || isExponent exponent))

/-! ## Dates and times -/

/-- A number of as many digits as there are characters. -/
def digits? (cs : List Char) : Option Nat :=
  Numeral.ofDigits? 10 cs

def isLeap (year : Nat) : Bool :=
  year % 4 == 0 && (year % 100 != 0 || year % 400 == 0)

def daysIn (year month : Nat) : Nat :=
  if month = 2 then (if isLeap year then 29 else 28)
  else if month ∈ [4, 6, 9, 11] then 30
  else 31

def isDate : List Char → Bool
  | [a, b, c, d, '-', e, f, '-', g, h] =>
    match digits? [a, b, c, d], digits? [e, f], digits? [g, h] with
    | some year, some month, some day =>
      1 ≤ month && month ≤ 12 && 1 ≤ day && day ≤ daysIn year month
    | _, _, _ => false
  | _ => false

def isBelow (bound : Nat) (cs : List Char) : Bool :=
  match digits? cs with
  | some n => n < bound
  | none => false

/-- A distance from universal time, or none. -/
def isOffset : List Char → Bool
  | [] | ['Z'] | ['z'] => true
  | [s, a, b, ':', c, d] => (s == '+' || s == '-') && isBelow 24 [a, b] && isBelow 60 [c, d]
  | _ => false

/-- A time of day, with a distance from universal time if `offset` allows it. -/
def isTime (offset : Bool) : List Char → Bool
  | a :: b :: ':' :: c :: d :: ':' :: e :: f :: r =>
    isBelow 24 [a, b] && isBelow 60 [c, d] && isBelow 61 [e, f] &&
      match r with
      | '.' :: r =>
        let fraction := r.takeWhile Char.isDigit
        let rest := r.dropWhile Char.isDigit
        !fraction.isEmpty && (rest.isEmpty || (offset && isOffset rest))
      | r => r.isEmpty || (offset && isOffset r)
  | _ => false

/-- A date, a time, or both with a `T` between them. -/
def isMoment (cs : List Char) : Bool :=
  isDate cs || isTime false cs ||
    (isDate (cs.take 10) &&
      match cs.drop 10 with
      | 'T' :: r | 't' :: r => isTime true r
      | _ => false)

/-! ## All of them -/

def bareValue? (cs : List Char) : Option Value :=
  if cs = ['t', 'r', 'u', 'e'] then some (.truth true)
  else if cs = ['f', 'a', 'l', 's', 'e'] then some (.truth false)
  else if isMoment cs then some (.moment (String.ofList cs))
  else
    match integer? cs with
    | some n => some (.integer n)
    | none => if isFloat cs then some (.float (String.ofList cs)) else none

/-- The scalar that begins here, if one does. -/
def scalarValue? (cs : List Char) : Option (Value × List Char) :=
  let word := cs.takeWhile isBare
  let rest := cs.dropWhile isBare
  match rest with
  | ' ' :: r =>
    let time := r.takeWhile isBare
    if isDate word && isTime true time then
      some (.moment (String.ofList (word ++ [' '] ++ time)), r.dropWhile isBare)
    else (bareValue? word).map fun v => (v, rest)
  | _ => (bareValue? word).map fun v => (v, rest)

end FingerTracking.Toml
