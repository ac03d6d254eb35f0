import TypedPacket.Number.Binary64
import TypedPacket.Toml.Lexeme
import TypedPacket.Toml.Value

/-!
# Numbers, flags and moments

The scalars that stand without delimiters. Each is read from its characters as a whole, which are
those up to the next that no scalar has; only a date and a time may be set apart by a blank.
-/

set_option autoImplicit false
set_option relaxedAutoImplicit false

namespace TypedPacket.Toml

/-! ### Digits -/

def digitValue (c : Char) : Nat :=
  if c.isDigit then c.toNat - '0'.toNat
  else if c.isLower then c.toNat - 'a'.toNat + 10
  else c.toNat - 'A'.toNat + 10

/-- The number with the given digits. -/
def numberOf (base : Nat) (digits : List Char) : Nat :=
  digits.foldl (fun n c => base * n + digitValue c) 0

/-- Digits, between which single underscores may stand, without the underscores. -/
def digitRun (isDigit : Char → Bool) : List Char → Option (List Char)
  | [] => none
  | [c] => if isDigit c then some [c] else none
  | c :: '_' :: rest => if isDigit c then (digitRun isDigit rest).map (c :: ·) else none
  | c :: rest => if isDigit c then (digitRun isDigit rest).map (c :: ·) else none

/-- Decimal digits, the first of several not a zero. -/
def decimalRun (token : List Char) : Option (List Char) :=
  match digitRun Char.isDigit token with
  | some ('0' :: _ :: _) => none
  | digits => digits

def isHexDigit (c : Char) : Bool := c.isDigit || ('a' ≤ c && c ≤ 'f') || ('A' ≤ c && c ≤ 'F')

def isOctalDigit (c : Char) : Bool := '0' ≤ c && c ≤ '7'

def isBinaryDigit (c : Char) : Bool := c = '0' || c = '1'

/-- Whether a sign is a minus, and what follows it. -/
def splitSign : List Char → Bool × List Char
  | '-' :: rest => (true, rest)
  | '+' :: rest => (false, rest)
  | token => (false, token)

/-! ### Integers -/

/-- The largest integer of a document. -/
def maxInteger : Nat := 2 ^ 63 - 1

/-- The integer of a token, if it has one and it is in range. -/
def integer? (token : List Char) : Option Int := do
  let n ← match token with
    | '0' :: 'x' :: rest => (digitRun isHexDigit rest).map fun run => (numberOf 16 run : Int)
    | '0' :: 'o' :: rest => (digitRun isOctalDigit rest).map fun run => (numberOf 8 run : Int)
    | '0' :: 'b' :: rest => (digitRun isBinaryDigit rest).map fun run => (numberOf 2 run : Int)
    | token =>
      let (minus, rest) := splitSign token
      (decimalRun rest).map fun run =>
        if minus then -(numberOf 10 run : Int) else (numberOf 10 run : Int)
  if -(maxInteger : Int) - 1 ≤ n ∧ n ≤ maxInteger then some n else none

/-! ### Numbers with a fraction or an exponent -/

/-- The digits of a fraction; none are there without a point. -/
def fractionRun : List Char → Option (List Char)
  | [] => some []
  | '.' :: rest => digitRun Char.isDigit rest
  | _ => none

/-- The exponent after its letter; zero without one. -/
def exponentOf : List Char → Option Int
  | [] => some 0
  | _ :: rest =>
    let (minus, rest) := splitSign rest
    (digitRun Char.isDigit rest).map fun run =>
      if minus then -(numberOf 10 run : Int) else (numberOf 10 run : Int)

/-- The bits of a token without its sign. Only a negative number may be beyond the finite ones. -/
def magnitude? (minus : Bool) (token : List Char) : Option UInt64 :=
  if token = ['i', 'n', 'f'] then some 0x7FF0000000000000
  else if token = ['n', 'a', 'n'] then some 0x7FF8000000000000
  else do
    let isLetter (c : Char) : Bool := c = 'e' || c = 'E'
    let whole := token.takeWhile fun c => c.isDigit || c = '_'
    let rest := token.drop whole.length
    let fraction ← fractionRun (rest.takeWhile fun c => !isLetter c)
    let exponent ← exponentOf (rest.dropWhile fun c => !isLetter c)
    let digits ← decimalRun whole
    if rest.isEmpty then none
    else
      match Binary64.ofDecimal (numberOf 10 (digits ++ fraction)) (exponent - fraction.length) with
      | some bits => some bits
      | none => if minus then some 0x7FF0000000000000 else none

def double? (token : List Char) : Option UInt64 :=
  let (minus, rest) := splitSign token
  (magnitude? minus rest).map fun bits => if minus then Binary64.negate bits else bits

/-! ### Dates and times -/

/-- A number of exactly the given digits. -/
def plainNumber? (digits : List Char) : Option Nat :=
  if digits.all Char.isDigit then some (numberOf 10 digits) else none

def isLeapYear (year : Nat) : Bool := year % 4 = 0 && (year % 100 ≠ 0 || year % 400 = 0)

def daysIn (year month : Nat) : Nat :=
  if month = 2 then (if isLeapYear year then 29 else 28)
  else if [4, 6, 9, 11].contains month then 30
  else 31

/-- The rest after a date. -/
def afterDate? : List Char → Option (List Char)
  | y₁ :: y₂ :: y₃ :: y₄ :: '-' :: m₁ :: m₂ :: '-' :: d₁ :: d₂ :: rest => do
    let year ← plainNumber? [y₁, y₂, y₃, y₄]
    let month ← plainNumber? [m₁, m₂]
    let day ← plainNumber? [d₁, d₂]
    if 1 ≤ month ∧ month ≤ 12 ∧ 1 ≤ day ∧ day ≤ daysIn year month then some rest else none
  | _ => none

/-- The rest after an hour and a minute. -/
def afterMinute? : List Char → Option (List Char)
  | h₁ :: h₂ :: ':' :: m₁ :: m₂ :: rest => do
    let hour ← plainNumber? [h₁, h₂]
    let minute ← plainNumber? [m₁, m₂]
    if hour ≤ 23 ∧ minute ≤ 59 then some rest else none
  | _ => none

/-- The rest after a time of day. The sixtieth second is for leap seconds. -/
def afterTime? (input : List Char) : Option (List Char) := do
  match ← afterMinute? input with
  | ':' :: s₁ :: s₂ :: rest =>
    let second ← plainNumber? [s₁, s₂]
    if 60 < second then none
    else match rest with
      | '.' :: c :: rest => if c.isDigit then some (rest.dropWhile Char.isDigit) else none
      | '.' :: [] => none
      | rest => some rest
  | _ => none

/-- The whole input is an offset from universal time, or there is none. -/
def isOffset : List Char → Bool
  | [] => true
  | [c] => c = 'Z' || c = 'z'
  | c :: rest => (c = '+' || c = '-') && afterMinute? rest == some []

/-- The token is a date, a time of day, or a date and a time with or without an offset. -/
def isMoment (token : List Char) : Bool :=
  match afterDate? token with
  | some [] => true
  | some (c :: rest) =>
    (c = 'T' || c = 't' || c = ' ') && (afterTime? rest).any isOffset
  | none => afterTime? token == some []

/-! ### Tokens -/

def isScalarChar (c : Char) : Bool :=
  c.isAlphanum || c = '+' || c = '-' || c = '_' || c = '.' || c = ':'

/-- Splits off the characters of a scalar. -/
def splitScalar (input : List Char) : List Char × List Char :=
  let token := input.takeWhile isScalarChar
  match input.dropWhile isScalarChar with
  | ' ' :: c :: rest =>
    if c.isDigit ∧ afterDate? token = some [] then
      (token ++ ' ' :: (c :: rest).takeWhile isScalarChar, (c :: rest).dropWhile isScalarChar)
    else (token, ' ' :: c :: rest)
  | rest => (token, rest)

/-- The value of a token. -/
def scalarOf (token : List Char) : Option Value :=
  if token = ['t', 'r', 'u', 'e'] then some (.flag true)
  else if token = ['f', 'a', 'l', 's', 'e'] then some (.flag false)
  else match integer? token with
    | some n => some (.integer n)
    | none => match double? token with
      | some bits => some (.double bits)
      | none => if isMoment token then some .moment else none

/-- Reads a scalar. -/
def scalar : Reader Value := fun input =>
  let (token, rest) := splitScalar input
  (scalarOf token).map (·, rest)

end TypedPacket.Toml
