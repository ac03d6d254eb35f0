import TypedPacket.Json.Stop
import TypedPacket.Text.Utf8

/-!
# Words, numbers and texts of JSON

The lexemes that stand for values. A number is read as a sign, its digits and a power of ten
(`Numeral`); it is an integer when it has neither point nor exponent and a word of 64 bits holds it,
and the nearest binary number otherwise. A text is read octet by octet up to its closing quote, its
escapes are put in, and the whole has to be UTF-8.
-/

set_option autoImplicit false
set_option relaxedAutoImplicit false

namespace TypedPacket.Json

/-- Takes the letters of a word. -/
def word : List UInt8 → Reader Unit
  | [], input => .ok ((), input)
  | _ :: _, [] => stop .endInValue []
  | letter :: letters, octet :: rest =>
    if octet = letter then word letters rest else stop .expectedWord rest

/-- The letters after the first of `null`, `true` and `false`. -/
def nullTail : List UInt8 := [0x75, 0x6C, 0x6C]
def trueTail : List UInt8 := [0x72, 0x75, 0x65]
def falseTail : List UInt8 := [0x61, 0x6C, 0x73, 0x65]

/-! ### Numbers -/

def isDigit (octet : UInt8) : Bool := 0x30 ≤ octet && octet ≤ 0x39

/-- The number of a row of digits, after the number before them. -/
def ofDigits (before : Nat) (digits : List UInt8) : Nat :=
  digits.foldl (fun n digit => 10 * n + (digit.toNat - 0x30)) before

/-- A number as written: `digits * 10 ^ power`. -/
structure Numeral where
  negative : Bool
  digits : Nat
  power : Int
  /-- Written without point and exponent. -/
  whole : Bool
  deriving DecidableEq, Repr

/-- The largest exponent that is read out. -/
def maxExponent : Nat := 2 ^ 31 - 1

/-- Reads the digits of an exponent after its first. An exponent too large to hold decides the number
at once: out of range, or zero. -/
def exponentDigits (digits : Nat) (negativePower : Bool) (sofar : Nat) :
    List UInt8 → Except Stop (Option Nat × List UInt8)
  | [] => .ok (some sofar, [])
  | octet :: rest =>
    if isDigit octet then
      let next := ofDigits sofar [octet]
      if maxExponent < next then
        if digits ≠ 0 ∧ ¬ negativePower then stop .numberOutOfRange rest
        else .ok (none, rest.dropWhile isDigit)
      else exponentDigits digits negativePower next rest
    else .ok (some sofar, octet :: rest)

/-- Reads an exponent after its letter. -/
def exponentPart (digits : Nat) (input : List UInt8) :
    Except Stop ((Bool × Option Nat) × List UInt8) :=
  let (negativePower, input) : Bool × List UInt8 := match input with
    | 0x2B :: rest => (false, rest)
    | 0x2D :: rest => (true, rest)
    | rest => (false, rest)
  match input with
  | [] => stop .endInValue []
  | octet :: rest =>
    if isDigit octet then do
      let (power, rest) ← exponentDigits digits negativePower (ofDigits 0 [octet]) rest
      .ok ((negativePower, power), rest)
    else stop .invalidNumber rest

/-- Reads what may follow the digits before the point and the `places` after it. -/
def scaledTail (negative : Bool) (digits places : Nat) (input : List UInt8) :
    Except Stop (Numeral × List UInt8) :=
  match input with
  | octet :: rest =>
    if octet = 0x65 ∨ octet = 0x45 then do
      let ((negativePower, power), rest) ← exponentPart digits rest
      match power with
      | none => .ok (⟨negative, 0, 0, false⟩, rest)
      | some power =>
        let power : Int := if negativePower then -power else power
        .ok (⟨negative, digits, power - places, false⟩, rest)
    else .ok (⟨negative, digits, -places, false⟩, input)
  | [] => .ok (⟨negative, digits, -places, false⟩, input)

/-- Reads what may follow the digits before the point. -/
def numeralTail (negative : Bool) (digits : Nat) (input : List UInt8) :
    Except Stop (Numeral × List UInt8) :=
  match input with
  | 0x2E :: rest =>
    match rest.span isDigit with
    | ([], []) => stop .endInValue []
    | ([], after) => stopAt .invalidNumber after
    | (places, after) => scaledTail negative (ofDigits digits places) places.length after
  | octet :: _ =>
    if octet = 0x65 ∨ octet = 0x45 then scaledTail negative digits 0 input
    else .ok (⟨negative, digits, 0, true⟩, input)
  | [] => .ok (⟨negative, digits, 0, true⟩, input)

/-- Reads a number after its sign. -/
def numeral (negative : Bool) : Reader Numeral
  | [] => stop .endInValue []
  | octet :: rest =>
    if octet = 0x30 then
      match rest with
      | next :: _ =>
        if isDigit next then stopAt .invalidNumber rest else numeralTail negative 0 rest
      | [] => numeralTail negative 0 rest
    else if isDigit octet then
      let (digits, after) := rest.span isDigit
      numeralTail negative (ofDigits (ofDigits 0 [octet]) digits) after
    else stop .invalidNumber rest

/-- The bits of the nearest binary number. -/
def Numeral.double? (n : Numeral) : Option UInt64 :=
  (Binary64.ofDecimal n.digits n.power).map fun bits =>
    if n.negative then Binary64.negate bits else bits

/-- What a number is read as. A whole number below zero that is not is the negative zero. -/
def Numeral.value? (n : Numeral) : Option Number :=
  let signed : Int := if n.negative then -n.digits else n.digits
  let exact : Option Number :=
    if n.whole ∧ ¬ (n.negative ∧ n.digits = 0) then Number.integer? signed else none
  match exact with
  | some value => some value
  | none => n.double?.bind Number.double?

/-- Reads a number after its sign. -/
def number (negative : Bool) : Reader Number := fun input => do
  let (n, rest) ← numeral negative input
  match n.value? with
  | some value => .ok (value, rest)
  | none => stop .numberOutOfRange rest

/-- Takes the exponent of a number that nobody needs. -/
def skipExponent (input : List UInt8) : Except Stop (Unit × List UInt8) :=
  match input with
  | octet :: rest =>
    if octet = 0x65 ∨ octet = 0x45 then
      let rest := match rest with
        | 0x2B :: rest => rest
        | 0x2D :: rest => rest
        | rest => rest
      match rest with
      | octet :: rest =>
        if isDigit octet then .ok ((), rest.dropWhile isDigit) else stop .invalidNumber rest
      | [] => stop .invalidNumber []
    else .ok ((), input)
  | [] => .ok ((), input)

/-- Takes what follows the digits before the point of a number that nobody needs. -/
def skipFraction (input : List UInt8) : Except Stop (Unit × List UInt8) :=
  match input with
  | 0x2E :: rest =>
    match rest.span isDigit with
    | ([], after) => stopAt .invalidNumber after
    | (_, after) => skipExponent after
  | input => skipExponent input

/-- Takes a number that nobody needs, after its sign: its size does not matter. -/
def skipNumber : Reader Unit
  | [] => stop .invalidNumber []
  | octet :: rest =>
    if octet = 0x30 then
      match rest with
      | next :: _ => if isDigit next then stopAt .invalidNumber rest else skipFraction rest
      | [] => .ok ((), [])
    else if isDigit octet then skipFraction (rest.dropWhile isDigit)
    else stop .invalidNumber rest

/-! ### Texts -/

def hexValue? (octet : UInt8) : Option Nat :=
  if isDigit octet then some (octet.toNat - 0x30)
  else if 0x61 ≤ octet ∧ octet ≤ 0x66 then some (octet.toNat - 0x57)
  else if 0x41 ≤ octet ∧ octet ≤ 0x46 then some (octet.toNat - 0x37)
  else none

/-- Reads four hexadecimal digits. -/
def fourDigits : Reader Nat
  | a :: b :: c :: d :: rest =>
    match hexValue? a, hexValue? b, hexValue? c, hexValue? d with
    | some a, some b, some c, some d => .ok (((a * 16 + b) * 16 + c) * 16 + d, rest)
    | _, _, _, _ => stop .invalidEscape rest
  | _ => stop .endInText []

def isLeading (unit : Nat) : Bool := 0xD800 ≤ unit && unit ≤ 0xDBFF
def isTrailing (unit : Nat) : Bool := 0xDC00 ≤ unit && unit ≤ 0xDFFF

/-- Takes an octet of the second half of a pair of units. -/
def pairOctet (wanted : UInt8) : List UInt8 → Except Stop (List UInt8)
  | [] => stop .endInText []
  | octet :: rest => if octet = wanted then .ok rest else stop .cutSurrogate rest

/-- Reads the character of a numeric escape, which takes a second one after a leading surrogate. -/
def unicodeEscape : Reader Char := fun input => do
  let (unit, rest) ← fourDigits input
  if isTrailing unit then stop .loneSurrogate rest
  else if isLeading unit then do
    let rest ← pairOctet 0x5C rest
    let rest ← pairOctet 0x75 rest
    let (second, rest) ← fourDigits rest
    if isTrailing second then
      .ok (Char.ofNat (0x10000 + (unit - 0xD800) * 0x400 + (second - 0xDC00)), rest)
    else stop .loneSurrogate rest
  else .ok (Char.ofNat unit, rest)

/-- Reads an escape after its backslash. -/
def escapedCharacter : Reader Char
  | [] => stop .endInText []
  | octet :: rest =>
    match octet with
    | 0x22 => .ok ('"', rest)
    | 0x5C => .ok ('\\', rest)
    | 0x2F => .ok ('/', rest)
    | 0x62 => .ok ('\x08', rest)
    | 0x66 => .ok ('\x0C', rest)
    | 0x6E => .ok ('\n', rest)
    | 0x72 => .ok ('\r', rest)
    | 0x74 => .ok ('\t', rest)
    | 0x75 => unicodeEscape rest
    | _ => stop .invalidEscape rest

/-- How many octets an escape of a character takes after its backslash. -/
def escapeWidth (c : Char) : List UInt8 → Nat
  | 0x75 :: _ => if c.toNat < 0x10000 then 5 else 11
  | _ => 1

/-- An octet of a text and the input after it. -/
abbrev Placed := UInt8 × List UInt8

/-- Collects the octets of a text up to its closing quote, last first. The next `skip` octets belong
to an escape already read. -/
def textOctets (skip : Nat) (taken : List Placed) :
    List UInt8 → Except Stop (List Placed × List UInt8)
  | [] => stop .endInText []
  | octet :: rest =>
    match skip with
    | skip + 1 => textOctets skip taken rest
    | 0 =>
      if octet = 0x22 then .ok (taken, rest)
      else if octet = 0x5C then
        match escapedCharacter rest with
        | .error s => .error s
        | .ok (c, after) =>
          let octets := (String.utf8EncodeChar c).map fun octet => (octet, after)
          textOctets (escapeWidth c rest) (octets.reverseAux taken) rest
      else if octet < 0x20 then stop .controlCharacter rest
      else textOctets 0 ((octet, rest) :: taken) rest

/-- Reads a text after its opening quote. -/
def text : Reader String := fun input => do
  let (taken, rest) ← textOctets 0 [] input
  let placed := taken.reverse
  match Utf8.decode (placed.map (·.1)).toByteArray with
  | .ok text => .ok (text, rest)
  | .error fault => stop .invalidText ((placed[fault.index]?.map (·.2)).getD rest)

/-- Takes a text that nobody needs, after its opening quote: escapes have to be whole, but characters
are not looked at. -/
def skipText (skip : Nat) : List UInt8 → Except Stop (Unit × List UInt8)
  | [] => stop .endInText []
  | octet :: rest =>
    match skip with
    | skip + 1 => skipText skip rest
    | 0 =>
      if octet = 0x22 then .ok ((), rest)
      else if octet = 0x5C then
        match rest with
        | 0x75 :: digits =>
          match fourDigits digits with
          | .error s => .error s
          | .ok _ => skipText 5 rest
        | _ =>
          match escapedCharacter rest with
          | .error s => .error s
          | .ok _ => skipText 1 rest
      else if octet < 0x20 then stop .controlCharacter rest
      else skipText 0 rest

end TypedPacket.Json
