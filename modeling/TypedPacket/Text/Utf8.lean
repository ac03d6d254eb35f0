import TypedPacket.Octets

/-!
# UTF-8

Text is read from octets as UTF-8 (`decode`), which accepts exactly the octets of a text
(`decode_eq_ok_iff`). Refused octets have a first fault: the index where a malformed sequence starts,
with the number of octets that cannot be part of any character, or the index of a sequence that is
cut off by the end.
-/

set_option autoImplicit false
set_option relaxedAutoImplicit false

namespace TypedPacket.Utf8

/-- Where and how octets stop being UTF-8. -/
inductive Fault
  /-- A malformed sequence of `length` octets starts at `index`. -/
  | invalid (length index : Nat)
  /-- The octets end inside the character that starts at `index`. -/
  | incomplete (index : Nat)
  deriving DecidableEq, Repr

def Fault.message : Fault → String
  | .invalid length index =>
    "invalid utf-8 sequence of " ++ toString length ++ " bytes from index " ++ toString index
  | .incomplete index => "incomplete utf-8 byte sequence from index " ++ toString index

/-- The index at which the text stops being well formed. -/
def Fault.index : Fault → Nat
  | .invalid _ index => index
  | .incomplete index => index

/-- An octet that can stand inside a character but not at its start. -/
def isContinuation (octet : UInt8) : Bool := octet &&& 0xC0 == 0x80

/-- The second octets allowed after the first octet of a character of three or four octets: overlong
forms, surrogates and characters beyond U+10FFFF are ruled out here. -/
def isSecond (first second : UInt8) : Bool :=
  if first == 0xE0 then 0xA0 ≤ second && second ≤ 0xBF
  else if first == 0xED then 0x80 ≤ second && second ≤ 0x9F
  else if first == 0xF0 then 0x90 ≤ second && second ≤ 0xBF
  else if first == 0xF4 then 0x80 ≤ second && second ≤ 0x8F
  else isContinuation second

/-- The number of octets of a character with this first octet, 0 where none starts so. -/
def width (first : UInt8) : Nat :=
  if first < 0x80 then 1
  else if 0xC2 ≤ first && first ≤ 0xDF then 2
  else if 0xE0 ≤ first && first ≤ 0xEF then 3
  else if 0xF0 ≤ first && first ≤ 0xF4 then 4
  else 0

/-- Reads one character at the head: how many octets it takes, or its fault. -/
def step (index : Nat) : List UInt8 → Except Fault Nat
  | [] => .ok 0
  | first :: rest =>
    match width first, rest with
    | 1, _ => .ok 1
    | 0, _ => .error (.invalid 1 index)
    | _, [] => .error (.incomplete index)
    | 2, second :: _ => if isContinuation second then .ok 2 else .error (.invalid 1 index)
    | wide, second :: rest =>
      if !isSecond first second then .error (.invalid 1 index) else
      match rest with
      | [] => .error (.incomplete index)
      | third :: rest =>
        if !isContinuation third then .error (.invalid 2 index) else
        if wide == 3 then .ok 3 else
        match rest with
        | [] => .error (.incomplete index)
        | fourth :: _ => if isContinuation fourth then .ok 4 else .error (.invalid 3 index)

/-- The first fault at or after `index`; `skip` octets belong to a character already read. -/
def fault (index : Nat) (skip : Nat) : List UInt8 → Option Fault
  | [] => none
  | first :: rest =>
    match skip with
    | skip + 1 => fault (index + 1) skip rest
    | 0 =>
      match step index (first :: rest) with
      | .error f => some f
      | .ok size => fault (index + 1) (size - 1) rest

/-- The text whose UTF-8 octets are given. -/
def decode (bytes : ByteArray) : Except Fault String :=
  match String.fromUTF8? bytes with
  | some text => .ok text
  | none => .error ((fault 0 0 (octets bytes)).getD (.incomplete 0))

/-- The text in which each malformed sequence is one replacement character. The next `skip` octets
belong to a character or sequence already dealt with. -/
def lossy (skip : Nat) (taken : List UInt8) : List UInt8 → List UInt8
  | [] => taken.reverse
  | first :: rest =>
    match skip with
    | skip + 1 => lossy skip taken rest
    | 0 =>
      match step 0 (first :: rest) with
      | .ok size => lossy (size - 1) (((first :: rest).take size).reverse ++ taken) rest
      | .error (.invalid size _) => lossy (size - 1) (0xBD :: 0xBF :: 0xEF :: taken) rest
      | .error (.incomplete _) => lossy rest.length (0xBD :: 0xBF :: 0xEF :: taken) rest

theorem decode_eq_ok_iff {bytes : ByteArray} {text : String} :
    decode bytes = .ok text ↔ bytes = text.toUTF8 := by
  unfold decode String.fromUTF8?
  split
  · rename_i found h
    split at h
    · simp only [Option.some.injEq] at h
      subst h
      constructor
      · intro h
        cases h
        rfl
      · rintro rfl
        rfl
    · simp at h
  · rename_i h
    split at h
    · simp at h
    · rename_i hinvalid
      constructor
      · intro h
        cases h
      · rintro rfl
        exact absurd text.isValidUTF8 hinvalid

@[simp] theorem decode_toUTF8 (text : String) : decode text.toUTF8 = .ok text :=
  decode_eq_ok_iff.2 rfl

end TypedPacket.Utf8
