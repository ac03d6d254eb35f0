import TypedPacket.Json.Lexeme

/-!
# Reading JSON values

A value is read by what its first octet announces. Containers may be nested up to a limit; objects
keep the last value of a key, in increasing order of the keys. What an unknown field holds is taken
without being built (`skipValue`), to any depth.
-/

set_option autoImplicit false
set_option relaxedAutoImplicit false

namespace TypedPacket.Json

/-! ### Containers -/

/-- Goes to the next element of a list, or past its end. -/
def nextElement (first : Bool) (input : List UInt8) : Except Stop (Bool × List UInt8) :=
  match skipBlank input with
  | [] => stop .endInList []
  | octet :: rest =>
    if octet = 0x5D then .ok (false, rest)
    else if first then .ok (true, octet :: rest)
    else if octet = 0x2C then
      match skipBlank rest with
      | [] => stop .endInValue []
      | next :: after =>
        if next = 0x5D then stop .trailingComma after else .ok (true, next :: after)
    else stop .expectedListEnd rest

/-- Goes to the text of the next key of an object, past its opening quote, or past its end. -/
def nextKey (first : Bool) (input : List UInt8) : Except Stop (Bool × List UInt8) :=
  match skipBlank input with
  | [] => stop .endInObject []
  | octet :: rest =>
    if octet = 0x7D then .ok (false, rest)
    else if first then
      if octet = 0x22 then .ok (true, rest) else stop .keyNotText rest
    else if octet = 0x2C then
      match skipBlank rest with
      | [] => stop .endInValue []
      | next :: after =>
        if next = 0x22 then .ok (true, after)
        else if next = 0x7D then stop .trailingComma after
        else stop .keyNotText after
    else stop .expectedObjectEnd rest

/-- Takes the colon between a key and its value. -/
def colon (input : List UInt8) : Except Stop (List UInt8) :=
  match skipBlank input with
  | [] => stop .endInObject []
  | octet :: rest => if octet = 0x3A then .ok rest else stop .expectedColon rest

/-- Reads the elements of a list after its bracket, up to past its end. Every turn takes an octet, so
the length of the input bounds the turns. -/
def elements {α : Type} (element : Reader α) (turns : Nat) (first : Bool) (sofar : List α)
    (input : List UInt8) : Except Stop (List α × List UInt8) :=
  match turns with
  | 0 => stop .endInList []
  | turns + 1 =>
    match nextElement first input with
    | .error s => .error s
    | .ok (false, rest) => .ok (sofar.reverse, rest)
    | .ok (true, rest) =>
      match element rest with
      | .error s => .error s
      | .ok (value, rest) => elements element turns false (value :: sofar) rest

/-- Reads a list after its bracket. -/
def listOf {α : Type} (element : Reader α) : Reader (List α) := fun input =>
  elements element (input.length + 1) true [] input

/-- Reads the entries of an object after its brace, up to past its end, putting each into `sofar`. -/
def entries {α β : Type} (value : Reader α) (put : String → α → β → β) (turns : Nat) (first : Bool)
    (sofar : β) (input : List UInt8) : Except Stop (β × List UInt8) :=
  match turns with
  | 0 => stop .endInObject []
  | turns + 1 =>
    match nextKey first input with
    | .error s => .error s
    | .ok (false, rest) => .ok (sofar, rest)
    | .ok (true, rest) => do
      let (key, rest) ← text rest
      let rest ← colon rest
      let (content, rest) ← value rest
      entries value put turns false (put key content sofar) rest

/-- Reads an object after its brace. -/
def objectOf {α β : Type} (value : Reader α) (put : String → α → β → β) (empty : β) : Reader β :=
  fun input => entries value put (input.length + 1) true empty input

/-! ### Values -/

/-- Reads a value inside which containers may be nested below `depth`. -/
def value : (depth : Nat) → Reader Value
  | 0, input => stopAt .tooDeep input
  | depth + 1, input =>
    match skipBlank input with
    | [] => stop .endInValue []
    | octet :: rest =>
      if octet = 0x6E then do
        let ((), rest) ← word nullTail rest
        .ok (.null, rest)
      else if octet = 0x74 then do
        let ((), rest) ← word trueTail rest
        .ok (.flag true, rest)
      else if octet = 0x66 then do
        let ((), rest) ← word falseTail rest
        .ok (.flag false, rest)
      else if octet = 0x2D then do
        let (n, rest) ← number true rest
        .ok (.number n, rest)
      else if isDigit octet then do
        let (n, rest) ← number false (octet :: rest)
        .ok (.number n, rest)
      else if octet = 0x22 then do
        let (content, rest) ← text rest
        .ok (.text content, rest)
      else if octet = 0x5B then
        if depth = 0 then stop .tooDeep rest else do
          let (items, rest) ← listOf (value depth) rest
          .ok (.list items, rest)
      else if octet = 0x7B then
        if depth = 0 then stop .tooDeep rest else do
          let (fields, rest) ← objectOf (value depth) Entries.place [] rest
          .ok (.object fields, rest)
      else stop .expectedValue rest

/-- Containers may be nested in fewer than so many. -/
def depthLimit : Nat := 128

/-- The value written in the octets. -/
def Value.read (input : List UInt8) : Except Stop Value := readAll (value depthLimit) input

/-! ### Values that nobody needs -/

/-- A container that is being skipped. -/
inductive Open
  | list | object
  deriving DecidableEq, Repr

def Open.closing : Open → UInt8
  | .list => 0x5D
  | .object => 0x7D

def Open.cut : Open → Cause
  | .list => .endInList
  | .object => .endInObject

def Open.unended : Open → Cause
  | .list => .expectedListEnd
  | .object => .expectedObjectEnd

/-- Takes the key and the colon of a field that nobody needs. -/
def skipKey (input : List UInt8) : Except Stop (List UInt8) :=
  match skipBlank input with
  | [] => stop .endInObject []
  | octet :: rest =>
    if octet = 0x22 then do
      let ((), rest) ← skipText 0 rest
      colon rest
    else stop .keyNotText rest

/-- What is skipped next: a value, or, inside a container, what may follow a value (`comma`) or the
opening bracket. -/
inductive Turn
  | value
  | inside (comma : Bool)
  deriving DecidableEq, Repr

/-- Takes values until every container is closed. -/
def skip (turns : Nat) (turn : Turn) (containers : List Open) (input : List UInt8) :
    Except Stop (Unit × List UInt8) :=
  match turns with
  | 0 => stop .endInValue []
  | turns + 1 =>
    match turn, containers, skipBlank input with
    | .inside _, [], rest => .ok ((), rest)
    | .inside _, container :: _, [] => stop container.cut []
    | .inside comma, container :: outer, octet :: rest =>
      if octet = 0x2C ∧ comma then do
        let rest ← if container = .object then skipKey rest else .ok rest
        skip turns .value containers rest
      else if octet = container.closing then
        match outer with
        | [] => .ok ((), rest)
        | outer => skip turns (.inside true) outer rest
      else if comma then stop container.unended rest
      else do
        let rest ← if container = .object then skipKey (octet :: rest) else .ok (octet :: rest)
        skip turns .value containers rest
    | .value, _, [] => stop .endInValue []
    | .value, containers, octet :: rest =>
      if octet = 0x5B then skip turns (.inside false) (.list :: containers) rest
      else if octet = 0x7B then skip turns (.inside false) (.object :: containers) rest
      else do
        let ((), rest) ←
          if octet = 0x6E then word nullTail rest
          else if octet = 0x74 then word trueTail rest
          else if octet = 0x66 then word falseTail rest
          else if octet = 0x2D then skipNumber rest
          else if isDigit octet then skipNumber (octet :: rest)
          else if octet = 0x22 then skipText 0 rest
          else stop .expectedValue rest
        if containers.isEmpty then .ok ((), rest) else skip turns (.inside true) containers rest

/-- Takes a value that nobody needs. -/
def skipValue : Reader Unit := fun input => skip (2 * input.length + 2) .value [] input

end TypedPacket.Json
