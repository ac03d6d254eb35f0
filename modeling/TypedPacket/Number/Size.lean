import TypedPacket.Instances

/-!
# Sizes in text

A size is a natural number below `2 ^ 64`, written in decimal digits. A plus sign and zeros may stand
in front.
-/

set_option autoImplicit false
set_option relaxedAutoImplicit false

namespace TypedPacket.Size

def digitsOf? (words : List Char) : Option (List Char) :=
  if words.isEmpty || !words.all Char.isDigit then none else some words

def ofText? (words : List Char) : Option UInt64 := do
  let digits ← match words with
    | '+' :: rest => digitsOf? rest
    | words => digitsOf? words
  let n := digits.foldl (fun n c => 10 * n + (c.toNat - '0'.toNat)) 0
  if n < 2 ^ 64 then some (UInt64.ofNat n) else none

end TypedPacket.Size
