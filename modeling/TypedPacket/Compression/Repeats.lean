import TypedPacket.Octets

/-!
# Repeated octets

Compressors of the Lempel-Ziv family write octets as stretches: some octets as they are, then some
that can be copied from a little before. `stretches` finds them greedily, by remembering where each
four octets were last seen; `copyBack` copies, one octet after another, so that a copy may run into
what it writes itself.
-/

set_option autoImplicit false
set_option relaxedAutoImplicit false

namespace TypedPacket

/-- Octets as they are, followed by a copy of octets from `distance` places back. -/
structure Stretch where
  literals : Nat
  distance : Nat
  length : Nat
  deriving DecidableEq, Repr, Inhabited

/-- Appends `length` octets, each the one that stands `distance` places before it. -/
def copyBack (distance : Nat) : Nat → ByteArray → ByteArray
  | 0, written => written
  | length + 1, written =>
    copyBack distance length (written.push (octetAt written (written.size - distance)))

namespace Stretch

/-- The fewest octets that are copied. -/
def minimum : Nat := 4

/-- The farthest that octets are copied from. -/
def reach : Nat := 65535

/-- The number of places that remember where four octets were seen. -/
def places : Nat := 16384

/-- The place of a word. -/
@[inline] def place (word : UInt32) : Nat := ((word * 2654435761) >>> 18).toNat

/-- How many octets from `here` on, up to `stop`, equal those from `there` on. -/
def common (bytes : ByteArray) (stop there here length : Nat) : Nat :=
  if here < stop then
    if octetAt bytes there == octetAt bytes here then
      common bytes stop (there + 1) (here + 1) (length + 1)
    else length
  else length
termination_by stop - here

/-- The stretches from `here` on. Octets from `anchor` on are not yet part of one; `seen` holds for
each place one more than where its word was last seen. Copies start before `lastStart` and end at
`stop` or before. -/
def find (bytes : ByteArray) (lastStart stop anchor here : Nat) (seen : Array Nat)
    (found : Array Stretch) : Array Stretch :=
  if here < lastStart then
    let word := word32At bytes here
    let there := seen.getD (place word) 0
    let seen := seen.setIfInBounds (place word) (here + 1)
    if 0 < there ∧ here < there + reach ∧ word32At bytes (there - 1) = word then
      let length := minimum + common bytes stop (there - 1 + minimum) (here + minimum) 0
      find bytes lastStart stop (here + length) (here + length) seen
        (found.push ⟨here - anchor, here + 1 - there, length⟩)
    else find bytes lastStart stop anchor (here + 1) seen found
  else found
termination_by lastStart - here
decreasing_by
  · simp only [minimum]; omega
  · omega

end Stretch

/-- The stretches of the octets from `first` to `stop`; what follows the last of them is not copied.
Copies keep `margin` octets away from the end, and start `lead` octets before it at the latest. -/
def stretches (bytes : ByteArray) (first stop margin lead : Nat) : Array Stretch :=
  Stretch.find bytes (stop - lead) (stop - margin) first first
    (Array.replicate Stretch.places 0) #[]

end TypedPacket
