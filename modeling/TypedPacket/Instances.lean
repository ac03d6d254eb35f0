/-!
# Instances of the core library

A power of a number is `Nat.pow` or `Int.pow`, and byte strings are compared by the core library, also
in a module that sees other ways to do so. So a bound such as `2 ^ 64` is the same term in a
definition and in a statement about it, whatever the two import.
-/

set_option autoImplicit false
set_option relaxedAutoImplicit false

attribute [instance (high), default_instance high] instPowNat

attribute [instance (high)] ByteArray.instDecidableEq
