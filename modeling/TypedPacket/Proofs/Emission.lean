import TypedPacket.Octets

/-!
# What writing appends

Values are written by appending to a byte string. What is appended does not depend on what is
already there (`Appends`), so writing one thing after another appends the one behind the other.
-/

set_option autoImplicit false
set_option relaxedAutoImplicit false

namespace TypedPacket

/-- Writing leaves what is there and puts `part` behind it. -/
def Appends (emit : ByteArray → ByteArray) (part : List UInt8) : Prop :=
  ∀ out, octets (emit out) = octets out ++ part

namespace Appends

variable {emit first second : ByteArray → ByteArray} {a b part : List UInt8}

theorem octets_empty (h : Appends emit part) : octets (emit .empty) = part := h .empty

theorem nothing : Appends (fun out ↦ out) [] := fun _ ↦ (List.append_nil _).symm

theorem push (octet : UInt8) : Appends (fun out ↦ out.push octet) [octet] :=
  fun out ↦ octets_push out octet

theorem append (bytes : ByteArray) : Appends (fun out ↦ out ++ bytes) (octets bytes) :=
  fun out ↦ octets_append out bytes

theorem andThen (hfirst : Appends first a) (hsecond : Appends second b) :
    Appends (fun out ↦ second (first out)) (a ++ b) := fun out ↦ by
  rw [hsecond, hfirst, List.append_assoc]

/-- Writing one item after another. -/
theorem foldl {α : Type} {write : α → ByteArray → ByteArray} {parts : α → List UInt8}
    {items : List α} (h : ∀ item ∈ items, Appends (write item) (parts item)) :
    Appends (fun out ↦ items.foldl (fun out item ↦ write item out) out) (items.flatMap parts) := by
  induction items with
  | nil => exact nothing
  | cons item rest ih =>
    obtain ⟨hitem, hrest⟩ := List.forall_mem_cons.mp h
    rw [List.flatMap_cons]
    exact hitem.andThen (ih hrest)

theorem pushAll (part : List UInt8) : Appends (fun out ↦ part.foldl ByteArray.push out) part := by
  have heach := foldl fun octet (_ : octet ∈ part) ↦ push octet
  rwa [List.flatMap_singleton'] at heach

end Appends

/-! ### Octets taken apart and put together -/

theorem toByteArray_octets (bytes : ByteArray) : (octets bytes).toByteArray = bytes :=
  octets_inj.mp (octets_toByteArray _)

/-- Octets written as numbers are the octets of the numbers. -/
theorem toByteArray_map_octets (bytes : ByteArray) :
    (((octets bytes).map UInt8.toNat).map UInt8.ofNat).toByteArray = bytes := by
  have hid : UInt8.ofNat ∘ UInt8.toNat = id := funext fun octet ↦ UInt8.ofNat_toNat
  rw [List.map_map, hid, List.map_id, toByteArray_octets]

end TypedPacket
