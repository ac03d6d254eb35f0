import TypedPacket.Proofs.Result

/-!
# What readers give and what they take

A reader takes octets from the front and leaves the rest. Two things are said of one here: that
every value it gives has a property (`Yields`), and that the octets it takes tell where they end, so
that it takes them whatever follows (`SelfDelimiting`). Both go from readers to the readers that are
put together from them (`Yields.bind`, `SelfDelimiting.bind`).

No octets that a self-delimiting reader takes to the last are the front of others that it takes to
the last (`SelfDelimiting.eq_nil_of_read`).
-/

set_option autoImplicit false
set_option relaxedAutoImplicit false

namespace TypedPacket

variable {ε α β : Type} {first : List UInt8 → Except ε (α × List UInt8)}
  {next : α × List UInt8 → Except ε (β × List UInt8)}

/-! ### What is given -/

/-- Every value that is read has the property. -/
def Yields (read : List UInt8 → Except ε (α × List UInt8)) (p : α → Prop) : Prop :=
  ∀ input value rest, read input = .ok (value, rest) → p value

namespace Yields

variable {p : α → Prop} {q : β → Prop}

theorem pure {value : α} (h : p value) :
    Yields (fun input ↦ (.ok (value, input) : Except ε (α × List UInt8))) p := by
  rintro input _ _ ⟨⟩
  exact h

theorem of_ne_ok {read : List UInt8 → Except ε (α × List UInt8)}
    (h : ∀ input result, read input ≠ .ok result) : Yields read p :=
  fun input _ _ hread ↦ absurd hread (h input _)

theorem error (fault : ε) : Yields (fun _ ↦ .error fault) p := nofun

theorem any (read : List UInt8 → Except ε (α × List UInt8)) : Yields read fun _ ↦ True :=
  fun _ _ _ _ ↦ trivial

/-- So many octets, whatever they are. -/
theorem take (n : Nat) (make : List UInt8 → α) (fault : ε)
    (h : ∀ front : List UInt8, front.length = n → p (make front)) :
    Yields (fun input ↦ if (input.take n).length = n then .ok (make (input.take n), input.drop n)
      else .error fault) p := by
  intro input value rest hread
  dsimp only at hread
  split at hread
  · rename_i hlength
    obtain ⟨rfl, -⟩ := Prod.mk.inj (Except.ok.inj hread)
    exact h _ hlength
  · cases hread

theorem bind (hfirst : Yields first p)
    (hnext : ∀ value, p value → Yields (fun rest ↦ next (value, rest)) q) :
    Yields (fun input ↦ first input >>= next) q := by
  intro input result rest h
  obtain ⟨⟨value, behind⟩, hvalue, hresult⟩ := bind_eq_ok_iff.mp h
  exact hnext value (hfirst input value behind hvalue) behind result rest hresult

/-- A value that is made into another. -/
theorem map (h : Yields first p) (make : α → β) (hmake : ∀ value, p value → q (make value)) :
    Yields (fun input ↦ first input >>= fun (value, rest) ↦ .ok (make value, rest)) q :=
  h.bind fun value hvalue ↦ pure (hmake value hvalue)

theorem mono {p' : α → Prop} (h : Yields first p) (hp : ∀ value, p value → p' value) :
    Yields first p' := fun input value rest hread ↦ hp value (h input value rest hread)

end Yields

/-! ### What is taken -/

/-- What a reader takes from the front it takes whatever follows. -/
def SelfDelimiting (read : List UInt8 → Except ε (α × List UInt8)) : Prop :=
  ∀ input value rest, read input = .ok (value, rest) →
    ∃ front, input = front ++ rest ∧ ∀ more, read (front ++ more) = .ok (value, more)

namespace SelfDelimiting

theorem pure (value : α) :
    SelfDelimiting (fun input ↦ (.ok (value, input) : Except ε (α × List UInt8))) := by
  rintro input _ _ ⟨⟩
  exact ⟨[], rfl, fun _ ↦ rfl⟩

theorem of_ne_ok {read : List UInt8 → Except ε (α × List UInt8)}
    (h : ∀ input result, read input ≠ .ok result) : SelfDelimiting read :=
  fun input _ _ hread ↦ absurd hread (h input _)

theorem error (fault : ε) :
    SelfDelimiting (fun _ ↦ (.error fault : Except ε (α × List UInt8))) := nofun

theorem bind (hfirst : SelfDelimiting first)
    (hnext : ∀ value, SelfDelimiting fun rest ↦ next (value, rest)) :
    SelfDelimiting fun input ↦ first input >>= next := by
  intro input result rest h
  obtain ⟨⟨value, behind⟩, hvalue, hresult⟩ := bind_eq_ok_iff.mp h
  obtain ⟨front, rfl, hfront⟩ := hfirst input value behind hvalue
  obtain ⟨back, rfl, hback⟩ := hnext value behind result rest hresult
  refine ⟨front ++ back, (List.append_assoc front back rest).symm, fun more ↦ ?_⟩
  rw [List.append_assoc]
  exact bind_eq_ok_iff.mpr ⟨_, hfront (back ++ more), hback more⟩

/-- A value that is made into another. -/
theorem map (h : SelfDelimiting first) (make : α → β) :
    SelfDelimiting fun input ↦ first input >>= fun (value, rest) ↦ .ok (make value, rest) :=
  h.bind fun value ↦ pure (make value)

/-- One octet, which decides how the others are read. -/
theorem cons {read : List UInt8 → Except ε (α × List UInt8)} {fault : ε}
    (hnil : read [] = .error fault)
    (hcons : ∀ octet, SelfDelimiting fun rest ↦ read (octet :: rest)) : SelfDelimiting read := by
  intro input value rest h
  cases input with
  | nil => cases hnil.symm.trans h
  | cons octet behind =>
    obtain ⟨front, rfl, hfront⟩ := hcons octet behind value rest h
    exact ⟨octet :: front, rfl, hfront⟩

/-- So many octets, whatever they are. -/
theorem take (n : Nat) (make : List UInt8 → α) (fault : ε) :
    SelfDelimiting fun input ↦
      if (input.take n).length = n then .ok (make (input.take n), input.drop n)
      else .error fault := by
  intro input value rest h
  dsimp only at h
  split at h
  · rename_i hlength
    obtain ⟨rfl, rfl⟩ := Prod.mk.inj (Except.ok.inj h)
    refine ⟨input.take n, (List.take_append_drop n input).symm, fun more ↦ ?_⟩
    simp only [List.take_left' hlength, List.drop_left' hlength, hlength, if_true]
  · cases h

theorem congr {read other : List UInt8 → Except ε (α × List UInt8)} (h : SelfDelimiting read)
    (heq : ∀ input, other input = read input) : SelfDelimiting other := by
  rwa [funext heq]

variable {read : List UInt8 → Except ε (α × List UInt8)}

/-- Octets of which a front is read are taken no further than the front is. -/
theorem eq_nil_of_read (h : SelfDelimiting read) {front behind rest : List UInt8}
    {value other : α} (hread : read (front ++ behind) = .ok (value, []))
    (hfront : read front = .ok (other, rest)) : behind = [] := by
  obtain ⟨taken, rfl, htaken⟩ := h front other rest hfront
  rw [List.append_assoc, htaken] at hread
  exact (List.append_eq_nil_iff.mp (Prod.mk.inj (Except.ok.inj hread)).2).2

end SelfDelimiting

end TypedPacket
