import Mathlib.Tactic.IntervalCases
import TypedPacket.Json.Lexeme
import TypedPacket.Proofs.Emission

/-!
# Texts in JSON

Between its quotes a text stands octet by octet, an octet that cannot stand there behind a
backslash. The reader puts every octet back (`exists_placed_escape`), so a text is read back as it
is, whatever follows its closing quote (`text_quoted`).
-/

set_option autoImplicit false
set_option relaxedAutoImplicit false

namespace TypedPacket.Json

/-- What stands for an octet is read as the octet; `after` is the input that it is placed at. -/
theorem exists_after_escape (octet : UInt8) (taken : List Placed) (input : List UInt8) :
    ∃ after, textOctets 0 taken (escape octet ++ input) =
      textOctets 0 ((octet, after) :: taken) input := by
  by_cases hquote : octet = 0x22
  · subst hquote
    exact ⟨input, rfl⟩
  by_cases hbackslash : octet = 0x5C
  · subst hbackslash
    exact ⟨input, rfl⟩
  by_cases hcontrol : octet < 0x20
  · obtain ⟨n, hn, rfl⟩ : ∃ n, n < 32 ∧ octet = UInt8.ofNat n :=
      ⟨octet.toNat, UInt8.lt_iff_toNat_lt.mp hcontrol, UInt8.ofNat_toNat.symm⟩
    clear hquote hbackslash hcontrol
    interval_cases n <;> exact ⟨input, rfl⟩
  · have hplain : escape octet = [octet] :=
      (if_neg (not_or.mpr ⟨hquote, hbackslash⟩)).trans (if_pos (UInt8.not_lt.mp hcontrol))
    refine ⟨input, ?_⟩
    rw [hplain, List.singleton_append, textOctets, if_neg hquote, if_neg hbackslash,
      if_neg hcontrol]

/-- Octets are read up to the closing quote. -/
theorem exists_placed_escape (l : List UInt8) (taken : List Placed) (rest : List UInt8) :
    ∃ placed : List Placed, placed.map (·.1) = l ∧
      textOctets 0 taken (l.flatMap escape ++ 0x22 :: rest) =
        .ok (placed.reverse ++ taken, rest) := by
  induction l generalizing taken with
  | nil => exact ⟨[], rfl, rfl⟩
  | cons octet l ih =>
    obtain ⟨after, hoctet⟩ := exists_after_escape octet taken (l.flatMap escape ++ 0x22 :: rest)
    obtain ⟨placed, hplaced, hread⟩ := ih ((octet, after) :: taken)
    refine ⟨(octet, after) :: placed, by rw [List.map_cons, hplaced], ?_⟩
    rw [List.flatMap_cons, List.append_assoc, hoctet, hread, List.reverse_cons, List.append_assoc,
      List.singleton_append]

/-- What stands for a text, behind its opening quote. -/
def quoted (content : String) : List UInt8 := (octets content.toUTF8).flatMap escape ++ [0x22]

theorem appends_emitText (content : String) :
    Appends (emitText content) (0x22 :: quoted content) := by
  have hbody := Appends.foldl fun octet (_ : octet ∈ octets content.toUTF8) ↦
    Appends.pushAll (escape octet)
  exact ((Appends.push 0x22).andThen hbody).andThen (Appends.push 0x22)

theorem text_quoted (content : String) (rest : List UInt8) :
    text (quoted content ++ rest) = .ok (content, rest) := by
  obtain ⟨placed, hplaced, hread⟩ := exists_placed_escape (octets content.toUTF8) [] rest
  rw [quoted, List.append_assoc, List.singleton_append, text, hread]
  simp only [List.append_nil, List.reverse_reverse, hplaced, toByteArray_octets,
    Utf8.decode_toUTF8, bind, Except.bind]

end TypedPacket.Json
