import TypedPacket.Proofs.Json.Number
import TypedPacket.Proofs.Toml.Text
import TypedPacket.Toml.Statement
import TypedPacket.Toml.Writer

/-!
# Settings of documents read back

What is written for a setting is a value up to the end of its line (`ReadsBack`). A flag and the
digits of a size are scalars, which end where the line does, and a size is read from its digits as
the integer that it is; a text ends with its last delimiter.
-/

set_option autoImplicit false
set_option relaxedAutoImplicit false

namespace TypedPacket.Toml

/-! ### Scalars -/

/-- Digits without underscores are a run of digits. -/
theorem digitRun_eq {l : List Char} (hne : l ≠ []) (h : ∀ c ∈ l, c.isDigit = true) :
    digitRun Char.isDigit l = some l := by
  induction l with
  | nil => exact absurd rfl hne
  | cons c l ih =>
    obtain ⟨hc, hl⟩ := List.forall_mem_cons.mp h
    cases l with
    | nil => simp only [digitRun, hc, if_true]
    | cons d l =>
      have hd : d ≠ '_' := by
        rintro rfl
        exact absurd (hl _ List.mem_cons_self) (by decide)
      have hrest := ih (List.cons_ne_nil d l) hl
      unfold digitRun
      split
      · rename_i heq
        cases heq
      · rename_i heq
        cases heq
      · rename_i heq
        exact absurd (List.cons.inj (List.cons.inj heq).2).1 hd
      · rename_i heq
        cases heq
        rw [if_pos hc, hrest, Option.map_some]

theorem numberOf_digits {l : List Char} (h : ∀ c ∈ l, c.isDigit = true) :
    numberOf 10 l = Nat.ofDigitChars 10 l 0 := by
  have hfold : ∀ (l : List Char) (n : Nat), (∀ c ∈ l, c.isDigit = true) →
      l.foldl (fun n c ↦ 10 * n + digitValue c) n = Nat.ofDigitChars 10 l n := by
    intro l
    induction l with
    | nil => exact fun n _ ↦ Nat.ofDigitChars_nil.symm
    | cons c l ih =>
      intro n hdigits
      obtain ⟨hc, hl⟩ := List.forall_mem_cons.mp hdigits
      rw [List.foldl_cons, ih _ hl, Nat.ofDigitChars_cons, digitValue, if_pos hc]
  exact hfold l 0 h

theorem splitSign_digits {l : List Char} (h : ∀ c ∈ l, c.isDigit = true) :
    splitSign l = (false, l) := by
  unfold splitSign
  split
  · exact absurd (h _ List.mem_cons_self) (by decide)
  · exact absurd (h _ List.mem_cons_self) (by decide)
  · rfl

theorem decimalRun_digits {l : List Char} (hne : l ≠ []) (h : ∀ c ∈ l, c.isDigit = true)
    (hleads : Leads l) : decimalRun l = some l := by
  rw [decimalRun, digitRun_eq hne h]
  split
  · rename_i heq
    obtain rfl := Option.some.inj heq
    rcases hleads with hzero | ⟨c, rest, hfront, hc⟩
    · cases hzero
    · exact absurd (List.cons.inj hfront).1.symm hc
  · rfl

/-- Digits without zeros in front are read as an integer. -/
theorem integer?_toDigits {n : Nat} (h : n ≤ maxInteger) :
    integer? (Nat.toDigits 10 n) = some (n : Int) := by
  have hdigits := isDigit_toDigits n
  have hdecimal := decimalRun_digits Nat.toDigits_ne_nil hdigits (leads_toDigits n)
  have hnumber : numberOf 10 (Nat.toDigits 10 n) = n := by
    rw [numberOf_digits hdigits, Nat.ofDigitChars_toDigits (by decide) (by decide)]
  have hrange : -(maxInteger : Int) - 1 ≤ (n : Int) ∧ (n : Int) ≤ maxInteger := by omega
  have hsecond : ∀ c d rest, Nat.toDigits 10 n = c :: d :: rest → d.isDigit = true := by
    intro c d rest heq
    exact hdigits d (heq ▸ List.mem_cons_of_mem _ List.mem_cons_self)
  unfold integer?
  split
  · rename_i heq
    exact absurd (hsecond _ _ _ heq) (by decide)
  · rename_i heq
    exact absurd (hsecond _ _ _ heq) (by decide)
  · rename_i heq
    exact absurd (hsecond _ _ _ heq) (by decide)
  · simp only [splitSign_digits hdigits, hdecimal, Option.map_some, hnumber, Bool.false_eq_true,
      if_false, bind, Option.bind, hrange, and_self, if_true]

theorem isScalarChar_of_isDigit {c : Char} (h : c.isDigit = true) : isScalarChar c = true := by
  simp [isScalarChar, Char.isAlphanum, h]

theorem splitScalar_append {token : List Char} (h : ∀ c ∈ token, isScalarChar c = true)
    (rest : List Char) : splitScalar (token ++ '\n' :: rest) = (token, '\n' :: rest) := by
  have hstop : ¬ isScalarChar '\n' = true := by decide
  have htoken : (token ++ '\n' :: rest).takeWhile isScalarChar = token := by
    rw [List.takeWhile_append_of_pos h, List.takeWhile_cons_of_neg hstop, List.append_nil]
  have hrest : (token ++ '\n' :: rest).dropWhile isScalarChar = '\n' :: rest := by
    rw [List.dropWhile_append_of_pos h, List.dropWhile_cons_of_neg hstop]
  unfold splitScalar
  dsimp only
  rw [htoken, hrest]
  rfl

/-- A scalar ends where its line does. -/
theorem scalar_append {token : List Char} (h : ∀ c ∈ token, isScalarChar c = true)
    (rest : List Char) :
    scalar (token ++ '\n' :: rest) = (scalarOf token).map (·, '\n' :: rest) := by
  rw [scalar, splitScalar_append h]

theorem scalarOf_toDigits {n : Nat} (h : n ≤ maxInteger) :
    scalarOf (Nat.toDigits 10 n) = some (.integer n) := by
  have hletter : ∀ c rest, Nat.toDigits 10 n = c :: rest → c.isDigit = true := by
    intro c rest heq
    exact isDigit_toDigits n c (heq ▸ List.mem_cons_self)
  have htrue : Nat.toDigits 10 n ≠ ['t', 'r', 'u', 'e'] :=
    fun heq ↦ absurd (hletter _ _ heq) (by decide)
  have hfalse : Nat.toDigits 10 n ≠ ['f', 'a', 'l', 's', 'e'] :=
    fun heq ↦ absurd (hletter _ _ heq) (by decide)
  simp only [scalarOf, htrue, hfalse, if_false, integer?_toDigits h]

/-! ### Settings -/

/-- A character of a class is none that the class has not. -/
theorem ne_of_eq_true_of_eq_false {p : Char → Bool} {c d : Char} (h : p c = true)
    (hd : p d = false) : c ≠ d := by
  rintro rfl
  cases h.symm.trans hd

/-- A value reads back, and starts with no blank. -/
structure ReadsBack (written : List Char) (content : Value) : Prop where
  exists_cons : ∃ c tail, written = c :: tail ∧ isSpace c = false
  value_append : ∀ depth rest,
    value (depth + 1) (written ++ '\n' :: rest) = some (content, '\n' :: rest)

theorem value_scalar {c : Char} (h : isScalarChar c = true) (depth : Nat) (rest : List Char) :
    value (depth + 1) (c :: rest) = scalar (c :: rest) := by
  have hquote : c ≠ '"' := ne_of_eq_true_of_eq_false h rfl
  have happostrophe : c ≠ '\'' := ne_of_eq_true_of_eq_false h rfl
  have hbracket : c ≠ '[' := ne_of_eq_true_of_eq_false h rfl
  have hbrace : c ≠ '{' := ne_of_eq_true_of_eq_false h rfl
  simp only [value, hquote, happostrophe, hbracket, hbrace, or_self, if_false]

theorem readsBack_token {token : List Char} {content : Value} (hne : token ≠ [])
    (htoken : ∀ c ∈ token, isScalarChar c = true) (hcontent : scalarOf token = some content) :
    ReadsBack token content := by
  obtain ⟨c, tail, rfl⟩ := List.exists_cons_of_ne_nil hne
  have hc : isScalarChar c = true := htoken c List.mem_cons_self
  have hspace : isSpace c = false := by
    simp only [isSpace, Bool.or_eq_false_iff, decide_eq_false_iff_not]
    exact ⟨ne_of_eq_true_of_eq_false hc rfl, ne_of_eq_true_of_eq_false hc rfl⟩
  refine ⟨⟨c, tail, rfl, hspace⟩, fun depth rest ↦ ?_⟩
  rw [List.cons_append, value_scalar hc, ← List.cons_append, scalar_append htoken, hcontent,
    Option.map_some]

theorem readsBack_text (words : String) : ReadsBack (writeText words) (.text words) := by
  obtain ⟨c, tail, hfront, hc⟩ := exists_writeText words
  refine ⟨⟨c, tail, hfront, by rcases hc with rfl | rfl <;> rfl⟩, fun depth rest ↦ ?_⟩
  have hread : text (writeText words ++ '\n' :: rest) = some (words, '\n' :: rest) :=
    text_writeText words (by rintro c ⟨⟩; decide)
  rw [hfront, List.cons_append] at hread ⊢
  simp only [value, hc, if_true, hread, Option.map_some]

/-- What is written for a setting reads back. -/
theorem readsBack_write {setting : Setting} {written : List Char}
    (h : setting.write = some written) : ReadsBack written setting.value := by
  cases setting with
  | size n =>
    obtain ⟨hn, hwritten⟩ := Option.ite_none_right_eq_some.mp h
    obtain rfl := Option.some.inj hwritten
    have hdigits : ∀ c ∈ Nat.toDigits 10 n.toNat, isScalarChar c = true :=
      fun c hc ↦ isScalarChar_of_isDigit (isDigit_toDigits _ c hc)
    exact readsBack_token Nat.toDigits_ne_nil hdigits (scalarOf_toDigits hn)
  | flag b =>
    cases b with
    | false =>
      obtain rfl := Option.some.inj h
      exact readsBack_token (List.cons_ne_nil _ _) (List.all_eq_true.mp rfl) rfl
    | true =>
      obtain rfl := Option.some.inj h
      exact readsBack_token (List.cons_ne_nil _ _) (List.all_eq_true.mp rfl) rfl
  | text words =>
    obtain rfl := Option.some.inj h
    exact readsBack_text words

end TypedPacket.Toml
