import Mathlib.Tactic.IntervalCases
import TypedPacket.Toml.Text

/-!
# Texts of documents read back

A text is written in one of four forms. Between quotes every character stands for itself or behind a
backslash (`Stands`), and a text without controls stands between apostrophes as it is. Between three
delimiters some of the delimiters may stand in a row, and those in front of the closing ones belong
to the text: of up to two in a row (`Opens`) the reader tells which they are. So whatever form is
plainest, the text reads back (`text_writeText`), unless a delimiter follows it.
-/

set_option autoImplicit false
set_option relaxedAutoImplicit false

namespace TypedPacket.Toml

/-! ### Pieces -/

section Pieces

variable {next : List Char → Option Piece} {input : List Char} {turns : Nat}

theorem pieces_of_last {chars rest : List Char} (h : next input = some (.last chars rest))
    (hturns : 0 < turns) : pieces next turns input = some (chars, rest) := by
  cases turns with
  | zero => exact absurd hturns (Nat.lt_irrefl 0)
  | succ turns => simp only [pieces, h]

theorem pieces_of_more {chars after words rest : List Char}
    (h : next input = some (.more chars after))
    (hafter : pieces next turns after = some (words, rest)) :
    pieces next (turns + 1) input = some (chars ++ words, rest) := by
  simp only [pieces, h, hafter, Option.map_some]

end Pieces

/-! ### Characters between quotes -/

theorem toNat_of_isControl {c : Char} (h : isControl c = true) : c.toNat < 128 := by
  simp only [isControl, isPrintable, Bool.and_eq_true, Bool.not_eq_true', Bool.or_eq_false_iff,
    Bool.and_eq_false_iff, decide_eq_false_iff_not] at h
  omega

theorem isControl_eq_false_iff {c : Char} :
    isControl c = false ↔ isPrintable c = true ∨ c = '\n' := by
  simp only [isControl, Bool.and_eq_false_iff, Bool.not_eq_false', decide_eq_false_iff_not, ne_eq,
    Decidable.not_not]

/-- Four digits are read as the control they stand for. -/
theorem codePoint_control {c : Char} (h : c.toNat < 128) (rest : List Char) :
    codePoint 4 ('0' :: '0' :: hexDigit (c.toNat / 16) :: hexDigit (c.toNat % 16) :: rest) =
      some (c, rest) := by
  have hall : ∀ n : Fin 128, codePoint? ['0', '0', hexDigit (n / 16), hexDigit (n % 16)] =
      some (Char.ofNat n) := by decide +kernel
  have hpoint := hall ⟨c.toNat, h⟩
  rw [Char.ofNat_toNat] at hpoint
  simp only [codePoint, List.take_succ_cons, List.take_zero, List.length_cons, List.length_nil,
    List.drop_succ_cons, List.drop_zero, if_true]
  rw [hpoint]
  rfl

/-- What stands for a character between quotes: the character itself, or a backslash with what is
read as the character. A backslash that joins lines is none of these, nor is a quote. -/
inductive Stands (form : Form) (c : Char) : List Char → Prop
  | itself (hquote : c ≠ '"') (hbackslash : c ≠ '\\')
      (hshown : isPrintable c = true ∨ c = '\n' ∧ form ≠ .quotes) : Stands form c [c]
  | escaped (code : List Char) (hread : ∀ rest, escaped (code ++ rest) = some (c, rest))
      (hjoined : ∀ rest, joined? (code ++ rest) = none) : Stands form c ('\\' :: code)

theorem stands_escape {form : Form} {c : Char} (hquote : c ≠ '"')
    (hline : c = '\n' → form ≠ .quotes) : Stands form c (escape c) := by
  unfold escape
  split
  · exact .escaped ['b'] (fun _ ↦ rfl) (fun _ ↦ rfl)
  · exact .escaped ['t'] (fun _ ↦ rfl) (fun _ ↦ rfl)
  · exact .escaped ['f'] (fun _ ↦ rfl) (fun _ ↦ rfl)
  · exact .escaped ['r'] (fun _ ↦ rfl) (fun _ ↦ rfl)
  · exact .escaped ['\\'] (fun _ ↦ rfl) (fun _ ↦ rfl)
  · rename_i hbackslash
    split
    · rename_i hcontrol
      exact .escaped _ (codePoint_control (toNat_of_isControl hcontrol)) (fun _ ↦ rfl)
    · rename_i hcontrol
      refine .itself hquote hbackslash ?_
      rw [Bool.not_eq_true, isControl_eq_false_iff] at hcontrol
      exact hcontrol.imp_right fun h ↦ ⟨h, hline h⟩

/-- The text between quotes is written character by character: as what stands for it, or as a quote
that is not the last of the delimiter's. -/
theorem exists_escapeAll_cons (form : Form) (run : Nat) (c : Char) (words : List Char) :
    ∃ written next, escapeAll form run (c :: words) = written ++ escapeAll form next words ∧
      (Stands form c written ∧ next = 0 ∨
        c = '"' ∧ written = ['"'] ∧ next = run + 1 ∧ run + 1 < form.delimiter.length) := by
  by_cases hquote : c = '"'
  · subst hquote
    by_cases hrun : run + 1 < form.delimiter.length
    · refine ⟨['"'], run + 1, ?_, .inr ⟨rfl, rfl, rfl, hrun⟩⟩
      simp only [escapeAll, hrun, if_true, List.cons_append, List.nil_append]
    · refine ⟨['\\', '"'], 0, ?_, .inl ⟨.escaped ['"'] (fun _ ↦ rfl) (fun _ ↦ rfl), rfl⟩⟩
      simp only [escapeAll, hrun, if_true, if_false, List.cons_append, List.nil_append]
  by_cases hline : c = '\n' ∧ form = .quotes
  · obtain ⟨rfl, rfl⟩ := hline
    exact ⟨['\\', 'n'], 0, rfl, .inl ⟨.escaped ['n'] (fun _ ↦ rfl) (fun _ ↦ rfl), rfl⟩⟩
  · refine ⟨escape c, 0, ?_, .inl ⟨stands_escape hquote fun h hform ↦ hline ⟨h, hform⟩, rfl⟩⟩
    simp only [escapeAll, hquote, hline, if_false]

theorem Stands.ne_nil {form : Form} {c : Char} {written : List Char} (h : Stands form c written) :
    written ≠ [] := by
  cases h <;> exact List.cons_ne_nil _ _

/-! ### A quote at either end -/

theorem next_quotes {c : Char} {written : List Char} (h : Stands .quotes c written)
    (rest : List Char) : Form.quotes.next (written ++ rest) = some (.more [c] rest) := by
  cases h with
  | itself hquote hbackslash hshown =>
    have hprintable : isPrintable c = true := hshown.resolve_right fun h ↦ h.2 rfl
    simp only [List.cons_append, List.nil_append]
    unfold Form.next
    split <;> simp_all
  | escaped code hread _ => simp only [List.cons_append, Form.next, hread, Option.map_some]

theorem pieces_quotes (words : List Char) (run : Nat) {turns : Nat} (rest : List Char)
    (hturns : (escapeAll .quotes run words).length < turns) :
    pieces Form.quotes.next turns (escapeAll .quotes run words ++ '"' :: rest) =
      some (words, rest) := by
  induction words generalizing run turns with
  | nil => exact pieces_of_last rfl hturns
  | cons c words ih =>
    obtain ⟨written, next, hbody, ⟨hstands, -⟩ | ⟨-, -, -, hrun⟩⟩ :=
      exists_escapeAll_cons .quotes run c words
    · rw [hbody, List.length_append] at hturns
      have hwritten := List.length_pos_iff.mpr hstands.ne_nil
      obtain ⟨turns, rfl⟩ := Nat.exists_eq_add_one_of_ne_zero (Nat.ne_zero_of_lt hturns)
      rw [hbody, List.append_assoc]
      exact pieces_of_more (next_quotes hstands _) (ih next (by omega))
    · exact absurd hrun (by simp [Form.delimiter])

/-! ### Three delimiters at either end -/

/-- A text, as it is written, starts with so many delimiters: they are all of the text, or something
else follows them. -/
inductive Opens (delimiter : Char) (words : List Char) (count : Nat) : List Char → Prop
  | all (hwords : words = List.replicate count delimiter) :
      Opens delimiter words count (List.replicate count delimiter)
  | broken (c : Char) (rest : List Char) (hc : c ≠ delimiter) :
      Opens delimiter words count (List.replicate count delimiter ++ c :: rest)

theorem Opens.cons {delimiter : Char} {words body : List Char} {count : Nat}
    (h : Opens delimiter words count body) :
    Opens delimiter (delimiter :: words) (count + 1) (delimiter :: body) := by
  cases h with
  | all hwords => exact .all (congrArg (delimiter :: ·) hwords)
  | broken c rest hc => exact .broken c rest hc

theorem tripleEnd?_replicate {delimiter : Char} {count : Nat} (hcount : count ≤ 2)
    {rest : List Char} (hrest : rest.head? ≠ some delimiter) :
    tripleEnd? delimiter
        (List.replicate count delimiter ++ delimiter :: delimiter :: delimiter :: rest) =
      some (.last (List.replicate count delimiter) rest) := by
  rcases rest with _ | ⟨c, rest⟩
  · interval_cases count <;> simp [tripleEnd?, List.replicate]
  · have hc : c ≠ delimiter := fun h ↦ hrest (congrArg some h)
    interval_cases count <;> cases rest <;> simp [tripleEnd?, List.replicate, hc]

theorem tripleEnd?_delimiters {delimiter : Char} {rest : List Char}
    (hrest : rest.head? ≠ some delimiter) :
    tripleEnd? delimiter (delimiter :: delimiter :: delimiter :: rest) = some (.last [] rest) :=
  tripleEnd?_replicate (Nat.zero_le 2) hrest

theorem tripleEnd?_broken {delimiter c : Char} {count : Nat} (hcount : count ≤ 2)
    (hc : c ≠ delimiter) (rest : List Char) :
    tripleEnd? delimiter (List.replicate count delimiter ++ c :: rest) = none := by
  rcases rest with _ | ⟨d, _ | ⟨e, rest⟩⟩ <;> interval_cases count <;>
    simp [tripleEnd?, List.replicate, hc]

/-- The text ends here if all of it are delimiters, and goes on otherwise. -/
theorem Opens.ends_or_continues {delimiter : Char} {words body : List Char} {count : Nat}
    (h : Opens delimiter words count body) (hcount : count ≤ 2) {rest : List Char}
    (hrest : rest.head? ≠ some delimiter) :
    tripleEnd? delimiter (body ++ delimiter :: delimiter :: delimiter :: rest) =
        some (.last words rest) ∨
      tripleEnd? delimiter (body ++ delimiter :: delimiter :: delimiter :: rest) = none := by
  cases h with
  | all hwords =>
    rw [hwords]
    exact .inl (tripleEnd?_replicate hcount hrest)
  | broken c after hc =>
    rw [List.append_assoc, List.cons_append]
    exact .inr (tripleEnd?_broken hcount hc _)

theorem afterNewline?_of_isPrintable {c : Char} (h : isPrintable c = true) (rest : List Char) :
    afterNewline? (c :: rest) = none := by
  unfold afterNewline?
  split
  · rename_i heq
    cases heq
    cases h
  · rename_i heq
    cases heq
    cases h
  · rfl

theorem lineOrCharacter_cons {c : Char} (h : isPrintable c = true ∨ c = '\n') (rest : List Char) :
    Form.next.lineOrCharacter (c :: rest) = some (.more [c] rest) := by
  rcases h with hprintable | rfl
  · simp only [Form.next.lineOrCharacter, afterNewline?_of_isPrintable hprintable, hprintable,
      if_true]
  · rfl

/-- A character in front of a text that reads back: it may be one of the last delimiters, all of
which are then taken at once. -/
theorem pieces_cons_of_opens {form : Form} {delimiter c : Char} {words body rest : List Char}
    {count turns : Nat}
    (hnext : ∀ after, form.next (c :: after) =
      (tripleEnd? delimiter (c :: after)).or (Form.next.lineOrCharacter (c :: after)))
    (hshown : isPrintable c = true ∨ c = '\n')
    (hopens : Opens delimiter (c :: words) count (c :: body))
    (hcount : count ≤ 2) (hrest : rest.head? ≠ some delimiter)
    (htail : pieces form.next turns (body ++ delimiter :: delimiter :: delimiter :: rest) =
      some (words, rest)) :
    pieces form.next (turns + 1) (c :: body ++ delimiter :: delimiter :: delimiter :: rest) =
      some (c :: words, rest) := by
  have hpiece := hnext (body ++ delimiter :: delimiter :: delimiter :: rest)
  rw [← List.cons_append] at hpiece
  rcases hopens.ends_or_continues hcount hrest with hend | hnone
  · rw [hend, Option.some_or] at hpiece
    exact pieces_of_last hpiece (Nat.succ_pos turns)
  · rw [hnone, Option.none_or, List.cons_append, lineOrCharacter_cons hshown] at hpiece
    exact pieces_of_more hpiece htail

/-! ### Three quotes -/

theorem next_threeQuotes_of_ne {c : Char} (hbackslash : c ≠ '\\') (rest : List Char) :
    Form.threeQuotes.next (c :: rest) =
      (tripleEnd? '"' (c :: rest)).or (Form.next.lineOrCharacter (c :: rest)) := by
  unfold Form.next
  split <;> simp_all

theorem next_threeQuotes {c : Char} {written : List Char} (h : Stands .threeQuotes c written)
    (rest : List Char) : Form.threeQuotes.next (written ++ rest) = some (.more [c] rest) := by
  cases h with
  | itself hquote hbackslash hshown =>
    have hend : tripleEnd? '"' (c :: rest) = none :=
      tripleEnd?_broken (Nat.zero_le 2) hquote rest
    rw [List.singleton_append, next_threeQuotes_of_ne hbackslash, hend, Option.none_or]
    exact lineOrCharacter_cons (hshown.imp_right And.left) rest
  | escaped code hread hjoined =>
    simp only [List.cons_append, Form.next, hread, hjoined, Option.map_some]

theorem Stands.head_ne_quote {form : Form} {c : Char} {written : List Char}
    (h : Stands form c written) : ∃ d after, written = d :: after ∧ d ≠ '"' := by
  cases h with
  | itself hquote _ _ => exact ⟨c, [], rfl, hquote⟩
  | escaped code _ _ => exact ⟨'\\', code, rfl, by decide⟩

/-- No more than two quotes stand in a row, unless those before them are counted. -/
theorem exists_opens_escapeAll (words : List Char) {run : Nat} (hrun : run ≤ 2) :
    ∃ count, run + count ≤ 2 ∧ Opens '"' words count (escapeAll .threeQuotes run words) := by
  induction words generalizing run with
  | nil => exact ⟨0, hrun, .all rfl⟩
  | cons c words ih =>
    obtain ⟨written, next, hbody, ⟨hstands, -⟩ | ⟨rfl, rfl, rfl, hnext⟩⟩ :=
      exists_escapeAll_cons .threeQuotes run c words
    · obtain ⟨d, after, rfl, hd⟩ := hstands.head_ne_quote
      rw [hbody, List.cons_append]
      exact ⟨0, hrun, .broken d _ hd⟩
    · have hnext : run + 1 ≤ 2 := Nat.le_of_lt_succ hnext
      obtain ⟨count, hcount, hopens⟩ := ih hnext
      rw [hbody]
      exact ⟨count + 1, by omega, hopens.cons⟩

theorem pieces_threeQuotes (words : List Char) {run : Nat} (hrun : run ≤ 2) {turns : Nat}
    {rest : List Char} (hrest : rest.head? ≠ some '"')
    (hturns : (escapeAll .threeQuotes run words).length < turns) :
    pieces Form.threeQuotes.next turns
        (escapeAll .threeQuotes run words ++ '"' :: '"' :: '"' :: rest) = some (words, rest) := by
  induction words generalizing run turns with
  | nil =>
    refine pieces_of_last ?_ hturns
    rw [escapeAll, List.nil_append, next_threeQuotes_of_ne (by decide),
      tripleEnd?_delimiters hrest, Option.some_or]
  | cons c words ih =>
    obtain ⟨turns, rfl⟩ := Nat.exists_eq_add_one_of_ne_zero (Nat.ne_zero_of_lt hturns)
    obtain ⟨count, hcount, hopens⟩ := exists_opens_escapeAll (c :: words) hrun
    obtain ⟨written, next, hbody, ⟨hstands, rfl⟩ | ⟨rfl, rfl, rfl, hnext⟩⟩ :=
      exists_escapeAll_cons .threeQuotes run c words
    · have hwritten := List.length_pos_iff.mpr hstands.ne_nil
      rw [hbody, List.length_append] at hturns
      rw [hbody, List.append_assoc]
      exact pieces_of_more (next_threeQuotes hstands _) (ih (Nat.zero_le 2) (by omega))
    · have hnext : run + 1 ≤ 2 := Nat.le_of_lt_succ hnext
      rw [hbody, List.length_append, List.length_singleton] at hturns
      rw [hbody, List.singleton_append] at hopens ⊢
      exact pieces_cons_of_opens (next_threeQuotes_of_ne (by decide)) (.inl rfl) hopens (by omega)
        hrest (ih hnext (by omega))

/-! ### Three apostrophes -/

theorem le_longestRun (delimiter : Char) (words : List Char) (run longest : Nat) :
    max run longest ≤ longestRun.go delimiter words run longest := by
  induction words generalizing run longest with
  | nil => exact Nat.le_refl _
  | cons c words ih =>
    unfold longestRun.go
    split
    · have := ih (run + 1) longest
      omega
    · have := ih 0 (max run longest)
      omega

/-- No more delimiters stand in a row than in the longest run of them. -/
theorem exists_opens_of_longestRun {delimiter : Char} {words : List Char} {run longest : Nat}
    (h : longestRun.go delimiter words run longest < 3) :
    ∃ count, run + count ≤ 2 ∧ Opens delimiter words count words := by
  induction words generalizing run longest with
  | nil =>
    have := le_longestRun delimiter [] run longest
    exact ⟨0, by omega, .all rfl⟩
  | cons c words ih =>
    have hrun : run ≤ 2 := by
      have := le_longestRun delimiter (c :: words) run longest
      omega
    unfold longestRun.go at h
    by_cases hc : c = delimiter
    · rw [if_pos hc] at h
      obtain ⟨count, hcount, hopens⟩ := ih h
      rw [hc]
      exact ⟨count + 1, by omega, hopens.cons⟩
    · exact ⟨0, hrun, .broken c words hc⟩

theorem next_threeApostrophes (c : Char) (rest : List Char) :
    Form.threeApostrophes.next (c :: rest) =
      (tripleEnd? '\'' (c :: rest)).or (Form.next.lineOrCharacter (c :: rest)) := by
  unfold Form.next
  split <;> simp_all

theorem pieces_threeApostrophes {words : List Char}
    (hshown : ∀ c ∈ words, isPrintable c = true ∨ c = '\n') {run longest : Nat}
    (hlongest : longestRun.go '\'' words run longest < 3) {turns : Nat} {rest : List Char}
    (hrest : rest.head? ≠ some '\'') (hturns : words.length < turns) :
    pieces Form.threeApostrophes.next turns (words ++ '\'' :: '\'' :: '\'' :: rest) =
      some (words, rest) := by
  induction words generalizing run longest turns with
  | nil =>
    refine pieces_of_last ?_ hturns
    rw [List.nil_append, next_threeApostrophes, tripleEnd?_delimiters hrest, Option.some_or]
  | cons c words ih =>
    obtain ⟨turns, rfl⟩ := Nat.exists_eq_add_one_of_ne_zero (Nat.ne_zero_of_lt hturns)
    obtain ⟨count, hcount, hopens⟩ := exists_opens_of_longestRun hlongest
    obtain ⟨hc, hwords⟩ := List.forall_mem_cons.mp hshown
    have htail : pieces Form.threeApostrophes.next turns
        (words ++ '\'' :: '\'' :: '\'' :: rest) = some (words, rest) := by
      unfold longestRun.go at hlongest
      split at hlongest
      · exact ih hwords hlongest (Nat.lt_of_succ_lt_succ hturns)
      · exact ih hwords hlongest (Nat.lt_of_succ_lt_succ hturns)
    exact pieces_cons_of_opens (next_threeApostrophes c) hc hopens (by omega) hrest htail

/-! ### An apostrophe at either end -/

theorem next_apostrophes {c : Char} (hc : c ≠ '\'') (hprintable : isPrintable c = true)
    (rest : List Char) : Form.apostrophes.next (c :: rest) = some (.more [c] rest) := by
  unfold Form.next
  split <;> simp_all

theorem pieces_apostrophes {words : List Char} (hplain : ∀ c ∈ words, c ≠ '\'')
    (hprintable : ∀ c ∈ words, isPrintable c = true) {turns : Nat} (rest : List Char)
    (hturns : words.length < turns) :
    pieces Form.apostrophes.next turns (words ++ '\'' :: rest) = some (words, rest) := by
  induction words generalizing turns with
  | nil => exact pieces_of_last rfl hturns
  | cons c words ih =>
    obtain ⟨turns, rfl⟩ := Nat.exists_eq_add_one_of_ne_zero (Nat.ne_zero_of_lt hturns)
    obtain ⟨hc, hplain⟩ := List.forall_mem_cons.mp hplain
    obtain ⟨hshown, hprintable⟩ := List.forall_mem_cons.mp hprintable
    exact pieces_of_more (next_apostrophes hc hshown _)
      (ih hplain hprintable (Nat.lt_of_succ_lt_succ hturns))

/-! ### The plainest form -/

theorem not_isControl_of_any {words : List Char} (h : (!words.any isControl) = true) :
    ∀ c ∈ words, isPrintable c = true ∨ c = '\n' := by
  intro c hc
  rw [Bool.not_eq_true', List.any_eq_false] at h
  exact isControl_eq_false_iff.mp (Bool.eq_false_iff.mpr (h c hc))

/-- A text that is written between apostrophes is on one line, without apostrophes and controls; one
between three apostrophes has no controls, and no three apostrophes in a row. -/
theorem holds_plainest (words : List Char) :
    match Form.plainest words with
    | .apostrophes => (∀ c ∈ words, c ≠ '\'') ∧ ∀ c ∈ words, isPrintable c = true
    | .threeApostrophes =>
      (∀ c ∈ words, isPrintable c = true ∨ c = '\n') ∧ longestRun '\'' words < 3
    | .quotes | .threeQuotes => True := by
  unfold Form.plainest
  dsimp only
  split_ifs with hquotes happostrophes hthreeQuotes hthreeApostrophes
  · trivial
  · simp only [Bool.and_eq_true] at happostrophes
    obtain ⟨⟨hcontrols, hlines⟩, hplain⟩ := happostrophes
    have hlines : '\n' ∉ words := by simpa using hlines
    have hplain : '\'' ∉ words := by simpa using hplain
    refine ⟨fun c hc heq ↦ hplain (heq ▸ hc), fun c hc ↦ ?_⟩
    exact (not_isControl_of_any hcontrols c hc).resolve_right fun heq ↦ hlines (heq ▸ hc)
  · trivial
  · rw [Bool.and_eq_true, decide_eq_true_eq] at hthreeApostrophes
    exact ⟨not_isControl_of_any hthreeApostrophes.1, hthreeApostrophes.2⟩
  · trivial
  · trivial

/-! ### Texts -/

theorem Form.read_of_pieces {form : Form} {input words rest : List Char}
    (h : pieces form.next (input.length + 1) input = some (words, rest)) :
    form.read input = some (String.ofList words, rest) := by
  simp only [read, h, Option.map_some]

theorem dropNewline_of_none {input : List Char} (h : afterNewline? input = none) :
    dropNewline input = input := by
  rw [dropNewline, h, Option.getD_none]

/-- A text without line ends does not start with one, as it is written between three quotes. -/
theorem afterNewline?_escapeAll {words : List Char} (h : '\n' ∉ words) (rest : List Char) :
    afterNewline? (escapeAll .threeQuotes 0 words ++ '"' :: rest) = none := by
  cases words with
  | nil => rfl
  | cons c words =>
    obtain ⟨written, next, hbody, ⟨hstands, -⟩ | ⟨-, rfl, -, -⟩⟩ :=
      exists_escapeAll_cons .threeQuotes 0 c words
    · rw [hbody]
      cases hstands with
      | itself hquote hbackslash hshown =>
        refine afterNewline?_of_isPrintable (hshown.resolve_right ?_) _
        rintro ⟨rfl, -⟩
        exact h List.mem_cons_self
      | escaped code _ _ => rfl
    · rw [hbody]
      rfl

theorem afterNewline?_append {words : List Char}
    (h : ∀ c ∈ words, isPrintable c = true) (rest : List Char) :
    afterNewline? (words ++ '\'' :: rest) = none := by
  cases words with
  | nil => rfl
  | cons c words => exact afterNewline?_of_isPrintable (h c List.mem_cons_self) _

theorem ne_cons_cons {c : Char} {rest : List Char} (h : rest.head? ≠ some c) :
    ∀ after, c :: rest ≠ c :: c :: after := by
  rintro after heq
  rw [(List.cons.inj heq).2] at h
  exact h rfl

/-- A text between quotes, unless two quotes are the first of three. -/
theorem text_quotes (words : List Char) {rest : List Char} (hrest : rest.head? ≠ some '"') :
    text ('"' :: (escapeAll .quotes 0 words ++ '"' :: rest)) =
      some (String.ofList words, rest) := by
  have hsingle : ∀ after, escapeAll .quotes 0 words ++ '"' :: rest ≠ '"' :: '"' :: after := by
    cases words with
    | nil => exact ne_cons_cons hrest
    | cons c words =>
      obtain ⟨written, next, hbody, ⟨hstands, -⟩ | ⟨-, -, -, hrun⟩⟩ :=
        exists_escapeAll_cons .quotes 0 c words
      · obtain ⟨d, tail, rfl, hd⟩ := hstands.head_ne_quote
        rw [hbody]
        exact fun after heq ↦ hd (List.cons.inj heq).1
      · exact absurd hrun (by decide)
  have hread : Form.quotes.read (escapeAll .quotes 0 words ++ '"' :: rest) =
      some (String.ofList words, rest) :=
    Form.read_of_pieces (pieces_quotes words 0 rest (by rw [List.length_append]; omega))
  unfold text
  split
  · rename_i heq
    exact absurd (List.cons.inj heq).2 (hsingle _)
  · rename_i heq
    cases (List.cons.inj heq).1
  · exact hread

theorem text_apostrophes {words : List Char} (hplain : ∀ c ∈ words, c ≠ '\'')
    (hprintable : ∀ c ∈ words, isPrintable c = true) {rest : List Char}
    (hrest : rest.head? ≠ some '\'') :
    text ('\'' :: (words ++ '\'' :: rest)) = some (String.ofList words, rest) := by
  have hsingle : ∀ after, words ++ '\'' :: rest ≠ '\'' :: '\'' :: after := by
    cases words with
    | nil => exact ne_cons_cons hrest
    | cons c words => exact fun after heq ↦ hplain c List.mem_cons_self (List.cons.inj heq).1
  have hread : Form.apostrophes.read (words ++ '\'' :: rest) = some (String.ofList words, rest) :=
    Form.read_of_pieces (pieces_apostrophes hplain hprintable rest
      (by rw [List.length_append]; omega))
  unfold text
  split
  · rename_i heq
    cases (List.cons.inj heq).1
  · rename_i heq
    exact absurd (List.cons.inj heq).2 (hsingle _)
  · exact hread

/-- The line end that a text between three delimiters may start with, if it has line ends itself. -/
def lead (words : List Char) : List Char := if words.contains '\n' then ['\n'] else []

theorem dropNewline_lead {words input : List Char}
    (h : '\n' ∉ words → afterNewline? input = none) :
    dropNewline (lead words ++ input) = input := by
  unfold lead
  split
  · rfl
  · rename_i hlines
    exact dropNewline_of_none (h (by simpa using hlines))

theorem text_threeQuotes (words : List Char) {rest : List Char} (hrest : rest.head? ≠ some '"') :
    text ('"' :: '"' :: '"' :: (lead words ++ (escapeAll .threeQuotes 0 words ++
      '"' :: '"' :: '"' :: rest))) = some (String.ofList words, rest) := by
  rw [text, dropNewline_lead fun hlines ↦ afterNewline?_escapeAll hlines _]
  exact Form.read_of_pieces (pieces_threeQuotes words (Nat.zero_le 2) hrest
    (by rw [List.length_append]; omega))

theorem text_threeApostrophes {words : List Char}
    (hshown : ∀ c ∈ words, isPrintable c = true ∨ c = '\n') (hlongest : longestRun '\'' words < 3)
    {rest : List Char} (hrest : rest.head? ≠ some '\'') :
    text ('\'' :: '\'' :: '\'' :: (lead words ++ (words ++ '\'' :: '\'' :: '\'' :: rest))) =
      some (String.ofList words, rest) := by
  have hfront : '\n' ∉ words → afterNewline? (words ++ '\'' :: '\'' :: '\'' :: rest) = none :=
    fun hlines ↦ afterNewline?_append
      (fun c hc ↦ (hshown c hc).resolve_right fun heq ↦ hlines (heq ▸ hc)) _
  rw [text, dropNewline_lead hfront]
  exact Form.read_of_pieces (pieces_threeApostrophes hshown hlongest hrest
    (by rw [List.length_append]; omega))

/-- What follows a text starts with no delimiter, so it is no part of the text. -/
def Clears (rest : List Char) : Prop := ∀ c ∈ rest.head?, c ≠ '"' ∧ c ≠ '\''

/-- A text reads back, whatever form it is written in. -/
theorem text_writeText (value : String) {rest : List Char} (hrest : Clears rest) :
    text (writeText value ++ rest) = some (value, rest) := by
  have hquote : rest.head? ≠ some '"' := fun h ↦ (hrest _ h).1 rfl
  have happostrophe : rest.head? ≠ some '\'' := fun h ↦ (hrest _ h).2 rfl
  have hvalue : String.ofList value.toList = value := String.ofList_toList
  have hholds := holds_plainest value.toList
  cases hform : Form.plainest value.toList with
  | quotes =>
    have hread := text_quotes value.toList hquote
    rw [hvalue] at hread
    simpa [writeText, hform, Form.delimiter] using hread
  | apostrophes =>
    rw [hform] at hholds
    obtain ⟨hplain, hprintable⟩ := hholds
    have hread := text_apostrophes hplain hprintable happostrophe
    rw [hvalue] at hread
    simpa [writeText, hform, Form.delimiter] using hread
  | threeQuotes =>
    have hread := text_threeQuotes value.toList hquote
    rw [hvalue] at hread
    simpa [writeText, hform, Form.delimiter, lead] using hread
  | threeApostrophes =>
    rw [hform] at hholds
    obtain ⟨hshown, hlongest⟩ := hholds
    have hread := text_threeApostrophes hshown hlongest happostrophe
    rw [hvalue] at hread
    simpa [writeText, hform, Form.delimiter, lead] using hread

/-- A text that is written starts with a delimiter. -/
theorem exists_writeText (value : String) :
    ∃ c rest, writeText value = c :: rest ∧ (c = '"' ∨ c = '\'') := by
  have hdelimiter : ∀ form : Form, ∃ c rest, form.delimiter = c :: rest ∧ (c = '"' ∨ c = '\'') := by
    intro form
    cases form with
    | quotes | threeQuotes => exact ⟨_, _, rfl, .inl rfl⟩
    | apostrophes | threeApostrophes => exact ⟨_, _, rfl, .inr rfl⟩
  obtain ⟨c, rest, hfront, hc⟩ := hdelimiter (Form.plainest value.toList)
  simp only [writeText, hfront, List.cons_append]
  exact ⟨c, _, rfl, hc⟩

end TypedPacket.Toml
