import TypedPacket.Proofs.Toml.Setting
import TypedPacket.Toml.Document

/-!
# Documents read back

A document of sections is a sequence of statements, one a line: the header of each section and its
settings (`Section.statements`). The statements are read one by one (`Reads`), and amount to a table
for each section with the settings as its entries (`foldlM_sections`). So the document reads back
(`document?_writeAll`), provided that names are different and stand without delimiters.
-/

set_option autoImplicit false
set_option relaxedAutoImplicit false

namespace TypedPacket.Toml

/-! ### Names -/

/-- A name that stands without delimiters. -/
def isBareName (name : String) : Bool := !name.toList.isEmpty && name.toList.all Key.isBare

theorem exists_of_isBareName {name : String} (h : isBareName name = true) :
    ∃ c tail, name.toList = c :: tail ∧ Key.isBare c = true ∧ ∀ d ∈ tail, Key.isBare d = true := by
  unfold isBareName at h
  cases hname : name.toList with
  | nil => simp [hname] at h
  | cons c tail =>
    simp only [hname, List.isEmpty_cons, Bool.not_false, Bool.true_and, List.all_cons,
      Bool.and_eq_true, List.all_eq_true] at h
    exact ⟨c, tail, rfl, h⟩

/-- A bare name is read up to a character that is in no such name. -/
theorem readName_bare {name : String} (h : isBareName name = true) {d : Char}
    (hd : Key.isBare d = false) (rest : List Char) :
    Key.readName (name.toList ++ d :: rest) = some (name, d :: rest) := by
  obtain ⟨c, tail, hname, hc, htail⟩ := exists_of_isBareName h
  have hstop : ¬ Key.isBare d = true := Bool.eq_false_iff.mp hd
  have hquotes : ¬ (c = '"' ∨ c = '\'') :=
    not_or.mpr ⟨ne_of_eq_true_of_eq_false hc rfl, ne_of_eq_true_of_eq_false hc rfl⟩
  have hfront : (tail ++ d :: rest).takeWhile Key.isBare = tail := by
    rw [List.takeWhile_append_of_pos htail, List.takeWhile_cons_of_neg hstop, List.append_nil]
  have hrest : (tail ++ d :: rest).dropWhile Key.isBare = d :: rest := by
    rw [List.dropWhile_append_of_pos htail, List.dropWhile_cons_of_neg hstop]
  rw [hname, List.cons_append, Key.readName, if_neg hquotes, if_pos hc, hfront, hrest, ← hname,
    String.ofList_toList]

/-- A bare name is a key of its own, unless a dot follows. -/
theorem readKey_bare {name : String} (h : isBareName name = true) {d : Char}
    (hd : Key.isBare d = false) {rest : List Char}
    (hdot : ∀ after, skipSpace (d :: rest) ≠ '.' :: after) :
    Key.read (name.toList ++ d :: rest) = some (⟨[], name⟩, d :: rest) := by
  have hread : ∀ count, Key.readUpTo (count + 1) (name.toList ++ d :: rest) =
      some (⟨[], name⟩, d :: rest) := by
    intro count
    simp only [Key.readUpTo, readName_bare h hd, bind, Option.bind]
  exact hread _

/-! ### Statements -/

theorem skipSpace_cons {c : Char} (h : isSpace c = false) (rest : List Char) :
    skipSpace (c :: rest) = c :: rest :=
  List.dropWhile_cons_of_neg (Bool.eq_false_iff.mp h)

theorem assignment_line {name : String} (hname : isBareName name = true) {written : List Char}
    {content : Value} (h : ReadsBack written content) (depth : Nat) (rest : List Char) :
    assignment (value (depth + 1))
        (name.toList ++ ' ' :: '=' :: ' ' :: written ++ '\n' :: rest) =
      some ((⟨[], name⟩, content), '\n' :: rest) := by
  obtain ⟨c, tail, rfl, hc⟩ := h.exists_cons
  have hkey : Key.read (name.toList ++ ' ' :: '=' :: ' ' :: (c :: tail) ++ '\n' :: rest) =
      some (⟨[], name⟩, ' ' :: '=' :: ' ' :: (c :: tail) ++ '\n' :: rest) := by
    rw [List.append_assoc]
    exact readKey_bare hname rfl fun after h ↦ by cases h
  have hsign : skipSpace (' ' :: '=' :: ' ' :: (c :: tail) ++ '\n' :: rest) =
      '=' :: (' ' :: (c :: tail) ++ '\n' :: rest) := rfl
  have hspace : skipSpace (' ' :: (c :: tail) ++ '\n' :: rest) = (c :: tail) ++ '\n' :: rest :=
    skipSpace_cons hc _
  simp only [assignment, hkey, hsign, hspace, h.value_append depth rest, bind, Option.bind]

theorem afterLine?_newline (rest : List Char) : afterLine? ('\n' :: rest) = some rest := rfl

/-- A setting is a statement of its own. -/
theorem read_setting {name : String} (hname : isBareName name = true) {written : List Char}
    {content : Value} (h : ReadsBack written content) (rest : List Char) :
    Statement.read (name.toList ++ ' ' :: '=' :: ' ' :: written ++ '\n' :: rest) =
      some (.assign ⟨[], name⟩ content, rest) := by
  have hassignment := assignment_line hname h 79 rest
  obtain ⟨c, tail, hfront, hc, -⟩ := exists_of_isBareName hname
  have hbracket : c ≠ '[' := ne_of_eq_true_of_eq_false hc rfl
  rw [hfront] at hassignment ⊢
  simp only [List.cons_append] at hassignment ⊢
  unfold Statement.read
  split
  · rename_i heq
    exact absurd (List.cons.inj heq).1 hbracket
  · rename_i heq
    exact absurd (List.cons.inj heq).1 hbracket
  · simp only [Key.limit, hassignment, Option.map_some, bind, Option.bind, afterLine?_newline]

/-- So is the header of a table. -/
theorem read_header {name : String} (hname : isBareName name = true) (rest : List Char) :
    Statement.read ('[' :: name.toList ++ ']' :: '\n' :: rest) =
      some (.table ⟨[], name⟩, rest) := by
  obtain ⟨c, tail, hfront, hc, -⟩ := exists_of_isBareName hname
  have hbracket : c ≠ '[' := ne_of_eq_true_of_eq_false hc rfl
  have hspace : isSpace c = false := by
    simp only [isSpace, Bool.or_eq_false_iff, decide_eq_false_iff_not]
    exact ⟨ne_of_eq_true_of_eq_false hc rfl, ne_of_eq_true_of_eq_false hc rfl⟩
  have hkey : Key.read (name.toList ++ ']' :: '\n' :: rest) =
      some (⟨[], name⟩, ']' :: '\n' :: rest) :=
    readKey_bare hname rfl fun after h ↦ by cases h
  rw [hfront] at hkey
  have hheader : Statement.header [']'] (c :: tail ++ ']' :: '\n' :: rest) =
      some (⟨[], name⟩, '\n' :: rest) := by
    rw [Statement.header, List.cons_append, skipSpace_cons hspace, ← List.cons_append, hkey]
    rfl
  rw [hfront]
  simp only [Statement.read, List.cons_append]
  rw [List.cons_append] at hheader
  split
  · rename_i heq
    exact absurd (List.cons.inj (List.cons.inj heq).2).1 hbracket
  · rename_i heq
    obtain rfl := (List.cons.inj heq).2
    simp only [hheader, Option.map_some, bind, Option.bind, afterLine?_newline]
  · rename_i hno
    exact absurd rfl (hno _)

/-! ### Sequences of statements -/

namespace Section

/-- The statements of a section: its header, and its settings. -/
def statements (content : Section) : List Statement :=
  .table ⟨[], content.name⟩ ::
    content.settings.map fun setting ↦ .assign ⟨[], setting.1⟩ setting.2.value

/-- The entries of a section as they are read. -/
def entries (content : Section) : Entries :=
  content.settings.map fun setting ↦ (setting.1, setting.2.value)

def entry (content : Section) : String × Value := (content.name, .table .header content.entries)

/-- A section whose names stand without delimiters, with one setting for a name. -/
structure WellNamed (content : Section) : Prop where
  name : isBareName content.name = true
  settings : ∀ setting ∈ content.settings, isBareName setting.1 = true
  nodup : (content.settings.map Prod.fst).Nodup

end Section

/-- The statements of a text, read with any number of turns that is enough. -/
def Reads (input : List Char) (statements : List Statement) : Prop :=
  ∀ turns, input.length < turns → Statement.readAll turns input = some statements

namespace Reads

variable {input rest : List Char} {statement : Statement} {statements : List Statement}

theorem nil : Reads [] [] := by
  intro turns hturns
  obtain ⟨turns, rfl⟩ := Nat.exists_eq_add_one_of_ne_zero (Nat.ne_zero_of_lt hturns)
  rfl

/-- An empty line states nothing. -/
theorem blank (h : Reads input statements) : Reads ('\n' :: input) statements := by
  intro turns hturns
  obtain ⟨turns, rfl⟩ := Nat.exists_eq_add_one_of_ne_zero (Nat.ne_zero_of_lt hturns)
  rw [← h (turns + 1) (Nat.lt_of_succ_lt hturns)]
  rfl

theorem cons (hskip : skipLines false input = input)
    (hread : Statement.read input = some (statement, rest)) (hrest : rest.length < input.length)
    (h : Reads rest statements) : Reads input (statement :: statements) := by
  intro turns hturns
  obtain ⟨turns, rfl⟩ := Nat.exists_eq_add_one_of_ne_zero (Nat.ne_zero_of_lt hturns)
  have hmore := h turns (by omega)
  cases input with
  | nil => exact absurd hrest (Nat.not_lt_zero _)
  | cons c tail => simp only [Statement.readAll, hskip, hread, hmore, bind, Option.bind]

end Reads

/-- What starts a statement is not skipped. -/
theorem skipLines_cons {c : Char} (hc : Key.isBare c = true ∨ c = '[') (rest : List Char) :
    skipLines false (c :: rest) = c :: rest := by
  have hne : ∀ d, Key.isBare d = false → d ≠ '[' → c ≠ d := by
    rintro d hd hbracket rfl
    exact hc.elim (fun h ↦ ne_of_eq_true_of_eq_false h hd rfl) hbracket
  have hspace : isSpace c = false := by
    simp only [isSpace, Bool.or_eq_false_iff, decide_eq_false_iff_not]
    exact ⟨hne ' ' rfl (by decide), hne '\t' rfl (by decide)⟩
  unfold skipLines
  split
  · rename_i heq
    exact absurd (List.cons.inj heq).1 (hne '\n' rfl (by decide))
  · rename_i heq
    exact absurd (List.cons.inj heq).1 (hne '\r' rfl (by decide))
  · rename_i hflag _
    cases hflag
  · rename_i heq
    obtain ⟨rfl, rfl⟩ := List.cons.inj heq
    rw [hspace, if_neg Bool.false_ne_true, if_neg (hne '#' rfl (by decide))]
  · rename_i heq
    cases heq

/-- The settings of a section are statements, in front of those that follow. -/
theorem reads_settings {settings : List (String × Setting)}
    (hbare : ∀ setting ∈ settings, isBareName setting.1 = true) {lines rest : List Char}
    (hlines : Section.writeSettings settings = some lines) {statements : List Statement}
    (h : Reads rest statements) :
    Reads (lines ++ rest)
      (settings.map (fun setting ↦ .assign ⟨[], setting.1⟩ setting.2.value) ++ statements) := by
  induction settings generalizing lines with
  | nil =>
    obtain rfl := Option.some.inj hlines
    exact h
  | cons setting settings ih =>
    obtain ⟨name, setting⟩ := setting
    simp only [Section.writeSettings, bind, Option.bind_eq_some_iff] at hlines
    obtain ⟨written, hwritten, lines, hsettings, hall⟩ := hlines
    obtain rfl := Option.some.inj hall
    obtain ⟨hname, hbare⟩ := List.forall_mem_cons.mp hbare
    have hread := read_setting hname (readsBack_write hwritten) (lines ++ rest)
    obtain ⟨c, tail, hfront, hc, -⟩ := exists_of_isBareName hname
    rw [List.append_assoc _ _ rest, List.cons_append]
    refine .cons ?_ hread ?_ (ih hbare hsettings)
    · rw [hfront]
      exact skipLines_cons (.inl hc) _
    · simp only [List.length_append, List.length_cons]
      omega

/-- So is the header of a section, with its settings. -/
theorem reads_section {content : Section} (hnamed : content.WellNamed) {lines rest : List Char}
    (hlines : content.write = some lines) {statements : List Statement}
    (h : Reads rest statements) : Reads (lines ++ rest) (content.statements ++ statements) := by
  simp only [Section.write, bind, Option.bind_eq_some_iff] at hlines
  obtain ⟨settings, hsettings, hall⟩ := hlines
  obtain rfl := Option.some.inj hall
  have hread := read_header hnamed.name (settings ++ rest)
  rw [List.append_assoc _ _ rest, List.cons_append]
  refine .cons (skipLines_cons (.inr rfl) _) hread ?_ (reads_settings hnamed.settings hsettings h)
  simp only [List.length_append, List.length_cons]
  omega

theorem reads_sections {sections : List Section} (hnamed : ∀ content ∈ sections, content.WellNamed)
    {words : List Char} (hwords : Section.writeAll sections = some words) :
    Reads words (sections.flatMap Section.statements) := by
  induction sections generalizing words with
  | nil =>
    obtain rfl := Option.some.inj hwords
    exact .nil
  | cons content sections ih =>
    obtain ⟨hcontent, hnamed⟩ := List.forall_mem_cons.mp hnamed
    cases sections with
    | nil =>
      have hread := reads_section hcontent hwords .nil
      rwa [List.append_nil] at hread
    | cons next sections =>
      simp only [Section.writeAll, bind, Option.bind_eq_some_iff] at hwords
      obtain ⟨lines, hlines, others, hothers, hall⟩ := hwords
      obtain rfl := Option.some.inj hall
      exact reads_section hcontent hlines (ih hnamed hothers).blank

/-! ### What the statements amount to -/

namespace Entries

theorem alter_append {name : String} {before : Entries} (h : name ∉ before.map Prod.fst)
    (change : Option Value → Option Value) (rest : Entries) :
    alter name change (before ++ rest) = (alter name change rest).map (before ++ ·) := by
  induction before with
  | nil => simp
  | cons entry before ih =>
    obtain ⟨other, value⟩ := entry
    rw [List.map_cons, List.mem_cons, not_or] at h
    obtain ⟨hother, hbefore⟩ := h
    rw [List.cons_append, alter, if_neg (Ne.symm hother), ih hbefore, Option.map_map]
    rfl

theorem put_new {name : String} {entries : Entries} (h : name ∉ entries.map Prod.fst)
    (value : Value) : put name value entries = some (entries ++ [(name, value)]) := by
  calc put name value entries = put name value (entries ++ []) := by rw [List.append_nil]
    _ = some (entries ++ [(name, value)]) := alter_append h _ []

/-- A setting goes to the end of the table that has begun. -/
theorem within_last {table name : String} {before inner : Entries}
    (htable : table ∉ before.map Prod.fst) (hname : name ∉ inner.map Prod.fst) (value : Value) :
    within .header [table] (assign ⟨[], name⟩ value) (before ++ [(table, .table .header inner)]) =
      some (before ++ [(table, .table .header (inner ++ [(name, value)]))]) := by
  have hassign : assign ⟨[], name⟩ value inner = some (inner ++ [(name, value)]) :=
    put_new hname value
  rw [within, alter_append htable]
  simp only [alter, if_true, within, Way.enters, decide_true, hassign, Option.map_some]

theorem beginTable_new {name : String} {entries : Entries} (h : name ∉ entries.map Prod.fst) :
    beginTable name entries = some (entries ++ [(name, .table .header [])]) := by
  have hnone : entries.get? name = none := by
    rw [get?, List.lookup_eq_none_iff]
    rintro entry hentry
    simp only [bne_iff_ne, ne_eq]
    rintro rfl
    exact h (List.mem_map_of_mem hentry)
  rw [beginTable, hnone]

end Entries

/-- The settings of a table are put into it one by one. -/
theorem foldlM_settings {table : String} {before : Entries} (htable : table ∉ before.map Prod.fst)
    {settings : List (String × Setting)} {inner : Entries}
    (hnodup : (inner.map Prod.fst ++ settings.map Prod.fst).Nodup) :
    (settings.map fun setting ↦ Statement.assign ⟨[], setting.1⟩ setting.2.value).foldlM Draft.step
        ⟨before ++ [(table, .table .header inner)], [table]⟩ =
      some ⟨before ++ [(table, .table .header
        (inner ++ settings.map fun setting ↦ (setting.1, setting.2.value)))], [table]⟩ := by
  induction settings generalizing inner with
  | nil => simp
  | cons setting settings ih =>
    obtain ⟨name, setting⟩ := setting
    have hname : name ∉ inner.map Prod.fst :=
      fun h ↦ (List.nodup_append.mp hnodup).2.2 name h name List.mem_cons_self rfl
    have hmore : ((inner ++ [(name, setting.value)]).map Prod.fst ++
        settings.map Prod.fst).Nodup := by simpa using hnodup
    have hstep : Draft.step ⟨before ++ [(table, .table .header inner)], [table]⟩
        (.assign ⟨[], name⟩ setting.value) =
        some ⟨before ++ [(table, .table .header (inner ++ [(name, setting.value)]))], [table]⟩ := by
      rw [Draft.step, Entries.within_last htable hname, Option.map_some]
    rw [List.map_cons, List.foldlM_cons, hstep]
    simpa using ih hmore

theorem foldlM_section {content : Section} (hnamed : content.WellNamed) {before : Entries}
    (hname : content.name ∉ before.map Prod.fst) (place : List String) :
    content.statements.foldlM Draft.step ⟨before, place⟩ =
      some ⟨before ++ [content.entry], [content.name]⟩ := by
  have hbegin : Draft.step ⟨before, place⟩ (.table ⟨[], content.name⟩) =
      some ⟨before ++ [(content.name, .table .header [])], [content.name]⟩ := by
    rw [Draft.step, Entries.within, Entries.beginTable_new hname]
    rfl
  rw [Section.statements, List.foldlM_cons, hbegin]
  exact foldlM_settings hname hnamed.nodup

/-- Sections with different names become entries, one after another. -/
theorem foldlM_sections {sections : List Section} (hnamed : ∀ content ∈ sections, content.WellNamed)
    {before : Entries} (hnodup : (before.map Prod.fst ++ sections.map Section.name).Nodup)
    (place : List String) :
    ∃ last, (sections.flatMap Section.statements).foldlM Draft.step ⟨before, place⟩ =
      some ⟨before ++ sections.map Section.entry, last⟩ := by
  induction sections generalizing before place with
  | nil => exact ⟨place, by simp⟩
  | cons content sections ih =>
    obtain ⟨hcontent, hnamed⟩ := List.forall_mem_cons.mp hnamed
    have hname : content.name ∉ before.map Prod.fst :=
      fun h ↦ (List.nodup_append.mp hnodup).2.2 _ h _ List.mem_cons_self rfl
    have hmore : ((before ++ [content.entry]).map Prod.fst ++
        sections.map Section.name).Nodup := by simpa [Section.entry] using hnodup
    obtain ⟨last, hlast⟩ := ih hnamed hmore [content.name]
    refine ⟨last, ?_⟩
    rw [List.flatMap_cons, List.foldlM_append, foldlM_section hcontent hname]
    simpa using hlast

/-! ### Documents -/

theorem exists_cons_of_write {content : Section} {lines : List Char}
    (h : content.write = some lines) : ∃ tail, lines = '[' :: tail := by
  simp only [Section.write, bind, Option.bind_eq_some_iff] at h
  obtain ⟨settings, -, hlines⟩ := h
  obtain rfl := Option.some.inj hlines
  exact ⟨_, rfl⟩

/-- A document of sections starts with a header, and no mark of the byte order. -/
theorem eq_nil_or_cons_of_writeAll {sections : List Section} {words : List Char}
    (h : Section.writeAll sections = some words) : words = [] ∨ ∃ tail, words = '[' :: tail := by
  rcases sections with _ | ⟨content, _ | ⟨next, sections⟩⟩
  · exact .inl (Option.some.inj h).symm
  · exact .inr (exists_cons_of_write h)
  · simp only [Section.writeAll, bind, Option.bind_eq_some_iff] at h
    obtain ⟨lines, hlines, others, -, hwords⟩ := h
    obtain rfl := Option.some.inj hwords
    obtain ⟨tail, rfl⟩ := exists_cons_of_write hlines
    exact .inr ⟨_, rfl⟩

/-- A document of sections reads back. Assumes: sections with different bare names, and in each of
them settings with different bare names. What is written for them is a document with an entry for
each section, which is a table of its settings. -/
theorem document?_writeAll {sections : List Section}
    (hnamed : ∀ content ∈ sections, content.WellNamed)
    (hnodup : (sections.map Section.name).Nodup) {words : List Char}
    (hwords : Section.writeAll sections = some words) :
    document? (String.ofList words) = some (sections.map Section.entry) := by
  have hread := reads_sections hnamed hwords (words.length + 1) (Nat.lt_succ_self _)
  have hnew : (([] : Entries).map Prod.fst ++ sections.map Section.name).Nodup := hnodup
  obtain ⟨last, hfold⟩ := foldlM_sections hnamed hnew []
  have hdocument : document? (String.ofList words) =
      (Statement.readAll (words.length + 1) words).bind fun statements ↦
        (statements.foldlM Draft.step Draft.blank).bind fun draft ↦ some draft.entries := by
    rw [document?, String.toList_ofList]
    rcases eq_nil_or_cons_of_writeAll hwords with rfl | ⟨tail, rfl⟩
    · rfl
    · rfl
  rw [hdocument, hread, Option.bind_some, Draft.blank, hfold]
  rfl

/-! ### What can be written -/

/-- A setting that is no size beyond the integers of a document. -/
def Setting.InRange : Setting → Prop
  | .size n => n.toNat ≤ maxInteger
  | .flag _ => True
  | .text _ => True

theorem Setting.exists_write_iff {setting : Setting} :
    (∃ written, setting.write = some written) ↔ setting.InRange := by
  cases setting with
  | size n => simp [write, InRange]
  | flag b => cases b <;> simp [write, InRange]
  | text words => simp [write, InRange]

namespace Section

theorem exists_writeSettings_iff {settings : List (String × Setting)} :
    (∃ lines, writeSettings settings = some lines) ↔ ∀ setting ∈ settings, setting.2.InRange := by
  induction settings with
  | nil => simp [writeSettings]
  | cons setting settings ih =>
    obtain ⟨name, setting⟩ := setting
    rw [List.forall_mem_cons, ← ih, ← Setting.exists_write_iff]
    cases hwritten : setting.write <;> cases hlines : writeSettings settings <;>
      simp [writeSettings, hwritten, hlines]

theorem exists_write_iff {content : Section} :
    (∃ lines, content.write = some lines) ↔ ∀ setting ∈ content.settings, setting.2.InRange := by
  rw [← exists_writeSettings_iff]
  cases hlines : writeSettings content.settings <;> simp [write, hlines]

/-- Sections are written exactly if each of their settings can be. -/
theorem exists_writeAll_iff {sections : List Section} :
    (∃ words, writeAll sections = some words) ↔
      ∀ content ∈ sections, ∀ setting ∈ content.settings, setting.2.InRange := by
  induction sections with
  | nil => simp [writeAll]
  | cons content sections ih =>
    rw [List.forall_mem_cons, ← ih, ← exists_write_iff]
    cases sections with
    | nil => simp [writeAll]
    | cons next sections =>
      cases hlines : content.write <;> cases hothers : writeAll (next :: sections) <;>
        simp [writeAll, hlines, hothers]

end Section

end TypedPacket.Toml
