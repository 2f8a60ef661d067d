import SheetReach.Proofs.DirectiveScan

/-! Directives with braces in all the ways they may be written: with either quote around each specifier and
any blanks, line ends included, behind the word and around the commas. Read back, they give the specifiers
they were written with, whatever of comments, commas, quotes and directives a specifier looks like. -/
namespace SheetReach

namespace Import

structure Blanks where
  text : List Char
  blank : text.all Text.isBlank = true := by decide

inductive Quote where
  | single
  | double

def Quote.char : Quote → Char
  | single => '\''
  | double => '"'

/-- A specifier that can be written with the quote chosen for it. -/
structure Quotation where
  specifier : List Char
  quote : Quote
  filled : specifier ≠ [] := by decide
  starts : specifier.head?.any isTrimmed = false := by decide
  ends : specifier.getLast?.any isTrimmed = false := by decide
  oneLine : '\n' ∉ specifier := by decide
  unopened : ¬ Comment.opener <:+: specifier := by decide
  unquoted : quote.char ∉ specifier := by decide

def Quotation.text (quotation : Quotation) : List Char :=
  quotation.quote.char :: (quotation.specifier ++ [quotation.quote.char])

/-- A comma between blanks, and one more specifier. -/
structure Addition where
  before : Blanks
  after : Blanks
  quotation : Quotation

/-- The comma and the specifier as written. -/
def Addition.text (addition : Addition) : List Char :=
  addition.before.text ++ ',' :: (addition.after.text ++ addition.quotation.text)

/-- A directive with at least one specifier, and at least one blank behind its word. -/
structure Directive where
  gap : Blanks
  apart : gap.text ≠ [] := by decide
  first : Quotation
  others : List Addition

/-- The directive as a line, or more than one, with a semicolon at its end. -/
def Directive.text (directive : Directive) : List Char :=
  word ++ (directive.gap.text ++ (directive.first.text ++
    (directive.others.flatMap Addition.text ++ [';', '\n'])))

def Directive.specifiers (directive : Directive) : List (List Char) :=
  directive.first.specifier :: directive.others.map (·.quotation.specifier)

theorem Quote.char_eq (quote : Quote) : quote.char = '"' ∨ quote.char = '\'' := by
  cases quote
  · exact Or.inr rfl
  · exact Or.inl rfl

theorem Quote.char_facts (quote : Quote) :
    Text.isBlank quote.char = false ∧ quote.char ≠ '/' ∧ quote.char ≠ '*' ∧ quote.char ≠ '\n' := by
  cases quote <;> decide

theorem Quote.unindented (quote : Quote) : Comment.isIndent quote.char = false := by
  cases quote <;> decide

/-! Reading a directive back. -/

theorem Blanks.dropWhile_append (blanks : Blanks) {c : Char} (solid : Text.isBlank c = false)
    (rest : List Char) : (blanks.text ++ c :: rest).dropWhile Text.isBlank = c :: rest := by
  rw [List.dropWhile_append_of_pos (List.all_eq_true.mp blanks.blank), List.dropWhile_cons, if_neg (by simp [solid])]

theorem Quotation.quoted_append (quotation : Quotation) (rest : List Char) :
    quoted (quotation.text ++ rest) = some (quotation.specifier, rest) := by
  apply (quoted_eq_some_iff _ _ _).mpr
  refine ⟨quotation.quote.char, quotation.quote.char_eq, ?_, quotation.unquoted, quotation.oneLine⟩
  simp [Quotation.text]

theorem Quotation.quoted_after_blanks (quotation : Quotation) (blanks : Blanks) (rest : List Char) :
    quoted ((blanks.text ++ (quotation.text ++ rest)).dropWhile Text.isBlank) =
      some (quotation.specifier, rest) := by
  have solid := quotation.quote.char_facts.1
  have read := quotation.quoted_append rest
  rw [Quotation.text, List.cons_append] at read ⊢
  rw [blanks.dropWhile_append solid, read]

theorem Addition.nextQuoted_append (addition : Addition) (rest : List Char) :
    nextQuoted (addition.text ++ rest) = some (addition.quotation.specifier, rest) := by
  rw [Addition.text, List.append_assoc, List.cons_append, List.append_assoc]
  simp only [nextQuoted, addition.before.dropWhile_append (show Text.isBlank ',' = false by decide)]
  exact addition.quotation.quoted_after_blanks addition.after rest

theorem moreQuoted_append (additions : List Addition) (rest : List Char) {count : Nat}
    (enough : additions.length ≤ count) :
    moreQuoted count (additions.flatMap Addition.text ++ ';' :: rest) =
      (additions.map (·.quotation.specifier), ';' :: rest) := by
  induction additions generalizing count with
  | nil =>
    cases count with
    | zero => rfl
    | succ count => rfl
  | cons addition additions ih =>
    cases count with
    | zero => simp at enough
    | succ count =>
      rw [List.length_cons] at enough
      rw [List.flatMap_cons, List.append_assoc, moreQuoted, addition.nextQuoted_append]
      simp only [ih (show additions.length ≤ count by omega), List.map_cons]

theorem length_le_text (additions : List Addition) :
    additions.length ≤ (additions.flatMap Addition.text).length := by
  induction additions with
  | nil => simp
  | cons addition additions ih =>
    simp only [List.flatMap_cons, List.length_append, List.length_cons, Addition.text]
    omega

theorem Quotation.listed_append (quotation : Quotation) (blanks : Blanks) (additions : List Addition)
    (rest : List Char) :
    listed (blanks.text ++ (quotation.text ++ (additions.flatMap Addition.text ++ ';' :: rest))) =
      some (quotation.specifier :: additions.map (·.quotation.specifier), ';' :: rest) := by
  have enough : additions.length ≤ (additions.flatMap Addition.text ++ ';' :: rest).length := by
    have atLeast := length_le_text additions
    rw [List.length_append]
    omega
  rw [listed, quotation.quoted_after_blanks, Option.map_some]
  simp only [moreQuoted_append additions rest enough]

theorem Directive.braceDirective_append (directive : Directive) (rest : List Char) :
    braceDirective (directive.text ++ rest) = some (directive.specifiers, ';' :: '\n' :: rest) := by
  cases spelled : directive.gap.text with
  | nil => exact absurd spelled directive.apart
  | cons c more =>
    have blank := directive.gap.blank
    rw [spelled, List.all_cons, Bool.and_eq_true] at blank
    have whole : directive.text ++ rest = word ++ c :: (more ++ (directive.first.text ++
        (directive.others.flatMap Addition.text ++ ';' :: '\n' :: rest))) := by
      simp [Directive.text, spelled]
    rw [braceDirective_eq, (Text.afterPrefix?_eq_some_iff word _ _).mpr whole]
    simp only [blank.1, ↓reduceIte]
    exact directive.first.listed_append ⟨more, blank.2⟩ directive.others ('\n' :: rest)

theorem Quotation.trimmed (quotation : Quotation) :
    trimSpecifier quotation.specifier = quotation.specifier :=
  Text.trimBy_eq_self quotation.starts quotation.ends

theorem Directive.braceScan_append (directive : Directive) (rest : List Char) :
    braceScan 0 (directive.text ++ rest) = directive.specifiers ++ braceScan 0 rest := by
  have trimmed : directive.specifiers.map trimSpecifier = directive.specifiers := by
    simp [Directive.specifiers, Quotation.trimmed, Function.comp_def]
  rw [braceScan_of_directive (directive.braceDirective_append rest), trimmed,
    braceScan_of_none (braceDirective_of_ne (by decide) _),
    braceScan_of_none (braceDirective_of_ne (by decide) _)]

theorem braceScan_printed (directives : List Directive) :
    braceScan 0 (directives.flatMap Directive.text) = directives.flatMap Directive.specifiers := by
  induction directives with
  | nil => rfl
  | cons directive directives ih =>
    rw [List.flatMap_cons, List.flatMap_cons, directive.braceScan_append, ih]

/-! Nothing in a directive is a comment. -/

theorem Blanks.apart (blanks : Blanks) : ∀ c ∈ blanks.text, c ∉ Comment.opener := by
  intro c member marked
  have blank := List.all_eq_true.mp blanks.blank c member
  simp only [List.mem_cons, List.not_mem_nil, or_false] at marked
  rcases marked with rfl | rfl <;> revert blank <;> decide

theorem Quotation.opener_append (quotation : Quotation) (rest : List Char) :
    Comment.opener <:+: quotation.text ++ rest ↔ Comment.opener <:+: rest := by
  obtain ⟨-, noSlash, noStar, -⟩ := quotation.quote.char_facts
  have apart : quotation.quote.char ∉ Comment.opener := by simp [noSlash, noStar]
  have whole : quotation.text ++ rest =
      [] ++ quotation.quote.char :: (quotation.specifier ++ quotation.quote.char :: rest) := by
    simp [Quotation.text]
  rw [whole, Text.infix_append_cons_iff apart, Text.infix_append_cons_iff apart]
  simp [quotation.unopened]

theorem Addition.opener_append (addition : Addition) (rest : List Char) :
    Comment.opener <:+: addition.text ++ rest ↔ Comment.opener <:+: rest := by
  have comma : ∀ c ∈ [','], c ∉ Comment.opener := by simp
  have whole : addition.text ++ rest = addition.before.text ++
      ([','] ++ (addition.after.text ++ (addition.quotation.text ++ rest))) := by
    simp [Addition.text]
  rw [whole, Text.infix_append_iff_of_apart addition.before.apart, Text.infix_append_iff_of_apart comma,
    Text.infix_append_iff_of_apart addition.after.apart, addition.quotation.opener_append]

theorem additions_opener_append (additions : List Addition) (rest : List Char) :
    Comment.opener <:+: additions.flatMap Addition.text ++ rest ↔ Comment.opener <:+: rest := by
  induction additions with
  | nil => rfl
  | cons addition additions ih =>
    rw [List.flatMap_cons, List.append_assoc, addition.opener_append, ih]

theorem Directive.opener_append (directive : Directive) (rest : List Char) :
    Comment.opener <:+: directive.text ++ rest ↔ Comment.opener <:+: rest := by
  have start : ∀ c ∈ word, c ∉ Comment.opener := by simp [word]
  have finish : ∀ c ∈ [';', '\n'], c ∉ Comment.opener := by simp
  simp only [Directive.text, List.append_assoc]
  rw [Text.infix_append_iff_of_apart start, Text.infix_append_iff_of_apart directive.gap.apart,
    directive.first.opener_append, additions_opener_append, Text.infix_append_iff_of_apart finish]

theorem printed_unopened (directives : List Directive) :
    ¬ Comment.opener <:+: directives.flatMap Directive.text := by
  induction directives with
  | nil => decide
  | cons directive directives ih =>
    rw [List.flatMap_cons, directive.opener_append]
    exact ih

theorem Blanks.slashless (blanks : Blanks) : '/' ∉ blanks.text := by
  intro slash
  have apart := blanks.apart '/' slash
  simp at apart

theorem Quotation.stripLinesFrom_append (quotation : Quotation) (blanks : Blanks) (rest : List Char) :
    Comment.stripLinesFrom .inside (blanks.text ++ (quotation.text ++ rest)) =
      blanks.text ++ (quotation.text ++ Comment.stripLinesFrom .inside rest) := by
  obtain ⟨solid, noSlash, -, visible⟩ := quotation.quote.char_facts
  have closing : '\n' ∉ quotation.specifier ++ [quotation.quote.char] := by
    simp [quotation.oneLine, visible.symm]
  rw [Quotation.text, List.cons_append, Comment.stripLinesFrom_slashless .inside (by simp) blanks.slashless
    quotation.quote.unindented visible noSlash, Comment.stripLinesFrom_inside closing, List.cons_append]

theorem Addition.stripLinesFrom_append (addition : Addition) (rest : List Char) :
    Comment.stripLinesFrom .inside (addition.text ++ rest) =
      addition.text ++ Comment.stripLinesFrom .inside rest := by
  have whole (back : List Char) : addition.text ++ back = addition.before.text ++
      ',' :: (addition.after.text ++ (addition.quotation.text ++ back)) := by
    simp [Addition.text]
  rw [whole, whole, Comment.stripLinesFrom_slashless .inside (by simp) addition.before.slashless (by decide)
    (by decide) (by decide), addition.quotation.stripLinesFrom_append]

theorem additions_stripLinesFrom_append (additions : List Addition) (rest : List Char) :
    Comment.stripLinesFrom .inside (additions.flatMap Addition.text ++ rest) =
      additions.flatMap Addition.text ++ Comment.stripLinesFrom .inside rest := by
  induction additions with
  | nil => rfl
  | cons addition additions ih =>
    rw [List.flatMap_cons, List.append_assoc, addition.stripLinesFrom_append, ih, List.append_assoc]

theorem Directive.stripLines_append (directive : Directive) (rest : List Char) :
    Comment.stripLines (directive.text ++ rest) = directive.text ++ Comment.stripLines rest := by
  have whole (back : List Char) : directive.text ++ back = [] ++ '@' :: (word.tail ++ (directive.gap.text ++
      (directive.first.text ++ (directive.others.flatMap Addition.text ++ ([';'] ++ '\n' :: back))))) := by
    simp [Directive.text, word]
  have finish : Comment.stripLinesFrom .inside ([';'] ++ '\n' :: rest) =
      [';'] ++ '\n' :: Comment.stripLines rest := Comment.stripLinesFrom_append .inside [';'] rest
  rw [Comment.stripLines, whole, whole, Comment.stripLinesFrom_slashless .start (by simp) (by simp) (by decide)
    (by decide) (by decide), Comment.stripLinesFrom_inside (by decide),
    directive.first.stripLinesFrom_append, additions_stripLinesFrom_append, finish]

theorem strip_printed (directives : List Directive) :
    Comment.strip (directives.flatMap Directive.text) = directives.flatMap Directive.text := by
  rw [Comment.strip, Comment.stripBlocks_of_unopened (printed_unopened directives)]
  induction directives with
  | nil => rfl
  | cons directive directives ih => rw [List.flatMap_cons, directive.stripLines_append, ih]

/-- Directives that are written out and read back give their specifiers in order. -/
theorem parse_printed (directives : List Directive) :
    parse .scss (directives.flatMap Directive.text) = directives.flatMap Directive.specifiers := by
  have filled : ∀ specifier ∈ directives.flatMap Directive.specifiers, specifier ≠ [] := by
    intro specifier member
    obtain ⟨directive, -, listed⟩ := List.mem_flatMap.mp member
    rcases List.mem_cons.mp listed with rfl | further
    · exact directive.first.filled
    · obtain ⟨addition, -, rfl⟩ := List.mem_map.mp further
      exact addition.quotation.filled
  simp only [parse, scan]
  rw [strip_printed, braceScan_printed]
  exact List.filter_eq_self.mpr (by simpa using filled)

/-- Specifiers that hold quotes, commas, slashes, a closing mark and a directive, with blanks of all sorts
between them. -/
def thorny : List Directive :=
  [{ gap := { text := "\n\t".toList }
     first := { specifier := "a'//b".toList, quote := .double }
     others :=
       [{ before := { text := "\u2028".toList }
          after := { text := "\r\n".toList }
          quotation := { specifier := "*/ @import \"c\",d".toList, quote := .single } }] },
   { gap := { text := " ".toList }
     first := { specifier := "/".toList, quote := .single }
     others := [] }]

theorem thorny_parse_printed :
    thorny.flatMap Directive.text =
        "@import\n\t\"a'//b\"\u2028,\r\n'*/ @import \"c\",d';\n@import '/';\n".toList ∧
      parse .scss (thorny.flatMap Directive.text) =
        ["a'//b".toList, "*/ @import \"c\",d".toList, "/".toList] := by
  refine ⟨by decide, ?_⟩
  rw [parse_printed]
  decide

end Import

end SheetReach
