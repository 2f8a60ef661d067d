import SheetReach.Import.Directive
import SheetReach.Proofs.StrippedText

/-! How directives with braces are found in a text. A directive is read from its word on as far as it goes,
and the search goes on behind it. No directive gets past a line end before something that is neither a
blank nor a comma nor a quote, so a text is searched in the same way whatever stands behind such a place. -/
namespace SheetReach.Import

/-- A reader takes at least one character and leaves the rest as it is. -/
def Advances {α : Type} (read : List Char → Option (α × List Char)) : Prop :=
  ∀ text found after, read text = some (found, after) → ∃ c passed, text = c :: (passed ++ after)

/-- A reader finds the same before a tail as at the end of the text, and leaves the tail. -/
def StopsAt {α : Type} (tail : List Char) (read : List Char → Option (α × List Char)) : Prop :=
  ∀ text, read (text ++ tail) = (read text).map fun (found, after) => (found, after ++ tail)

/-- No directive goes on with this character after a line end. -/
def EndsDirective (c : Char) : Prop :=
  Text.isBlank c = false ∧ c ≠ ',' ∧ c ≠ '"' ∧ c ≠ '\''

instance (c : Char) : Decidable (EndsDirective c) :=
  inferInstanceAs (Decidable (_ ∧ _))

/-! What a directive takes of a text. -/

theorem newline_ne_quote {c : Char} (isQuote : c = '"' ∨ c = '\'') : c ≠ '\n' := by
  rcases isQuote with rfl | rfl <;> decide

theorem closeQuote_eq_some_iff {quote : Char} (visible : quote ≠ '\n') (text inner after : List Char) :
    closeQuote quote text = some (inner, after) ↔
      text = inner ++ quote :: after ∧ quote ∉ inner ∧ '\n' ∉ inner := by
  induction text generalizing inner with
  | nil => simp [closeQuote]
  | cons c rest ih =>
    by_cases closes : c = quote
    · subst closes
      cases inner with
      | nil => simp [closeQuote]
      | cons d more =>
        simp only [closeQuote, ↓reduceIte, List.cons_append]
        grind
    · by_cases newline : c = '\n'
      · subst newline
        cases inner with
        | nil => simp [closeQuote, closes]
        | cons d more =>
          simp only [closeQuote, closes, ↓reduceIte, List.cons_append]
          grind
      · simp only [closeQuote, closes, newline, ↓reduceIte, Option.map_eq_some_iff, Prod.exists]
        cases inner with
        | nil => simp [closes]
        | cons d more =>
          simp only [List.cons_append]
          grind

theorem quoted_eq_some_iff (text inner after : List Char) :
    quoted text = some (inner, after) ↔ ∃ quote, (quote = '"' ∨ quote = '\'') ∧
      text = quote :: (inner ++ quote :: after) ∧ quote ∉ inner ∧ '\n' ∉ inner := by
  cases text with
  | nil => simp [quoted]
  | cons c rest =>
    by_cases isQuote : c = '"' ∨ c = '\''
    · have visible := newline_ne_quote isQuote
      have read : quoted (c :: rest) = closeQuote c rest := by simp [quoted, isQuote]
      rw [read, closeQuote_eq_some_iff visible]
      constructor
      · intro found
        exact ⟨c, isQuote, by rw [found.1], found.2⟩
      · intro found
        obtain ⟨quote, -, same, apart⟩ := found
        obtain ⟨rfl, rfl⟩ := List.cons.inj same
        exact ⟨rfl, apart⟩
    · have unread : quoted (c :: rest) = none := by simp [quoted, isQuote]
      rw [unread]
      refine iff_of_false (by simp) ?_
      intro found
      obtain ⟨quote, isOne, same, -⟩ := found
      exact isQuote ((List.cons.inj same).1 ▸ isOne)

theorem quoted_advances : Advances quoted := by
  intro text inner after found
  obtain ⟨quote, -, same, -⟩ := (quoted_eq_some_iff text inner after).mp found
  exact ⟨quote, inner ++ [quote], by simp [same]⟩

theorem Advances.after_blanks {α : Type} {read : List Char → Option (α × List Char)}
    (advances : Advances read) : Advances fun text => read (text.dropWhile Text.isBlank) := by
  intro text value after found
  obtain ⟨c, passed, same⟩ := advances _ value after found
  have whole : text = text.takeWhile Text.isBlank ++ c :: (passed ++ after) := by
    rw [← same, List.takeWhile_append_dropWhile]
  cases blanks : text.takeWhile Text.isBlank with
  | nil => exact ⟨c, passed, by simpa [blanks] using whole⟩
  | cons d more => exact ⟨d, more ++ c :: passed, by simpa [blanks] using whole⟩

/-- A comma at the start, any blanks, and a quoted text. -/
def commaQuoted : List Char → Option (List Char × List Char)
  | ',' :: rest => quoted (rest.dropWhile Text.isBlank)
  | _ => none

theorem nextQuoted_eq : nextQuoted = fun text => commaQuoted (text.dropWhile Text.isBlank) := by
  funext text
  unfold nextQuoted commaQuoted
  split <;> simp_all

theorem nextQuoted_advances : Advances nextQuoted := by
  rw [nextQuoted_eq]
  apply Advances.after_blanks
  intro text inner after found
  unfold commaQuoted at found
  split at found
  next rest =>
    obtain ⟨c, passed, same⟩ := quoted_advances.after_blanks _ inner after found
    exact ⟨',', c :: passed, by simp [same]⟩
  next => cases found

theorem moreQuoted_suffix (count : Nat) (text : List Char) :
    ∃ passed, text = passed ++ (moreQuoted count text).2 := by
  induction count generalizing text with
  | zero => exact ⟨[], rfl⟩
  | succ count ih =>
    rw [moreQuoted]
    split
    next => exact ⟨[], rfl⟩
    next first after found =>
      obtain ⟨c, passed, same⟩ := nextQuoted_advances _ first after found
      obtain ⟨more, others⟩ := ih after
      exact ⟨c :: (passed ++ more), by simp only [List.cons_append, List.append_assoc, ← others, same]⟩

/-- As many further texts as there are characters are more than enough. -/
theorem moreQuoted_enough {text : List Char} {count other : Nat} (enough : text.length ≤ count)
    (alsoEnough : text.length ≤ other) : moreQuoted count text = moreQuoted other text := by
  have stays : ∀ count, moreQuoted count [] = ([], []) := by
    intro count
    cases count <;> rfl
  induction count generalizing text other with
  | zero =>
    have empty : text = [] := List.length_eq_zero_iff.mp (by omega)
    rw [empty, stays, stays]
  | succ count ih =>
    cases other with
    | zero =>
      have empty : text = [] := List.length_eq_zero_iff.mp (by omega)
      rw [empty, stays, stays]
    | succ other =>
      rw [moreQuoted, moreQuoted]
      split
      next => rfl
      next first after found =>
        obtain ⟨c, passed, same⟩ := nextQuoted_advances _ first after found
        have shorter : text.length = passed.length + after.length + 1 := by simp [same]
        have later : moreQuoted count after = moreQuoted other after := ih (by omega) (by omega)
        rw [later]

/-- What a directive lists: after any blanks, quoted texts between commas. -/
def listed (text : List Char) : Option (List (List Char) × List Char) :=
  (quoted (text.dropWhile Text.isBlank)).map fun (first, rest) =>
    (first :: (moreQuoted rest.length rest).1, (moreQuoted rest.length rest).2)

theorem braceDirective_eq (text : List Char) :
    braceDirective text =
      match Text.afterPrefix? word text with
      | some (gap :: after) => if Text.isBlank gap then listed after else none
      | _ => none := by
  unfold braceDirective listed
  match Text.afterPrefix? word text with
  | none => rfl
  | some [] => rfl
  | some (gap :: after) =>
    simp only
    cases quoted (after.dropWhile Text.isBlank) <;> rfl

theorem listed_advances : Advances listed := by
  intro text specifiers after found
  obtain ⟨⟨first, rest⟩, read, same⟩ := Option.map_eq_some_iff.mp found
  obtain ⟨c, passed, inner⟩ := quoted_advances.after_blanks _ first rest read
  obtain ⟨more, outer⟩ := moreQuoted_suffix rest.length rest
  cases same
  exact ⟨c, passed ++ more, by rw [inner, List.append_assoc, ← outer]⟩

theorem braceDirective_advances : Advances braceDirective := by
  intro text specifiers after found
  rw [braceDirective_eq] at found
  split at found
  next gap rest started =>
    split at found
    next blank =>
      have same := (Text.afterPrefix?_eq_some_iff _ _ _).mp started
      obtain ⟨c, passed, inner⟩ := listed_advances _ specifiers after found
      exact ⟨'@', word.tail ++ gap :: c :: passed, by simp [same, word, inner]⟩
    next => cases found
  next => cases found

theorem braceScan_length (passed rest : List Char) :
    braceScan passed.length (passed ++ rest) = braceScan 0 rest := by
  induction passed with
  | nil => rfl
  | cons c passed ih => exact ih

/-- The search goes on right behind a directive. -/
theorem braceScan_of_directive {text after : List Char} {specifiers : List (List Char)}
    (found : braceDirective text = some (specifiers, after)) :
    braceScan 0 text = specifiers.map trimSpecifier ++ braceScan 0 after := by
  obtain ⟨c, passed, same⟩ := braceDirective_advances _ specifiers after found
  subst same
  rw [braceScan, found]
  have left : (passed ++ after).length - after.length = passed.length := by simp
  simp only [left, braceScan_length]

theorem braceDirective_of_ne {c : Char} (other : c ≠ '@') (rest : List Char) :
    braceDirective (c :: rest) = none := by
  simp [braceDirective, word, Text.afterPrefix?, other]

theorem braceScan_of_none {c : Char} {rest : List Char} (none : braceDirective (c :: rest) = none) :
    braceScan 0 (c :: rest) = braceScan 0 rest := by
  rw [braceScan, none]

/-! Where a directive is over. -/

section Stops

variable {mark : Char} (ends : EndsDirective mark) (back : List Char)

theorem closeQuote_stops {quote : Char} (visible : quote ≠ '\n') (back : List Char) :
    StopsAt ('\n' :: back) (closeQuote quote) := by
  intro text
  induction text with
  | nil => simp [closeQuote, visible.symm]
  | cons c rest ih =>
    simp only [List.cons_append, closeQuote, ih]
    split_ifs <;> simp [Option.map_map, Function.comp_def]

theorem quoted_stops (back : List Char) : StopsAt ('\n' :: back) quoted := by
  intro text
  cases text with
  | nil => rfl
  | cons c rest =>
    by_cases isQuote : c = '"' ∨ c = '\''
    · have visible := newline_ne_quote isQuote
      simpa [quoted, isQuote] using closeQuote_stops visible back rest
    · simp [quoted, isQuote]

include ends

theorem StopsAt.after_blanks {α : Type} {read : List Char → Option (α × List Char)}
    (stops : StopsAt ('\n' :: mark :: back) read) (empty : read [] = none)
    (refused : read (mark :: back) = none) :
    StopsAt ('\n' :: mark :: back) fun text => read (text.dropWhile Text.isBlank) := by
  intro text
  simp only [List.dropWhile_append]
  split
  next blank =>
    have skipped : ('\n' :: mark :: back).dropWhile Text.isBlank = mark :: back := by
      rw [List.dropWhile_cons, if_pos (by decide), List.dropWhile_cons, if_neg (by simp [ends.1])]
    rw [skipped, refused, List.isEmpty_iff.mp blank, empty]
    rfl
  next => exact stops _

theorem quoted_after_blanks_stops :
    StopsAt ('\n' :: mark :: back) fun text => quoted (text.dropWhile Text.isBlank) := by
  apply StopsAt.after_blanks ends back (quoted_stops _) rfl
  simp [quoted, ends.2.2]

theorem nextQuoted_stops : StopsAt ('\n' :: mark :: back) nextQuoted := by
  rw [nextQuoted_eq]
  apply StopsAt.after_blanks ends back
  · intro text
    cases text with
    | nil => rfl
    | cons c rest =>
      by_cases comma : c = ','
      · subst comma
        exact quoted_after_blanks_stops ends back rest
      · simp [commaQuoted, comma]
  · rfl
  · simp [commaQuoted, ends.2.1]

theorem moreQuoted_stops (count : Nat) (text : List Char) :
    moreQuoted count (text ++ '\n' :: mark :: back) =
      ((moreQuoted count text).1, (moreQuoted count text).2 ++ '\n' :: mark :: back) := by
  induction count generalizing text with
  | zero => rfl
  | succ count ih =>
    rw [moreQuoted, moreQuoted, nextQuoted_stops ends back text]
    cases nextQuoted text with
    | none => rfl
    | some found => simp [ih]

theorem listed_stops : StopsAt ('\n' :: mark :: back) listed := by
  intro text
  have read := quoted_after_blanks_stops ends back text
  simp only at read
  unfold listed
  rw [read]
  cases quoted (text.dropWhile Text.isBlank) with
  | none => rfl
  | some found =>
    have enough : moreQuoted (found.2 ++ '\n' :: mark :: back).length found.2 =
        moreQuoted found.2.length found.2 := moreQuoted_enough (by simp) (by simp)
    simp only [Option.map_some, moreQuoted_stops ends back, enough]

theorem braceDirective_stops : StopsAt ('\n' :: mark :: back) braceDirective := by
  intro text
  rw [braceDirective_eq, braceDirective_eq,
    Text.afterPrefix?_append_cons (show '\n' ∉ word by decide) text (mark :: back)]
  match Text.afterPrefix? word text with
  | none => rfl
  | some [] =>
    -- The word ends the text, and behind the line end there is nothing to list.
    have unlisted : listed (mark :: back) = none := by
      simp [listed, ends.1, quoted, ends.2.2]
    simp [unlisted]
  | some (gap :: after) =>
    simp only [Option.map_some, List.cons_append, listed_stops ends back after]
    split <;> rfl

/-- A text is searched in the same way whatever stands behind the end of its directives. -/
theorem braceScan_append (front : List Char) :
    braceScan 0 (front ++ '\n' :: mark :: back) = braceScan 0 front ++ braceScan 0 (mark :: back) := by
  -- The search jumps over a directive, so the induction is on the length of what is left to search.
  induction size : front.length using Nat.strong_induction_on generalizing front with
  | _ n ih =>
    subst size
    cases front with
    | nil => exact braceScan_of_none (braceDirective_of_ne (by decide) _)
    | cons c rest =>
      have stops := braceDirective_stops ends back (c :: rest)
      cases found : braceDirective (c :: rest) with
      | none =>
        rw [found, List.cons_append, Option.map_none] at stops
        rw [List.cons_append, braceScan_of_none stops, braceScan_of_none found]
        exact ih rest.length (by simp) rest rfl
      | some result =>
        obtain ⟨specifiers, after⟩ := result
        rw [found] at stops
        obtain ⟨d, passed, same⟩ := braceDirective_advances _ specifiers after found
        have shorter : after.length < (c :: rest).length := by
          rw [same]
          simp only [List.length_cons, List.length_append]
          omega
        rw [braceScan_of_directive stops, braceScan_of_directive found, ih after.length shorter after rfl,
          List.append_assoc]

end Stops

/-! Directives by indentation lie in one line each. -/

theorem indentDirective_append (text back : List Char) :
    indentDirective (text ++ '\n' :: back) = indentDirective text := by
  unfold indentDirective
  rw [Comment.dropWhile_indent_append, Text.afterPrefix?_append_cons (by decide)]
  match Text.afterPrefix? word (text.dropWhile Comment.isIndent) with
  | none => rfl
  | some [] => rfl
  | some (gap :: after) =>
    have cut : (after ++ '\n' :: back).takeWhile (· ≠ '\n') = after.takeWhile (· ≠ '\n') := by
      rw [List.takeWhile_append]
      split
      next whole =>
        rw [(List.takeWhile_prefix _).eq_of_length whole]
        simp
      next => rfl
    simp only [Option.map_some, List.cons_append, cut]

theorem indentScan_append (lineStart : Bool) (front back : List Char) :
    indentScan lineStart (front ++ '\n' :: back) = indentScan lineStart front ++ indentScan true back := by
  induction front generalizing lineStart with
  | nil =>
    have unread := indentDirective_append [] back
    cases lineStart <;> simp_all [indentScan, indentDirective, Text.afterPrefix?, word]
  | cons c rest ih =>
    have same := indentDirective_append (c :: rest) back
    rw [List.cons_append] at same
    rw [List.cons_append, indentScan, indentScan, same, ih, List.append_assoc]

theorem indentScan_inside {text : List Char} (oneLine : '\n' ∉ text) : indentScan false text = [] := by
  induction text with
  | nil => rfl
  | cons c rest ih =>
    simp only [List.mem_cons, not_or] at oneLine
    simp [indentScan, Ne.symm oneLine.1, ih oneLine.2]

theorem parse_append_of_closed {front : List Char} (closed : Comment.BlocksClosed front)
    (back : List Char) :
    parse .scss (front ++ ['\n', ';', '\n'] ++ back) = parse .scss front ++ parse .scss back := by
  have stripped : Comment.strip (front ++ ['\n', ';', '\n'] ++ back) =
      Comment.strip front ++ '\n' :: ';' :: '\n' :: Comment.strip back := by
    have single : Comment.BlocksClosed [';'] := .of_unopened (by decide)
    have second : Comment.strip (';' :: '\n' :: back) = ';' :: '\n' :: Comment.strip back :=
      single.strip_append back
    rw [List.append_assoc]
    exact (closed.strip_append (';' :: '\n' :: back)).trans (by rw [second])
  have ends : EndsDirective ';' := by decide
  have apart : braceScan 0 (';' :: '\n' :: Comment.strip back) = braceScan 0 (Comment.strip back) := by
    rw [braceScan_of_none (braceDirective_of_ne (by decide) _),
      braceScan_of_none (braceDirective_of_ne (by decide) _)]
  simp only [parse, scan]
  rw [stripped, braceScan_append ends, apart, List.filter_append]

/-- A semicolon on a line of its own divides a text if every block comment before it is closed, and only
then: the text imports what its two sides import, one after the other, whatever directives, quotes and
other comments are left unfinished on either side. -/
theorem parse_append_semicolon_iff (front : List Char) :
    Comment.BlocksClosed front ↔ ∀ back,
      parse .scss (front ++ ['\n', ';', '\n'] ++ back) = parse .scss front ++ parse .scss back := by
  constructor
  · intro closed back
    exact parse_append_of_closed closed back
  · intro divides
    by_contra isOpen
    -- An open comment takes a directive behind the semicolon as it takes nothing there.
    have shown := divides ("@import \"x\"".toList ++ Comment.closer)
    have hidden := divides Comment.closer
    have alike : parse .scss (front ++ ['\n', ';', '\n'] ++ ("@import \"x\"".toList ++ Comment.closer)) =
        parse .scss (front ++ ['\n', ';', '\n'] ++ Comment.closer) := by
      have taken : Comment.strip (front ++ '\n' :: (";\n@import \"x\"".toList ++ Comment.closer)) =
          Comment.strip (front ++ '\n' :: (";\n".toList ++ Comment.closer)) :=
        Comment.strip_of_open isOpen (by decide) (by decide) (by decide)
      rw [List.append_assoc, List.append_assoc]
      exact congrArg (fun text => (scan .scss text).filter _) taken
    have contrary := List.append_cancel_left (shown.symm.trans (alike.trans hidden))
    exact absurd contrary (by decide +kernel)

/-- The left side breaks off inside a quoted text after a comma, and the right side starts with a quote that
would close it. -/
theorem torn_parse_append_semicolon :
    Comment.BlocksClosed "/* ' */@import 'a', \"b".toList ∧
      parse .scss ("/* ' */@import 'a', \"b".toList ++ ['\n', ';', '\n'] ++ "\", 'c'; @import 'd'".toList) =
        ["a".toList, "d".toList] := by
  have closed : Comment.BlocksClosed "/* ' */@import 'a', \"b".toList :=
    .block " ' ".toList _ (by decide) (.of_unopened (by decide))
  refine ⟨closed, ?_⟩
  rw [(parse_append_semicolon_iff _).mp closed]
  decide +kernel

end SheetReach.Import
