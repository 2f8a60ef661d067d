import Mathlib.Data.Option.Defs
import SheetReach.Proofs.DirectiveScan

/-! Line ends of two kinds. A carriage return right before a newline is a blank at the end of its line, so a
text imports the same with it and without it. Comments, directives and trimming are followed through the two
texts side by side: what is left of one is what is left of the other, but for carriage returns again. -/
namespace SheetReach

namespace Text

/-- The second text is the first with carriage returns put in, each of them right before a newline. -/
inductive Returned : List Char → List Char → Prop where
  | nil : Returned [] []
  | same (c : Char) {source text : List Char} (below : Returned source text) :
      Returned (c :: source) (c :: text)
  | added {source text : List Char} (below : Returned source text) :
      Returned ('\n' :: source) ('\r' :: '\n' :: text)

theorem Returned.refl (text : List Char) : Returned text text := by
  induction text with
  | nil => exact .nil
  | cons c rest ih => exact .same c ih

theorem Returned.append {front returnedFront back returnedBack : List Char}
    (before : Returned front returnedFront) (behind : Returned back returnedBack) :
    Returned (front ++ back) (returnedFront ++ returnedBack) := by
  induction before with
  | nil => exact behind
  | same c below ih => exact .same c ih
  | added below ih => exact .added ih

/-- A part without newlines stays in front of what follows it. -/
theorem Returned.after_part {part rest text : List Char} (oneLine : '\n' ∉ part)
    (returned : Returned (part ++ rest) text) : ∃ after, text = part ++ after ∧ Returned rest after := by
  induction part generalizing text with
  | nil => exact ⟨text, rfl, returned⟩
  | cons c part ih =>
    simp only [List.mem_cons, not_or] at oneLine
    cases returned with
    | same _ below =>
      obtain ⟨after, rfl, behind⟩ := ih oneLine.2 below
      exact ⟨after, rfl, behind⟩
    | added below => exact absurd rfl oneLine.1

theorem Returned.split {front back text : List Char} (returned : Returned (front ++ back) text) :
    ∃ before behind, text = before ++ behind ∧ Returned front before ∧ Returned back behind := by
  induction front generalizing text with
  | nil => exact ⟨[], text, rfl, .nil, returned⟩
  | cons c front ih =>
    cases returned with
    | same _ below =>
      obtain ⟨before, behind, rfl, first, second⟩ := ih below
      exact ⟨c :: before, behind, rfl, .same c first, second⟩
    | added below =>
      obtain ⟨before, behind, rfl, first, second⟩ := ih below
      exact ⟨'\r' :: '\n' :: before, behind, rfl, .added first, second⟩

theorem Returned.newlines {source text : List Char} (returned : Returned source text) :
    text.filter (· = '\n') = source.filter (· = '\n') := by
  induction returned with
  | nil => rfl
  | same c below ih => rw [List.filter_cons, List.filter_cons, ih]
  | added below ih => simpa using ih

theorem Returned.length_le {source text : List Char} (returned : Returned source text) :
    source.length ≤ text.length := by
  induction returned with
  | nil => exact le_rfl
  | same c below ih =>
    rw [List.length_cons, List.length_cons]
    omega
  | added below ih =>
    rw [List.length_cons, List.length_cons, List.length_cons]
    omega

section Parts

variable {part : List Char} (unended : '\n' ∉ part) (unreturned : '\r' ∉ part)

include unended unreturned

theorem Returned.prefix_iff {source text : List Char} (returned : Returned source text) :
    part <+: text ↔ part <+: source := by
  induction part generalizing source text with
  | nil => simp
  | cons c part ih =>
    simp only [List.mem_cons, not_or] at unended unreturned
    cases returned with
    | nil => rfl
    | same d below => rw [List.cons_prefix_cons, List.cons_prefix_cons, ih unended.2 unreturned.2 below]
    | added below => simp [Ne.symm unended.1, Ne.symm unreturned.1]

theorem Returned.infix_iff {source text : List Char} (returned : Returned source text) :
    part <:+: text ↔ part <:+: source := by
  induction returned with
  | nil => rfl
  | same c below ih =>
    rw [List.infix_cons_iff, List.infix_cons_iff, ih,
      (Returned.same c below).prefix_iff unended unreturned]
  | added below ih =>
    have apart : ∀ c ∈ ['\r', '\n'], c ∉ part := by simp [unended, unreturned]
    have alsoApart : ∀ c ∈ ['\n'], c ∉ part := by simp [unended]
    exact (infix_append_iff_of_apart apart _).trans (ih.trans (infix_append_iff_of_apart alsoApart _).symm)

/-- A beginning without line ends is there in both texts or in none. -/
theorem Returned.afterPrefix? {source text : List Char} (returned : Returned source text) :
    Option.Rel Returned (afterPrefix? part source) (afterPrefix? part text) := by
  induction part generalizing source text with
  | nil => exact .some returned
  | cons c part ih =>
    simp only [List.mem_cons, not_or] at unended unreturned
    cases returned with
    | nil => exact .none
    | same d below =>
      simp only [Text.afterPrefix?]
      split
      next => exact ih unended.2 unreturned.2 below
      next => exact .none
    | added below =>
      simp only [Text.afterPrefix?, unended.1, unreturned.1, ↓reduceIte]
      exact .none

end Parts

/-- Leading characters are skipped alike if both line ends are skipped or neither is. -/
theorem Returned.dropWhile {drop : Char → Bool} (alike : drop '\r' = drop '\n') {source text : List Char}
    (returned : Returned source text) : Returned (source.dropWhile drop) (text.dropWhile drop) := by
  induction returned with
  | nil => exact .nil
  | same c below ih =>
    rw [List.dropWhile_cons, List.dropWhile_cons]
    split
    next => exact ih
    next => exact .same c below
  | added below ih =>
    rw [List.dropWhile_cons, List.dropWhile_cons, List.dropWhile_cons, alike]
    split
    next => exact ih
    next => exact .added below

/-- Up to the line end the texts agree, but for a carriage return at the end. -/
theorem Returned.takeWhile_line {source text : List Char} (returned : Returned source text) :
    text.takeWhile (· ≠ '\n') = source.takeWhile (· ≠ '\n') ∨
      text.takeWhile (· ≠ '\n') = source.takeWhile (· ≠ '\n') ++ ['\r'] := by
  induction returned with
  | nil => exact Or.inl rfl
  | same c below ih =>
    rw [List.takeWhile_cons, List.takeWhile_cons]
    split
    next =>
      rcases ih with same | longer
      · exact Or.inl (by rw [same])
      · exact Or.inr (by rw [longer, List.cons_append])
    next => exact Or.inl rfl
  | added below ih => exact Or.inr (by simp)

end Text

namespace Comment

open Text (Returned)

/-! What is left without comments. -/

theorem closing_eq_none {text : List Char} (unclosed : ¬ closer <:+: text) : closing text = none := by
  fun_induction closing text with
  | case1 => rfl
  | case2 => rfl
  | case3 first second rest closes =>
    simp only [Bool.and_eq_true, decide_eq_true_eq] at closes
    obtain ⟨rfl, rfl⟩ := closes
    exact absurd (List.prefix_append closer rest).isInfix unclosed
  | case4 first second rest other ih => rw [ih fun found => unclosed (List.infix_cons found), Option.map_none]

theorem stripBlocks_of_unclosed {text : List Char} (unclosed : ¬ closer <:+: text) :
    stripBlocks text = text := by
  induction text with
  | nil => rfl
  | cons c rest ih =>
    have later : ¬ closer <:+: rest := fun found => unclosed (List.infix_cons found)
    have unopened : opening (c :: rest) = none := by
      unfold opening
      split
      next inner same =>
        rw [closing_eq_none, Option.map_none]
        intro found
        exact unclosed (same ▸ found.trans (List.suffix_append opener inner).isInfix)
      next => rfl
    rw [stripBlocks, stripBlocksFrom, unopened]
    exact congrArg _ (ih later)

/-- A block comment that is opened last and never closed stays. -/
theorem stripBlocks_opener {body : List Char} (unclosed : ¬ closer <:+: body) :
    stripBlocks (opener ++ body) = opener ++ body := by
  have unopened : ¬ opener <+: '*' :: body := by simp
  have isOpen : opening (opener ++ body) = none := by
    rw [List.cons_append, List.cons_append, List.nil_append, opening, closing_eq_none unclosed,
      Option.map_none]
  have second : stripBlocks ('*' :: body) = '*' :: body := by
    rw [stripBlocks_char unopened, stripBlocks_of_unclosed unclosed]
  rw [stripBlocks, List.cons_append, stripBlocksFrom, ← List.cons_append, isOpen]
  exact congrArg ('/' :: ·) second

theorem BlocksClosed.returned {source text : List Char} (closed : BlocksClosed source)
    (returned : Returned source text) :
    BlocksClosed text ∧ Returned (stripBlocks source) (stripBlocks text) := by
  induction closed generalizing text with
  | nil =>
    cases returned
    exact ⟨.nil, .nil⟩
  | char c rest unopened others ih =>
    have kept := returned.prefix_iff (show '\n' ∉ opener by decide) (show '\r' ∉ opener by decide)
    cases returned with
    | same _ below =>
      have stillUnopened := kept.not.mpr unopened
      obtain ⟨below, left⟩ := ih below
      refine ⟨.char c _ stillUnopened below, ?_⟩
      rw [stripBlocks_char unopened, stripBlocks_char stillUnopened]
      exact .same c left
    | added below =>
      obtain ⟨below, left⟩ := ih below
      refine ⟨.char '\r' _ (by simp) (.char '\n' _ (by simp) below), ?_⟩
      rw [stripBlocks_char unopened, stripBlocks_char (by simp), stripBlocks_char (by simp)]
      exact .added left
  | block body rest inside others ih =>
    obtain ⟨commented, rfl, opened⟩ := returned.after_part (show '\n' ∉ opener by decide)
    obtain ⟨comment, ended, rfl, commentReturned, endReturned⟩ := opened.split
    obtain ⟨after, rfl, below⟩ := endReturned.after_part (show '\n' ∉ closer by decide)
    have stillInside := (commentReturned.infix_iff (show '\n' ∉ closer by decide)
      (show '\r' ∉ closer by decide)).not.mpr inside
    obtain ⟨below, left⟩ := ih below
    refine ⟨.block comment after stillInside below, ?_⟩
    rw [stripBlocks_block inside, stripBlocks_block stillInside, commentReturned.newlines]
    exact (Returned.refl _).append left

theorem stripBlocks_returned {source text : List Char} (returned : Returned source text) :
    Returned (stripBlocks source) (stripBlocks text) := by
  rcases blocksClosed_or_open source with closed | isOpen
  · exact (closed.returned returned).2
  · obtain ⟨front, body, rfl, closed, unclosed⟩ := isOpen
    obtain ⟨before, behind, rfl, frontReturned, behindReturned⟩ := returned.split
    obtain ⟨after, rfl, bodyReturned⟩ := behindReturned.after_part (show '\n' ∉ opener by decide)
    have stillUnclosed := (bodyReturned.infix_iff (show '\n' ∉ closer by decide)
      (show '\r' ∉ closer by decide)).not.mpr unclosed
    obtain ⟨stillClosed, left⟩ := closed.returned frontReturned
    rw [closed.stripBlocks_append (by simp), stillClosed.stripBlocks_append (by simp),
      stripBlocks_opener unclosed, stripBlocks_opener stillUnclosed]
    exact left.append behindReturned

theorem startsLineComment_returned {source text : List Char} (returned : Returned source text) :
    startsLineComment text = startsLineComment source := by
  have indented := returned.dropWhile (show isIndent '\r' = isIndent '\n' by decide)
  rw [Bool.eq_iff_iff, startsLineComment_iff, startsLineComment_iff]
  exact indented.prefix_iff (by decide) (by decide)

/-- A carriage return goes with the comment of its line or stays before its newline. -/
theorem stripLinesFrom_returned (place : LinePlace) {source text : List Char}
    (returned : Returned source text) :
    Returned (stripLinesFrom place source) (stripLinesFrom place text) := by
  induction returned generalizing place with
  | nil => exact .nil
  | same c below ih =>
    have lead := startsLineComment_returned (.same c below)
    simp only [stripLinesFrom]
    split
    next => exact .same c (ih .start)
    next =>
      cases place with
      | comment => exact ih .comment
      | inside => exact .same c (ih .inside)
      | start =>
        simp only [lead]
        split
        next => exact ih .comment
        next => exact .same c (ih .inside)
  | @added source text below ih =>
    have plain : startsLineComment ('\r' :: '\n' :: text) = false := by
      simp [startsLineComment, isIndent]
    cases place with
    | comment => exact .same '\n' (ih .start)
    | inside => exact .added (ih .start)
    | start =>
      rw [stripLinesFrom, stripLinesFrom, stripLinesFrom]
      simp only [plain, ↓reduceIte]
      exact .added (ih .start)

theorem strip_returned {source text : List Char} (returned : Returned source text) :
    Returned (strip source) (strip text) :=
  stripLinesFrom_returned .start (stripBlocks_returned returned)

end Comment

namespace Import

open Text (Returned)

/-! Directives with braces. -/

/-- Both readings fail, or they find the same and leave the same but for carriage returns. -/
abbrev Alike {α : Type} : Option (α × List Char) → Option (α × List Char) → Prop :=
  Option.Rel fun found other => found.1 = other.1 ∧ Returned found.2 other.2

theorem rel_cases {α β : Type} {r : α → β → Prop} {first : Option α} {second : Option β}
    (rel : Option.Rel r first second) :
    (first = none ∧ second = none) ∨ ∃ a b, first = some a ∧ second = some b ∧ r a b := by
  cases rel with
  | none => exact Or.inl ⟨rfl, rfl⟩
  | some related => exact Or.inr ⟨_, _, rfl, rfl, related⟩

/-- A reader does not mind carriage returns before newlines. -/
def ReadsAlike {α : Type} (read : List Char → Option (α × List Char)) : Prop :=
  ∀ source text, Returned source text → Alike (read source) (read text)

theorem closeQuote_readsAlike {quote : Char} (visible : quote ≠ '\n') (unreturned : quote ≠ '\r') :
    ReadsAlike (closeQuote quote) := by
  intro source text returned
  induction returned with
  | nil => exact .none
  | @same c source text below ih =>
    simp only [closeQuote]
    split
    next => exact .some ⟨rfl, below⟩
    next =>
      split
      next => exact .none
      next =>
        rcases rel_cases ih with ⟨found, other⟩ | ⟨result, otherResult, found, other, same, rest⟩
        · rw [found, other]
          exact .none
        · rw [found, other]
          exact .some ⟨congrArg (c :: ·) same, rest⟩
  | added below ih =>
    simp only [closeQuote, visible.symm, unreturned.symm, ↓reduceIte]
    exact .none

theorem quoted_readsAlike : ReadsAlike quoted := by
  intro source text returned
  cases returned with
  | nil => exact .none
  | same c below =>
    simp only [quoted]
    split
    next isQuote =>
      have facts : c ≠ '\n' ∧ c ≠ '\r' := by
        simp only [Bool.or_eq_true, decide_eq_true_eq] at isQuote
        rcases isQuote with rfl | rfl <;> decide
      exact closeQuote_readsAlike facts.1 facts.2 _ _ below
    next => exact .none
  | added below => exact .none

theorem ReadsAlike.after_blanks {α : Type} {read : List Char → Option (α × List Char)}
    (alike : ReadsAlike read) : ReadsAlike fun text => read (text.dropWhile Text.isBlank) := by
  intro source text returned
  exact alike _ _ (returned.dropWhile (by decide))

theorem nextQuoted_readsAlike : ReadsAlike nextQuoted := by
  rw [nextQuoted_eq]
  apply ReadsAlike.after_blanks
  intro source text returned
  cases returned with
  | nil => exact .none
  | same c below =>
    by_cases comma : c = ','
    · subst comma
      exact quoted_readsAlike.after_blanks _ _ below
    · have unread (rest : List Char) : commaQuoted (c :: rest) = none := by simp [commaQuoted, comma]
      rw [unread, unread]
      exact .none
  | added below => exact .none

theorem moreQuoted_returned (count : Nat) {source text : List Char} (returned : Returned source text) :
    (moreQuoted count source).1 = (moreQuoted count text).1 ∧
      Returned (moreQuoted count source).2 (moreQuoted count text).2 := by
  induction count generalizing source text with
  | zero => exact ⟨rfl, returned⟩
  | succ count ih =>
    rw [moreQuoted, moreQuoted]
    rcases rel_cases (nextQuoted_readsAlike _ _ returned) with
      ⟨found, other⟩ | ⟨result, otherResult, found, other, same, rest⟩
    · rw [found, other]
      exact ⟨rfl, returned⟩
    · obtain ⟨others, further⟩ := ih rest
      rw [found, other]
      exact ⟨by simp only [same, others], further⟩

theorem listed_readsAlike : ReadsAlike listed := by
  intro source text returned
  have first : Alike (quoted (source.dropWhile Text.isBlank)) (quoted (text.dropWhile Text.isBlank)) :=
    quoted_readsAlike.after_blanks _ _ returned
  unfold listed
  rcases rel_cases first with ⟨found, other⟩ | ⟨result, otherResult, found, other, same, rest⟩
  · rw [found, other]
    exact .none
  · -- The longer text allows for more quoted texts, but the count of the shorter one is enough.
    have enough : moreQuoted result.2.length result.2 = moreQuoted otherResult.2.length result.2 :=
      moreQuoted_enough le_rfl rest.length_le
    obtain ⟨others, further⟩ := moreQuoted_returned otherResult.2.length rest
    rw [found, other]
    refine .some ⟨?_, ?_⟩
    · simp only [same, enough, others]
    · simpa only [enough] using further

theorem braceDirective_readsAlike : ReadsAlike braceDirective := by
  intro source text returned
  have started := returned.afterPrefix? (show '\n' ∉ word by decide) (show '\r' ∉ word by decide)
  rw [braceDirective_eq, braceDirective_eq]
  rcases rel_cases started with ⟨found, other⟩ | ⟨behind, otherBehind, found, other, rest⟩
  · rw [found, other]
    exact .none
  · rw [found, other]
    cases rest with
    | nil => exact .none
    | same gap below =>
      simp only
      split
      next => exact listed_readsAlike _ _ below
      next => exact .none
    | @added after returnedAfter below =>
      have blank : Text.isBlank '\n' = true ∧ Text.isBlank '\r' = true := by decide
      have skipped : listed ('\n' :: returnedAfter) = listed returnedAfter := by
        rw [listed, List.dropWhile_cons, if_pos blank.1, listed]
      simp only [blank, ↓reduceIte, skipped]
      exact listed_readsAlike _ _ below

theorem braceScan_returned {source text : List Char} (returned : Returned source text) :
    braceScan 0 text = braceScan 0 source := by
  -- The search jumps over a directive, so the induction is on the length of what is left to search.
  induction size : source.length using Nat.strong_induction_on generalizing source text with
  | _ n ih =>
    subst size
    have read := rel_cases (braceDirective_readsAlike _ _ returned)
    cases returned with
    | nil => rfl
    | @same c rest returnedRest below =>
      rcases read with ⟨found, other⟩ | ⟨result, otherResult, found, other, same, after⟩
      · rw [braceScan_of_none found, braceScan_of_none other]
        exact ih rest.length (by simp) below rfl
      · obtain ⟨d, passed, whole⟩ := braceDirective_advances _ result.1 result.2 found
        have shorter : result.2.length < (c :: rest).length := by
          rw [whole, List.length_cons, List.length_append]
          omega
        rw [braceScan_of_directive found, braceScan_of_directive other, same,
          ih result.2.length shorter after rfl]
    | @added rest returnedRest below =>
      rw [braceScan_of_none (braceDirective_of_ne (by decide) _),
        braceScan_of_none (braceDirective_of_ne (by decide) _),
        braceScan_of_none (braceDirective_of_ne (by decide) _)]
      exact ih rest.length (by simp) below rfl

/-! Directives by indentation. -/

theorem trimSpecifier_line {source text : List Char} (returned : Returned source text) :
    trimSpecifier (text.takeWhile (· ≠ '\n')) = trimSpecifier (source.takeWhile (· ≠ '\n')) := by
  rcases returned.takeWhile_line with same | longer
  · rw [same]
  · rw [longer]
    exact Text.trimBy_append_of_dropped _ (by simp [isTrimmed])

theorem indentDirective_returned {source text : List Char} (returned : Returned source text) :
    indentDirective text = indentDirective source := by
  have indented := returned.dropWhile (show Comment.isIndent '\r' = Comment.isIndent '\n' by decide)
  have started := indented.afterPrefix? (show '\n' ∉ word by decide) (show '\r' ∉ word by decide)
  unfold indentDirective
  rcases rel_cases started with ⟨found, other⟩ | ⟨behind, otherBehind, found, other, rest⟩
  · rw [found, other]
  · rw [found, other]
    cases rest with
    | nil => rfl
    | same gap below => simp only [trimSpecifier_line below]
    | added below => rfl

theorem indentScan_returned (lineStart : Bool) {source text : List Char} (returned : Returned source text) :
    indentScan lineStart text = indentScan lineStart source := by
  induction returned generalizing lineStart with
  | nil => rfl
  | same c below ih =>
    rw [indentScan, indentScan, indentDirective_returned (.same c below), ih]
  | added below ih =>
    rw [indentScan, indentScan, indentScan, indentDirective_returned (.added below)]
    simp [ih]

/-- A text with carriage returns before any of its newlines imports what it imports without them. -/
theorem parse_of_returned (dialect : Dialect) {source text : List Char} (returned : Returned source text) :
    parse dialect text = parse dialect source := by
  have stripped := Comment.strip_returned returned
  unfold parse
  cases dialect with
  | scss => simp only [scan, braceScan_returned stripped]
  | sass => simp only [scan, indentScan_returned true stripped]

/-- Carriage returns at some of the line ends only: in a comment, in a list of quoted texts, in and behind a
line comment, and on a line that has nothing but the word. -/
theorem mixed_parse_of_returned :
    (Text.Returned "/*\n*/@import 'a',\n \"b\"\n// 'c'\n, 'd';\n".toList
        "/*\r\n*/@import 'a',\r\n \"b\"\n// 'c'\r\n, 'd';\r\n".toList ∧
      parse .scss "/*\r\n*/@import 'a',\r\n \"b\"\n// 'c'\r\n, 'd';\r\n".toList =
        ["a".toList, "b".toList, "d".toList]) ∧
    Text.Returned "@import \n@import a b \n\t@import 'c'\n".toList
        "@import \r\n@import a b \n\t@import 'c'\r\n".toList ∧
      parse .sass "@import \r\n@import a b \n\t@import 'c'\r\n".toList = ["a b".toList, "c".toList] := by
  have braces : Text.Returned "/*\n*/@import 'a',\n \"b\"\n// 'c'\n, 'd';\n".toList
      "/*\r\n*/@import 'a',\r\n \"b\"\n// 'c'\r\n, 'd';\r\n".toList :=
    (Returned.refl "/*".toList).append (.added ((Returned.refl "*/@import 'a',".toList).append
      (.added ((Returned.refl " \"b\"\n// 'c'".toList).append
        (.added ((Returned.refl ", 'd';".toList).append (.added .nil)))))))
  have lines : Text.Returned "@import \n@import a b \n\t@import 'c'\n".toList
      "@import \r\n@import a b \n\t@import 'c'\r\n".toList :=
    (Returned.refl "@import ".toList).append
      (.added ((Returned.refl "@import a b \n\t@import 'c'".toList).append (.added .nil)))
  refine ⟨⟨braces, ?_⟩, lines, ?_⟩
  · rw [parse_of_returned .scss braces]
    decide +kernel
  · rw [parse_of_returned .sass lines]
    decide +kernel

end Import

end SheetReach
