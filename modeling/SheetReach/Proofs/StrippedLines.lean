import Mathlib.Data.List.Forall2
import Mathlib.Data.List.TakeWhile
import SheetReach.Proofs.StrippedText

/-! A text without its comments, line by line. Leaving comments out moves no line: every line of what is left
is a line of the text with some of its characters gone, none begins a line comment, and nothing but comments
goes. -/
namespace SheetReach.Comment

def IsCommentLine (line : List Char) : Prop :=
  ∃ indent rest, line = indent ++ '/' :: '/' :: rest ∧ ∀ c ∈ indent, isIndent c = true

theorem isCommentLine_iff (line : List Char) : IsCommentLine line ↔ startsLineComment line = true := by
  rw [startsLineComment_iff]
  constructor
  · intro comment
    obtain ⟨indent, rest, rfl, blank⟩ := comment
    rw [List.dropWhile_append_of_pos blank]
    exact List.prefix_append ['/', '/'] rest
  · intro starts
    obtain ⟨rest, same⟩ := starts
    refine ⟨line.takeWhile isIndent, rest, ?_, fun c member => List.mem_takeWhile_imp member⟩
    exact (List.takeWhile_append_dropWhile.symm).trans (by rw [← same]; rfl)

instance (line : List Char) : Decidable (IsCommentLine line) :=
  decidable_of_iff _ (isCommentLine_iff line).symm

/-! Block comments. -/

theorem lines_keep (c : Char) {text source : List Char}
    (below : List.Forall₂ List.Sublist (Text.lines text) (Text.lines source)) :
    List.Forall₂ List.Sublist (Text.lines (c :: text)) (Text.lines (c :: source)) := by
  by_cases newline : c = '\n'
  · subst newline
    exact .cons (.refl []) below
  · obtain ⟨first, others, cut, kept⟩ := Text.lines_cons newline text
    obtain ⟨whole, rest, sourceCut, sourceKept⟩ := Text.lines_cons newline source
    rw [cut, sourceCut] at below
    rw [kept, sourceKept]
    cases below with
    | cons part later => exact .cons (part.cons_cons c) later

theorem lines_drop {c : Char} (visible : c ≠ '\n') {text source : List Char}
    (below : List.Forall₂ List.Sublist (Text.lines text) (Text.lines source)) :
    List.Forall₂ List.Sublist (Text.lines text) (Text.lines (c :: source)) := by
  obtain ⟨whole, rest, sourceCut, sourceKept⟩ := Text.lines_cons visible source
  rw [sourceCut] at below
  rw [sourceKept]
  obtain ⟨part, others, thinner, later, cut⟩ := List.forall₂_cons_right_iff.mp below
  rw [cut]
  exact .cons (thinner.cons c) later

theorem slash_of_opening {c : Char} {rest : List Char} {left : Nat}
    (opened : opening (c :: rest) = some left) : c = '/' := by
  by_contra other
  have unopened : ¬ opener <+: c :: rest := by simp [Ne.symm other]
  rw [opening_eq_none unopened] at opened
  cases opened

/-- A block comment gives up characters of its lines, but none of the newlines between them. -/
theorem lines_stripBlocksFrom (left : Nat) (text : List Char) :
    List.Forall₂ List.Sublist (Text.lines (stripBlocksFrom left text)) (Text.lines text) := by
  fun_induction stripBlocksFrom left text with
  | case1 => exact .cons (.refl []) .nil
  | case2 left rest ih => exact lines_keep '\n' ih
  | case3 left c rest visible ih => exact lines_drop visible ih
  | case4 c rest left opened ih =>
    have visible : c ≠ '\n' := by
      rw [slash_of_opening opened]
      decide
    exact lines_drop visible ih
  | case5 c rest unopened ih => exact lines_keep c ih

/-! Line comments. -/

def stripLine (line : List Char) : List Char :=
  if startsLineComment line then [] else line

theorem stripLine_sublist (line : List Char) : (stripLine line).Sublist line := by
  unfold stripLine
  split
  next => exact List.nil_sublist line
  next => exact .refl line

theorem not_isCommentLine_stripLine (line : List Char) : ¬ IsCommentLine (stripLine line) := by
  rw [isCommentLine_iff]
  unfold stripLine
  split
  next => decide
  next plain => exact plain

theorem stripLine_of_not_isCommentLine {line : List Char} (plain : ¬ IsCommentLine line) :
    stripLine line = line := by
  rw [isCommentLine_iff] at plain
  exact if_neg plain

theorem stripLines_cons_line {line : List Char} (oneLine : '\n' ∉ line) (rest : List Char) :
    stripLines (line ++ '\n' :: rest) = stripLine line ++ '\n' :: stripLines rest := by
  rw [stripLine, ← stripLines_line oneLine]
  exact stripLinesFrom_append .start line rest

theorem lines_stripLines (text : List Char) :
    Text.lines (stripLines text) = (Text.lines text).map stripLine := by
  have single {line : List Char} (oneLine : '\n' ∉ line) : '\n' ∉ stripLine line := fun newline =>
    oneLine ((stripLine_sublist line).subset newline)
  induction text using Text.lines_induction with
  | last line oneLine =>
    rw [stripLines_line oneLine, ← stripLine, Text.lines_single oneLine, Text.lines_single (single oneLine),
      List.map_singleton]
  | more line rest oneLine ih =>
    rw [stripLines_cons_line oneLine, Text.lines_append (single oneLine), ih, Text.lines_append oneLine,
      List.map_cons]

theorem stripLines_eq_self {text : List Char} (plain : ∀ line ∈ Text.lines text, ¬ IsCommentLine line) :
    stripLines text = text := by
  induction text using Text.lines_induction with
  | last line oneLine =>
    rw [Text.lines_single oneLine] at plain
    rw [stripLines_line oneLine, ← stripLine]
    exact stripLine_of_not_isCommentLine (plain line List.mem_cons_self)
  | more line rest oneLine ih =>
    rw [Text.lines_append oneLine] at plain
    rw [stripLines_cons_line oneLine, stripLine_of_not_isCommentLine (plain line List.mem_cons_self),
      ih fun other member => plain other (List.mem_cons_of_mem line member)]

/-! Both kinds. -/

theorem lines_strip (source : List Char) :
    List.Forall₂ List.Sublist (Text.lines (strip source)) (Text.lines source) := by
  rw [strip, lines_stripLines, List.forall₂_map_left_iff]
  exact (lines_stripBlocksFrom 0 source).imp fun line _ part => (stripLine_sublist line).trans part

theorem count_newline_strip (source : List Char) : (strip source).count '\n' = source.count '\n' := by
  have lengths := (lines_strip source).length_eq
  rw [Text.length_lines, Text.length_lines] at lengths
  omega

theorem not_isCommentLine_of_mem_lines {source line : List Char}
    (member : line ∈ Text.lines (strip source)) : ¬ IsCommentLine line := by
  rw [strip, lines_stripLines] at member
  obtain ⟨whole, -, rfl⟩ := List.mem_map.mp member
  exact not_isCommentLine_stripLine whole

theorem stripLines_newlines (count : Nat) (rest : List Char) :
    stripLines (List.replicate count '\n' ++ rest) = List.replicate count '\n' ++ stripLines rest := by
  induction count with
  | zero => rfl
  | succ count ih =>
    rw [List.replicate_succ, List.cons_append, List.cons_append, ← ih]
    exact stripLines_cons_line List.not_mem_nil _

/-- A block comment on lines of its own leaves as many newlines as it has. -/
theorem strip_block_lines {front body : List Char} (closed : BlocksClosed front)
    (inside : ¬ closer <:+: body) (back : List Char) :
    strip (front ++ '\n' :: (opener ++ (body ++ (closer ++ '\n' :: back)))) =
      strip front ++ '\n' :: (List.replicate (body.count '\n') '\n' ++ '\n' :: strip back) := by
  have newlines : body.filter (· = '\n') = List.replicate (body.count '\n') '\n' := List.filter_eq _
  have below : stripBlocks ('\n' :: back) = '\n' :: stripBlocks back := stripBlocks_char (by simp)
  have empty : stripLines ('\n' :: stripBlocks back) = '\n' :: strip back :=
    stripLines_cons_line List.not_mem_nil _
  rw [closed.strip_append]
  unfold strip
  rw [stripBlocks_block inside, below, newlines, stripLines_newlines, empty]
  rfl

/-- Leaving comments out keeps every newline, takes from each line only characters of it and leaves no line
comment. A text with neither an opening mark nor a comment line stays as it is, and a block comment between
two texts goes by itself, whatever marks and line comments it holds. -/
theorem strip_keeps_lines (source : List Char) :
    ((strip source).count '\n' = source.count '\n' ∧
      List.Forall₂ List.Sublist (Text.lines (strip source)) (Text.lines source) ∧
      ∀ line ∈ Text.lines (strip source), ¬ IsCommentLine line) ∧
    (¬ opener <:+: source → (∀ line ∈ Text.lines source, ¬ IsCommentLine line) → strip source = source) ∧
    ∀ front body back, BlocksClosed front → ¬ closer <:+: body →
      strip (front ++ '\n' :: (opener ++ (body ++ (closer ++ '\n' :: back)))) =
        strip front ++ '\n' :: (List.replicate (body.count '\n') '\n' ++ '\n' :: strip back) := by
  refine ⟨⟨count_newline_strip source, lines_strip source, ?_⟩, ?_, ?_⟩
  · intro line member
    exact not_isCommentLine_of_mem_lines member
  · intro unopened plain
    rw [strip, stripBlocks_of_unopened unopened]
    exact stripLines_eq_self plain
  · intro front body back closed inside
    exact strip_block_lines closed inside back

/-- Slashes and stars that are no marks stay. A comment between two texts opens another one, holds a line
comment and ends with a doubled star; before it stands a comment whose marks overlap, after it an open one. -/
theorem entangled_strip_keeps_lines :
    (¬ opener <:+: "a / *b; //c\n@import 'x//y';\n / /".toList ∧
      (∀ line ∈ Text.lines "a / *b; //c\n@import 'x//y';\n / /".toList, ¬ IsCommentLine line) ∧
      strip "a / *b; //c\n@import 'x//y';\n / /".toList = "a / *b; //c\n@import 'x//y';\n / /".toList) ∧
    BlocksClosed "x/*/\n*/y".toList ∧ ¬ closer <:+: "/*\n//\n*".toList ∧
      strip ("x/*/\n*/y".toList ++ '\n' :: (opener ++ ("/*\n//\n*".toList ++ (closer ++
        '\n' :: "\t//z\n/*w".toList)))) = "x\ny\n\n\n\n\n/*w".toList := by
  have closed : BlocksClosed "x/*/\n*/y".toList :=
    .char 'x' _ (by decide) (.block "/\n".toList _ (by decide) (.of_unopened (by decide)))
  have facts := strip_keeps_lines "a / *b; //c\n@import 'x//y';\n / /".toList
  refine ⟨⟨by decide, by decide, facts.2.1 (by decide) (by decide)⟩, closed, by decide, ?_⟩
  rw [facts.2.2 _ _ _ closed (by decide)]
  decide

end SheetReach.Comment
