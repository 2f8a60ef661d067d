import SheetReach.Proofs.DirectiveScan

/-! Lines that hold only a line comment, and when they mean no more than empty lines. Block comments are left
out first, so a mark that opens one counts inside a line comment too. Whatever stands around it, a comment
line means nothing exactly if it closes the block comments it opens and, where directives may go over
several lines, still begins with two slashes after they are left out. -/
namespace SheetReach

namespace Comment

theorem stripBlocksFrom_sublist (left : Nat) (text : List Char) :
    (stripBlocksFrom left text).Sublist text := by
  fun_induction stripBlocksFrom left text with
  | case1 => exact .refl []
  | case2 left rest ih => exact ih.cons_cons '\n'
  | case3 left c rest other ih => exact ih.cons c
  | case4 c rest left opened ih => exact ih.cons c
  | case5 c rest unopened ih => exact ih.cons_cons c

/-- A line comment as a line of its own, without its line end. -/
abbrev line (comment : List Char) : List Char := '/' :: '/' :: comment

theorem stripBlocks_line (comment : List Char) :
    ∃ rest, stripBlocks (line comment) = '/' :: rest := by
  exact ⟨_, stripBlocks_char (by simp)⟩

theorem newline_not_mem_stripBlocks {comment : List Char} (oneLine : '\n' ∉ comment) :
    '\n' ∉ stripBlocks (line comment) := by
  intro newline
  have inside := (stripBlocksFrom_sublist 0 (line comment)).subset newline
  simp [oneLine] at inside

/-- A comment line goes as a whole, unless a block comment takes its second slash. -/
theorem strip_line {comment : List Char} (oneLine : '\n' ∉ comment) :
    strip (line comment) =
      if ['/', '/'] <+: stripBlocks (line comment) then [] else stripBlocks (line comment) := by
  obtain ⟨rest, left⟩ := stripBlocks_line comment
  have starts := startsLineComment_iff (stripBlocks (line comment))
  rw [strip, stripLines_line (newline_not_mem_stripBlocks oneLine)]
  simp only [starts]
  simp [left, isIndent]

end Comment

namespace Import

open Comment (BlocksClosed line)

def commented (front comment back : List Char) : List Char :=
  front ++ '\n' :: (line comment ++ '\n' :: back)

/-- An empty line between two texts. -/
def spaced (front back : List Char) : List Char :=
  front ++ '\n' :: '\n' :: back

/-- A comment line means no more than an empty line, whatever stands before it with its block comments
closed, and whatever follows. -/
def Inert (dialect : Dialect) (comment : List Char) : Prop :=
  ∀ front back, BlocksClosed front →
    parse dialect (commented front comment back) = parse dialect (spaced front back)

theorem strip_commented {front comment : List Char} (closed : BlocksClosed front)
    (lineClosed : BlocksClosed (line comment)) (back : List Char) :
    Comment.strip (commented front comment back) =
      Comment.strip front ++ '\n' :: (Comment.strip (line comment) ++ '\n' :: Comment.strip back) := by
  rw [commented, closed.strip_append, lineClosed.strip_append]

theorem strip_spaced {front : List Char} (closed : BlocksClosed front) (back : List Char) :
    Comment.strip (spaced front back) = Comment.strip front ++ '\n' :: '\n' :: Comment.strip back := by
  rw [spaced, closed.strip_append]
  exact congrArg _ (congrArg _ (BlocksClosed.nil.strip_append back))

/-- A line that begins with a slash holds no directive by indentation. -/
theorem indentScan_line {comment : List Char} (oneLine : '\n' ∉ comment) :
    indentScan true (Comment.strip (line comment)) = [] := by
  rw [Comment.strip_line oneLine]
  split
  next => rfl
  next =>
    have whole := Comment.newline_not_mem_stripBlocks oneLine
    obtain ⟨rest, left⟩ := Comment.stripBlocks_line comment
    rw [left] at whole ⊢
    simp only [List.mem_cons, not_or] at whole
    have unread : indentDirective ('/' :: rest) = none := by
      simp [indentDirective, Comment.isIndent, Text.afterPrefix?, word]
    simp [indentScan, unread, indentScan_inside whole.2]

theorem inert_of_closed {dialect : Dialect} {comment : List Char} (oneLine : '\n' ∉ comment)
    (closed : BlocksClosed (line comment))
    (starts : dialect = .scss → ['/', '/'] <+: Comment.stripBlocks (line comment)) :
    Inert dialect comment := by
  intro front back frontClosed
  unfold parse
  rw [strip_commented frontClosed closed, strip_spaced frontClosed]
  cases dialect with
  | scss =>
    rw [Comment.strip_line oneLine, if_pos (starts rfl)]
    rfl
  | sass =>
    have empty (text : List Char) : indentScan true ('\n' :: text) = indentScan true text :=
      indentScan_append true [] text
    simp only [scan, indentScan_append, indentScan_line oneLine, empty, List.nil_append]

/-- An open block comment makes a difference: it takes a directive on the next line. -/
theorem closed_of_inert {dialect : Dialect} {comment : List Char} (inert : Inert dialect comment) :
    BlocksClosed (line comment) := by
  by_contra isOpen
  have lead (back : List Char) : Comment.strip (commented [] comment back) =
      '\n' :: Comment.strip (line comment ++ '\n' :: back) := BlocksClosed.nil.strip_append _
  have shown := inert [] ("@import \"x\"\n".toList ++ Comment.closer) .nil
  have hidden := inert [] ("\n".toList ++ Comment.closer) .nil
  have alike : parse dialect (commented [] comment ("@import \"x\"\n".toList ++ Comment.closer)) =
      parse dialect (commented [] comment ("\n".toList ++ Comment.closer)) := by
    have taken : Comment.strip (line comment ++ '\n' :: ("@import \"x\"\n".toList ++ Comment.closer)) =
        Comment.strip (line comment ++ '\n' :: ("\n".toList ++ Comment.closer)) :=
      Comment.strip_of_open isOpen (by decide) (by decide) (by decide)
    unfold parse
    rw [lead, lead, taken]
  have contrary := shown.symm.trans (alike.trans hidden)
  exact absurd contrary (by cases dialect <;> decide +kernel)

/-- A line that begins with one slash makes a difference: it ends a directive that an empty line does not
end. -/
theorem starts_of_inert {comment : List Char} (oneLine : '\n' ∉ comment)
    (closed : BlocksClosed (line comment)) (inert : Inert .scss comment) :
    ['/', '/'] <+: Comment.stripBlocks (line comment) := by
  by_contra single
  obtain ⟨rest, left⟩ := Comment.stripBlocks_line comment
  have kept : Comment.strip (line comment) = '/' :: rest := by
    rw [Comment.strip_line oneLine, if_neg single, left]
  have divided : ∀ front back, BlocksClosed front →
      parse .scss (commented front comment back) =
        parse .scss front ++ parse .scss (commented [] comment back) := by
    intro front back frontClosed
    have ends : EndsDirective '/' := by decide
    simp only [parse, scan]
    rw [strip_commented frontClosed closed, strip_commented .nil closed, kept, List.cons_append,
      braceScan_append ends, braceScan_append ends, List.filter_append, List.filter_append]
    rfl
  have opened : BlocksClosed "@import \"p\"".toList := .of_unopened (by decide)
  have contrary : parse .scss (spaced "@import \"p\"".toList ",\"q\"".toList) =
      parse .scss "@import \"p\"".toList ++ parse .scss (spaced [] ",\"q\"".toList) := by
    rw [← inert _ _ opened, ← inert _ _ .nil]
    exact divided _ _ opened
  exact absurd contrary (by decide +kernel)

/-- A comment line is inert exactly if every block comment that it opens is closed in it and, with braces,
the line still begins with two slashes without them. So it is inert if no block comment is opened in it,
the second slash included. -/
theorem comment_line_inert_iff (dialect : Dialect) (comment : List Char) (oneLine : '\n' ∉ comment) :
    (Inert dialect comment ↔ BlocksClosed (line comment) ∧
      (dialect = .scss → ['/', '/'] <+: Comment.stripBlocks (line comment))) ∧
    (¬ Comment.opener <:+: '/' :: comment → Inert dialect comment) := by
  constructor
  · constructor
    · intro inert
      have closed := closed_of_inert inert
      refine ⟨closed, ?_⟩
      intro braces
      subst braces
      exact starts_of_inert oneLine closed inert
    · intro condition
      exact inert_of_closed oneLine condition.1 condition.2
  · intro unopened
    have plain : ¬ Comment.opener <:+: line comment := by
      intro inside
      rcases List.infix_cons_iff.mp inside with starts | later
      · simp at starts
      · exact unopened later
    refine inert_of_closed oneLine (.of_unopened plain) ?_
    intro _
    rw [Comment.stripBlocks_of_unopened plain]
    exact List.prefix_append ['/', '/'] comment

/-- A comment line with a block comment and a directive in it, between the parts of a directive. -/
theorem nested_line_inert :
    '\n' ∉ " was /* 'b', */ @import 'b'; //".toList ∧
      Inert .scss " was /* 'b', */ @import 'b'; //".toList ∧
      parse .scss (commented "/**/@import 'a',".toList " was /* 'b', */ @import 'b'; //".toList
        "'c';".toList) = ["a".toList, "c".toList] := by
  have oneLine : '\n' ∉ " was /* 'b', */ @import 'b'; //".toList := by decide
  have lineClosed : BlocksClosed (line " was /* 'b', */ @import 'b'; //".toList) :=
    (BlocksClosed.of_unopened (by decide) : BlocksClosed "// was ".toList).append
      (.block " 'b', ".toList _ (by decide) (.of_unopened (by decide))) (by decide)
  have inert := (comment_line_inert_iff .scss _ oneLine).1.mpr ⟨lineClosed, fun _ => by decide +kernel⟩
  have opened : BlocksClosed "/**/@import 'a',".toList :=
    .block [] _ (by decide) (.of_unopened (by decide))
  refine ⟨oneLine, inert, ?_⟩
  rw [inert _ _ opened]
  decide +kernel

/-- In both dialects a line comment with an opening mark takes the directives up to the next closing mark,
and with braces a star right behind the slashes brings a directive out of the comment. -/
theorem comment_lines_not_inert :
    (parse .scss (commented [] " see vendor/*.scss".toList
        "@import 'base';\n/* theme */\n@import 'theme';\n".toList) = ["theme".toList] ∧
      parse .scss (spaced [] "@import 'base';\n/* theme */\n@import 'theme';\n".toList) =
        ["base".toList, "theme".toList]) ∧
    (parse .sass (commented [] " see vendor/*.sass".toList
        "@import base\n/* theme */\n@import theme\n".toList) = ["theme".toList] ∧
      parse .sass (spaced [] "@import base\n/* theme */\n@import theme\n".toList) =
        ["base".toList, "theme".toList]) ∧
    parse .scss (commented [] "* old */ @import 'old';".toList []) = ["old".toList] ∧
      parse .scss (spaced [] []) = [] := by
  decide +kernel

end Import

end SheetReach
