import SheetReach.Comment
import SheetReach.Proofs.TextParts

/-! What is left of a text without its comments, told piece by piece. A block comment goes up to the first
closing mark behind its opening one, so a text in which every block comment is closed is stripped in the
same way whatever follows it, and a line comment ends with its line. -/
namespace SheetReach

namespace Comment

abbrev opener : List Char := ['/', '*']

abbrev closer : List Char := ['*', '/']

/-- Every block comment that is opened is closed. Marks inside a block comment open nothing. -/
inductive BlocksClosed : List Char → Prop where
  | nil : BlocksClosed []
  | char (c : Char) (rest : List Char) (unopened : ¬ opener <+: c :: rest)
      (others : BlocksClosed rest) : BlocksClosed (c :: rest)
  | block (body rest : List Char) (inside : ¬ closer <:+: body) (others : BlocksClosed rest) :
      BlocksClosed (opener ++ (body ++ (closer ++ rest)))

/-! Block comments. -/

theorem exists_first_closer {text : List Char} (closed : closer <:+: text) :
    ∃ body rest, text = body ++ (closer ++ rest) ∧ ¬ closer <:+: body := by
  induction text with
  | nil => simp at closed
  | cons c text ih =>
    by_cases here : closer <+: c :: text
    · obtain ⟨rest, same⟩ := here
      exact ⟨[], rest, same.symm, by simp⟩
    · have later := (List.infix_cons_iff.mp closed).resolve_left here
      obtain ⟨body, rest, rfl, inside⟩ := ih later
      refine ⟨c :: body, rest, rfl, ?_⟩
      intro found
      rcases List.infix_cons_iff.mp found with starts | deeper
      · exact here (starts.trans (List.prefix_append (c :: body) _))
      · exact inside deeper

theorem closing_append {body : List Char} (inside : ¬ closer <:+: body) (rest : List Char) :
    closing (body ++ (closer ++ rest)) = some (body.length + 2) := by
  induction body with
  | nil => rfl
  | cons c body ih =>
    have later := ih fun found => inside (List.infix_cons found)
    cases body with
    | nil => simp [closing]
    | cons d more =>
      have apart : ¬ (c = '*' ∧ d = '/') := by
        intro marks
        obtain ⟨rfl, rfl⟩ := marks
        exact inside (List.prefix_append closer more).isInfix
      simp only [List.cons_append] at later ⊢
      rw [closing, later]
      simpa using apart

theorem opening_eq_none {c : Char} {rest : List Char} (unopened : ¬ opener <+: c :: rest) :
    opening (c :: rest) = none := by
  unfold opening
  split
  next more same =>
    rw [same] at unopened
    exact absurd (List.prefix_append opener more) unopened
  next => rfl

theorem stripBlocks_char {c : Char} {rest : List Char} (unopened : ¬ opener <+: c :: rest) :
    stripBlocks (c :: rest) = c :: stripBlocks rest := by
  rw [stripBlocks, stripBlocksFrom, opening_eq_none unopened]
  rfl

theorem stripBlocksFrom_length (passed rest : List Char) :
    stripBlocksFrom passed.length (passed ++ rest) = passed.filter (· = '\n') ++ stripBlocks rest := by
  induction passed with
  | nil => rfl
  | cons c passed ih =>
    simp only [List.length_cons, List.cons_append, stripBlocksFrom, ih]
    by_cases newline : c = '\n' <;> simp [newline]

/-- A block comment leaves its newlines. -/
theorem stripBlocks_block {body : List Char} (inside : ¬ closer <:+: body) (rest : List Char) :
    stripBlocks (opener ++ (body ++ (closer ++ rest))) = body.filter (· = '\n') ++ stripBlocks rest := by
  have ends : opening (opener ++ (body ++ (closer ++ rest))) = some ('*' :: (body ++ closer)).length := by
    have closes := closing_append inside rest
    simp only [List.cons_append, List.nil_append] at closes ⊢
    rw [opening, closes]
    simp
  have passes := stripBlocksFrom_length ('*' :: (body ++ closer)) rest
  simp only [List.cons_append, List.append_assoc, List.nil_append] at ends passes ⊢
  rw [stripBlocks, stripBlocksFrom, ends]
  simp only
  rw [passes]
  simp

theorem unopened_append {c : Char} {rest back : List Char} (unopened : ¬ opener <+: c :: rest)
    (apart : back.head? ≠ some '*') : ¬ opener <+: c :: (rest ++ back) := by
  cases rest with
  | cons d more => simpa using unopened
  | nil =>
    cases back with
    | nil => simp
    | cons d more =>
      simp only [List.head?_cons, ne_eq, Option.some.injEq] at apart
      simp [Ne.symm apart]

/-- A text in which every block comment is closed is stripped by itself. -/
theorem BlocksClosed.stripBlocks_append {front back : List Char} (closed : BlocksClosed front)
    (apart : back.head? ≠ some '*') : stripBlocks (front ++ back) = stripBlocks front ++ stripBlocks back := by
  induction closed with
  | nil => rfl
  | char c rest unopened others ih =>
    rw [List.cons_append, stripBlocks_char (unopened_append unopened apart), ih,
      stripBlocks_char unopened, List.cons_append]
  | block body rest inside others ih =>
    simp only [List.append_assoc]
    rw [stripBlocks_block inside, stripBlocks_block inside, ih, List.append_assoc]

theorem BlocksClosed.append {front back : List Char} (closed : BlocksClosed front)
    (alsoClosed : BlocksClosed back) (apart : back.head? ≠ some '*') : BlocksClosed (front ++ back) := by
  induction closed with
  | nil => exact alsoClosed
  | char c rest unopened others ih => exact .char c _ (unopened_append unopened apart) ih
  | block body rest inside others ih =>
    simp only [List.append_assoc]
    exact .block body _ inside ih

theorem BlocksClosed.of_unopened {text : List Char} (unopened : ¬ opener <:+: text) :
    BlocksClosed text := by
  induction text with
  | nil => exact .nil
  | cons c rest ih =>
    exact .char c rest (fun starts => unopened starts.isInfix)
      (ih fun found => unopened (List.infix_cons found))

theorem stripBlocks_of_unopened {text : List Char} (unopened : ¬ opener <:+: text) :
    stripBlocks text = text := by
  induction text with
  | nil => rfl
  | cons c rest ih =>
    rw [stripBlocks_char fun starts => unopened starts.isInfix,
      ih fun found => unopened (List.infix_cons found)]

/-- If not every block comment is closed, the first open one takes the rest of the text. -/
theorem blocksClosed_or_open (text : List Char) :
    BlocksClosed text ∨
      ∃ front body, text = front ++ (opener ++ body) ∧ BlocksClosed front ∧ ¬ closer <:+: body := by
  -- A block comment is passed in one go, so the induction is on the length of the text.
  induction size : text.length using Nat.strong_induction_on generalizing text with
  | _ n ih =>
    subst size
    cases text with
    | nil => exact Or.inl .nil
    | cons c rest =>
      by_cases opened : opener <+: c :: rest
      · obtain ⟨inner, same⟩ := opened
        rw [← same]
        by_cases closed : closer <:+: inner
        · obtain ⟨body, later, rfl, inside⟩ := exists_first_closer closed
          have shorter : later.length < (c :: rest).length := by
            rw [← same]
            simp only [List.length_append, List.length_cons]
            omega
          rcases ih later.length shorter later rfl with others | isOpen
          · exact Or.inl (.block body later inside others)
          · obtain ⟨front, tail, rfl, others, unclosed⟩ := isOpen
            have longer : BlocksClosed (opener ++ (body ++ (closer ++ front))) :=
              .block body front inside others
            exact Or.inr ⟨_, tail, by simp, longer, unclosed⟩
        · exact Or.inr ⟨[], inner, rfl, .nil, closed⟩
      · rcases ih rest.length (by simp) rest rfl with others | isOpen
        · exact Or.inl (.char c rest opened others)
        · obtain ⟨front, tail, rfl, others, unclosed⟩ := isOpen
          refine Or.inr ⟨c :: front, tail, rfl, .char c front ?_ others, unclosed⟩
          intro starts
          exact opened (starts.trans (List.prefix_append (c :: front) _))

/-- A comment that is open at the end of a line leaves only the newlines of what it takes below. -/
theorem BlocksClosed.stripBlocks_open {front body inner : List Char} (closed : BlocksClosed front)
    (unclosed : ¬ closer <:+: body) (inside : ¬ closer <:+: inner) :
    stripBlocks (front ++ (opener ++ (body ++ '\n' :: (inner ++ closer)))) =
      stripBlocks front ++ (body.filter (· = '\n') ++ '\n' :: inner.filter (· = '\n')) := by
  have free : ¬ closer <:+: body ++ '\n' :: inner := by
    rw [Text.infix_append_cons_iff (by decide)]
    exact not_or.mpr ⟨unclosed, inside⟩
  have block := stripBlocks_block free []
  simp only [List.append_assoc, List.cons_append, List.append_nil] at block
  rw [closed.stripBlocks_append (by simp)]
  simp only [List.cons_append, List.nil_append] at block ⊢
  rw [block]
  simp [stripBlocks, stripBlocksFrom]

/-- Below a text with an open block comment, all that counts up to a closing mark is the newlines. -/
theorem strip_of_open {text inner other : List Char} (isOpen : ¬ BlocksClosed text)
    (inside : ¬ closer <:+: inner) (alsoInside : ¬ closer <:+: other)
    (newlines : inner.filter (· = '\n') = other.filter (· = '\n')) :
    strip (text ++ '\n' :: (inner ++ closer)) = strip (text ++ '\n' :: (other ++ closer)) := by
  obtain ⟨front, body, rfl, closed, unclosed⟩ := (blocksClosed_or_open text).resolve_left isOpen
  unfold strip
  simp only [List.append_assoc]
  rw [closed.stripBlocks_open unclosed inside, closed.stripBlocks_open unclosed alsoInside, newlines]

/-! Line comments. -/

theorem startsLineComment_iff (text : List Char) :
    startsLineComment text = true ↔ ['/', '/'] <+: text.dropWhile isIndent := by
  unfold startsLineComment
  split
  next rest same => simp [same]
  next other =>
    refine iff_of_false Bool.false_ne_true ?_
    intro starts
    obtain ⟨rest, same⟩ := starts
    exact other rest same.symm

theorem dropWhile_indent_append (line back : List Char) :
    (line ++ '\n' :: back).dropWhile isIndent = line.dropWhile isIndent ++ '\n' :: back := by
  rw [List.dropWhile_append]
  split
  next blank => rw [List.isEmpty_iff.mp blank]; rfl
  next => rfl

theorem startsLineComment_append (line back : List Char) :
    startsLineComment (line ++ '\n' :: back) = startsLineComment line := by
  rw [Bool.eq_iff_iff, startsLineComment_iff, startsLineComment_iff, dropWhile_indent_append]
  constructor
  · exact Text.prefix_of_append_cons (by decide) _
  · exact fun starts => starts.trans (List.prefix_append _ _)

theorem stripLinesFrom_append (place : LinePlace) (front back : List Char) :
    stripLinesFrom place (front ++ '\n' :: back) = stripLinesFrom place front ++ '\n' :: stripLines back := by
  induction front generalizing place with
  | nil => simp [stripLinesFrom, stripLines]
  | cons c rest ih =>
    have lead := startsLineComment_append (c :: rest) back
    simp only [List.cons_append] at lead ⊢
    simp only [stripLinesFrom, lead, ih]
    cases place <;> split_ifs <;> rfl

/-- What comes after the end of a line does not change what is left of it. -/
theorem BlocksClosed.strip_append {front : List Char} (closed : BlocksClosed front) (back : List Char) :
    strip (front ++ '\n' :: back) = strip front ++ '\n' :: strip back := by
  have unstarred : ('\n' :: back).head? ≠ some '*' := by simp
  unfold strip
  rw [closed.stripBlocks_append unstarred, stripBlocks_char (by simp)]
  exact stripLinesFrom_append .start _ _

theorem stripLinesFrom_inside {line : List Char} (oneLine : '\n' ∉ line) (rest : List Char) :
    stripLinesFrom .inside (line ++ rest) = line ++ stripLinesFrom .inside rest := by
  induction line with
  | nil => rfl
  | cons c line ih =>
    simp only [List.mem_cons, not_or] at oneLine
    simp [stripLinesFrom, Ne.symm oneLine.1, ih oneLine.2]

theorem stripLinesFrom_comment {line : List Char} (oneLine : '\n' ∉ line) :
    stripLinesFrom .comment line = [] := by
  induction line with
  | nil => rfl
  | cons c rest ih =>
    simp only [List.mem_cons, not_or] at oneLine
    simp [stripLinesFrom, Ne.symm oneLine.1, ih oneLine.2]

theorem startsLineComment_slashless {text : List Char} (slashless : '/' ∉ text) {mark : Char}
    (solid : isIndent mark = false) (noSlash : mark ≠ '/') (rest : List Char) :
    startsLineComment (text ++ mark :: rest) = false := by
  rw [Bool.eq_false_iff, ne_eq, startsLineComment_iff]
  induction text with
  | nil => simp [solid, noSlash.symm]
  | cons c text ih =>
    simp only [List.mem_cons, not_or] at slashless
    rw [List.cons_append, List.dropWhile_cons]
    split
    next => exact ih slashless.2
    next => simp [slashless.1]

/-- A text without slashes stays up to a character that is no slash, whatever line ends it has. -/
theorem stripLinesFrom_slashless (place : LinePlace) (outside : place ≠ .comment) {text : List Char}
    (slashless : '/' ∉ text) {mark : Char} (solid : isIndent mark = false) (visible : mark ≠ '\n')
    (noSlash : mark ≠ '/') (rest : List Char) :
    stripLinesFrom place (text ++ mark :: rest) = text ++ mark :: stripLinesFrom .inside rest := by
  have lead : ∀ text : List Char, '/' ∉ text → startsLineComment (text ++ mark :: rest) = false :=
    fun text slashless => startsLineComment_slashless slashless solid noSlash rest
  induction text generalizing place with
  | nil =>
    have here := lead [] slashless
    rw [List.nil_append] at here
    cases place with
    | comment => exact absurd rfl outside
    | inside => simp [stripLinesFrom, visible]
    | start => simp [stripLinesFrom, visible, here]
  | cons c text ih =>
    have here := lead (c :: text) slashless
    simp only [List.mem_cons, not_or] at slashless
    rw [List.cons_append] at here ⊢
    by_cases newline : c = '\n'
    · simp [stripLinesFrom, newline, ih .start (by simp) slashless.2]
    · cases place with
      | comment => exact absurd rfl outside
      | inside => simp [stripLinesFrom, newline, ih .inside (by simp) slashless.2]
      | start => simp [stripLinesFrom, newline, here, ih .inside (by simp) slashless.2]

/-- A line is left as it is or goes as a whole. -/
theorem stripLines_line {line : List Char} (oneLine : '\n' ∉ line) :
    stripLines line = if startsLineComment line then [] else line := by
  cases line with
  | nil => rfl
  | cons c rest =>
    simp only [List.mem_cons, not_or] at oneLine
    have inside := stripLinesFrom_inside oneLine.2 []
    simp only [List.append_nil, stripLinesFrom] at inside
    simp only [stripLines, stripLinesFrom, Ne.symm oneLine.1, if_false, inside,
      stripLinesFrom_comment oneLine.2]

end Comment

end SheetReach
