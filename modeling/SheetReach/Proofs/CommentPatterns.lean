import SheetReach.Pattern.Parse
import SheetReach.Proofs.PatternRun
import SheetReach.Proofs.StrippedText

/-! Comments as patterns. What is left of a text without its block comments is the text with the newlines of
each place where one pattern is found, and the lines that hold only a line comment are those that another
pattern takes. -/
namespace SheetReach.Comment

open Pattern

/-- An opening mark, anything, and the first closing mark behind it. -/
def blockPattern : Node :=
  .ofParts [.char '/', .char '*', .loop .lazy 0 none (.any true), .char '*', .char '/']

def indentNode : Node :=
  .member {} false [.code 32, .code 9]

/-- A whole line: spaces and tabs, two slashes, and anything up to the end of the line. -/
def linePattern : Node :=
  .ofParts [.anchor .lineStart false, .loop .greedy 0 none indentNode, .char '/', .char '/',
    .loop .greedy 0 none (.any false), .anchor .lineEnd false]

theorem parse_blockPattern : Pattern.parse "(?s)/\\*.*?\\*/".toList = .ok blockPattern := by
  decide +kernel

theorem parse_linePattern : Pattern.parse "(?m)^[ \\t]*//.*$".toList = .ok linePattern := by
  decide +kernel

/-! Block comments. -/

theorem ways_closing (text back : List Char) :
    ways true (fun _ => true) (fun after => ((Text.afterPrefix? closer after).bind some).bind fun after =>
      some (.before text after [])) back =
      (closing back).map fun count => .before text (back.drop count) [] := by
  induction back with
  | nil => rfl
  | cons c rest ih =>
    cases rest with
    | nil => by_cases star : c = '*' <;> simp [ways, closing, Text.afterPrefix?, star]
    | cons d more =>
      rw [ways, ih]
      by_cases closes : c = '*' ∧ d = '/'
      · obtain ⟨rfl, rfl⟩ := closes
        rfl
      · have apart : Text.afterPrefix? closer (c :: d :: more) = none := by
          grind [Text.afterPrefix?]
        have later : closing (c :: d :: more) = (closing (d :: more)).map (· + 1) := by
          rw [closing, if_neg (by simpa using closes)]
        simp only [apart, later, Option.bind_none, if_true, orElse_none_left, Option.map_map]
        rfl

theorem run_blockPattern {text back : List Char} (ends : back <:+ text) :
    blockPattern.run text.toArray (.before text back []) some =
      (opening back).map fun left => .before text (back.drop (left + 1)) [] := by
  have start : Decides text (opener.map .char ++ []) _ := Decides.nil.literal opener
  have stop : Decides text (closer.map .char ++ []) _ := Decides.nil.literal closer
  have inside {after : List Char} (within : after <:+ text) :
      runAll text.toArray (.loop .lazy 0 none (.any true) :: (closer.map .char ++ []))
        (.before text after []) some = (closing after).map fun count => .before text (after.drop count) [] := by
    rw [runAll, run_lazy (single_any text true) [] _ within,
      ways_congr fun rest ends => stop.run [] some (ends.trans within)]
    exact ways_closing text after
  have parts : blockPattern = .ofParts ((opener.map .char ++ []) ++
      .loop .lazy 0 none (.any true) :: (closer.map .char ++ [])) := rfl
  rw [parts, run_ofParts, runAll_append, start.run [] _ ends]
  cases starts : Text.afterPrefix? opener back with
  | none =>
    have unopened : opening back = none := by
      cases back with
      | nil => rfl
      | cons c rest =>
        apply opening_eq_none
        rintro ⟨rest, same⟩
        rw [← same, (Text.afterPrefix?_eq_some_iff _ _ _).mpr rfl] at starts
        cases starts
    rw [unopened]
    rfl
  | some rest =>
    obtain rfl := (Text.afterPrefix?_eq_some_iff _ _ _).mp starts
    simp only [Option.bind_some]
    rw [inside ((List.suffix_append _ _).trans ends)]
    change _ = Option.map _ (Option.map _ (closing rest))
    rw [Option.map_map]
    rfl

theorem closing_le {text : List Char} {count : Nat} (closed : closing text = some count) :
    count ≤ text.length := by
  induction text generalizing count with
  | nil => cases closed
  | cons c rest ih =>
    cases rest with
    | nil => cases closed
    | cons d more =>
      rw [closing] at closed
      split at closed
      next =>
        obtain rfl := Option.some.inj closed
        simp
      next =>
        obtain ⟨less, later, rfl⟩ := Option.map_eq_some_iff.mp closed
        exact Nat.succ_le_succ (ih later)

theorem exists_of_opening {text : List Char} {left : Nat} (opened : opening text = some left) :
    ∃ passed after, text = '/' :: passed ++ after ∧ passed.length = left := by
  unfold opening at opened
  split at opened
  next rest =>
    obtain ⟨count, closed, rfl⟩ := Option.map_eq_some_iff.mp opened
    refine ⟨'*' :: rest.take count, rest.drop count, by simp, ?_⟩
    simp [Nat.min_eq_left (closing_le closed)]
  next => cases opened

/-- A text without its block comments is the text with nothing but their newlines where the pattern is found. -/
theorem stripBlocks_eq_replace (source : List Char) :
    stripBlocks source =
      blockPattern.replace (fun found => (found.whole source).filter (· = '\n')) source := by
  refine ends_induction (motive := fun _ back => stripBlocks back = (blockPattern.cutFrom source 0 back).flatMap
    (Sum.elim ([·]) fun found => (found.whole source).filter (· = '\n'))) rfl ?_
  intro front c rest whole ih
  have ends : c :: rest <:+ source := ⟨front, whole⟩
  have run := run_blockPattern ends
  cases opened : opening (c :: rest) with
  | none =>
    rw [opened] at run
    rw [cutFrom_of_none run, List.flatMap_cons, ← ih [c] rest (List.cons_ne_nil c []) rfl, stripBlocks,
      stripBlocksFrom, opened]
    rfl
  | some left =>
    obtain ⟨passed, after, same, rfl⟩ := exists_of_opening opened
    have behind : ('/' :: passed ++ after).drop (passed.length + 1) = after := by simp
    rw [opened, Option.map_some, same, behind] at run
    rw [same] at ends opened ⊢
    rw [cutFrom_of_some (List.cons_ne_nil _ _) ends run, List.flatMap_cons,
      ← ih ('/' :: passed) after (List.cons_ne_nil _ _) same]
    simp only [Sum.elim_inr, Found.whole, Cursor.before, stretch_before ends]
    rw [stripBlocks, List.cons_append, stripBlocksFrom, ← List.cons_append, opened]
    simp only [stripBlocksFrom_length]
    simp

/-! Line comments. -/

theorem single_indentNode (text : List Char) : Single text indentNode isIndent := by
  have kind : isMember {} false [.code 32, .code 9] = isIndent := by
    funext c
    simpa [isIndent, List.contains_cons] using isMember_codes false [' ', '\t'] c
  exact kind ▸ single_member text {} false [.code 32, .code 9]

theorem dropWhile_line_of_starts {text : List Char} (starts : startsLineComment text = true) :
    ∃ rest, text.dropWhile isIndent = '/' :: '/' :: rest ∧
      text.dropWhile (· ≠ '\n') = rest.dropWhile (· ≠ '\n') := by
  obtain ⟨rest, same⟩ := (startsLineComment_iff text).mp starts
  refine ⟨rest, same.symm, ?_⟩
  have indent : ∀ c ∈ text.takeWhile isIndent, decide (c ≠ '\n') = true := by
    intro c member
    have blank := List.mem_takeWhile_imp member
    exact decide_eq_true fun newline => by simp [newline, isIndent] at blank
  rw [← List.takeWhile_append_dropWhile (p := isIndent) (l := text), List.dropWhile_append_of_pos indent, ← same]
  simp

/-- Behind the start of a line the pattern takes the line if it holds only a comment. -/
theorem line_decides (text : List Char) :
    Decides text (.loop .greedy 0 none indentNode :: .char '/' :: .char '/' ::
      .loop .greedy 0 none (.any false) :: [.anchor .lineEnd false])
      fun back => if startsLineComment back then some (back.dropWhile (· ≠ '\n')) else none := by
  have apart (c : Char) (rest : List Char) (blank : isIndent c = true) :
      (Text.afterPrefix? ['/', '/'] (c :: rest)).bind (fun after => some (after.dropWhile (· ≠ '\n'))) = none := by
    have other : c ≠ '/' := fun slash => by simp [slash, isIndent] at blank
    simp [Text.afterPrefix?, other]
  refine (((Decides.restOfLine false).literal ['/', '/']).greedy (single_indentNode text) apart).congr
    fun back => ?_
  cases starts : startsLineComment back with
  | true =>
    obtain ⟨rest, begins, line⟩ := dropWhile_line_of_starts starts
    rw [begins, line]
    rfl
  | false =>
    cases begins : Text.afterPrefix? ['/', '/'] (back.dropWhile isIndent) with
    | none => rfl
    | some rest =>
      have marked := (startsLineComment_iff back).mpr ⟨rest, ((Text.afterPrefix?_eq_some_iff _ _ _).mp begins).symm⟩
      exact absurd starts (by simp [marked])

theorem run_linePattern (front back : List Char) :
    linePattern.run (front ++ back).toArray (.before (front ++ back) back []) some =
      if startsLine front && startsLineComment back then
        some (.before (front ++ back) (back.dropWhile (· ≠ '\n')) [])
      else none := by
  have line := (line_decides (front ++ back)).run [] some (List.suffix_append front back)
  rw [linePattern, run_ofParts, runAll, run_lineStart, line]
  cases startsLine front <;> cases startsLineComment back <;> rfl

theorem stripLinesFrom_comment_eq (text : List Char) :
    stripLinesFrom .comment text = stripLinesFrom .inside (text.dropWhile (· ≠ '\n')) := by
  induction text with
  | nil => rfl
  | cons c rest ih =>
    by_cases newline : c = '\n'
    · simp [newline, stripLinesFrom]
    · simp [newline, stripLinesFrom, ih]

/-- Where a scan stands behind a text that does not end inside a comment. -/
def placeAfter (front : List Char) : LinePlace :=
  if startsLine front then .start else .inside

/-- A character that starts no comment stays. -/
theorem stripLinesFrom_char (front : List Char) {c : Char} {rest : List Char}
    (plain : (startsLine front && startsLineComment (c :: rest)) ≠ true) :
    stripLinesFrom (placeAfter front) (c :: rest) = c :: stripLinesFrom (placeAfter (front ++ [c])) rest := by
  have next : placeAfter (front ++ [c]) = if c = '\n' then .start else .inside := by
    simp [placeAfter, startsLine_concat]
  rw [next, placeAfter]
  cases starts : startsLine front with
  | false => by_cases newline : c = '\n' <;> simp [stripLinesFrom, newline]
  | true =>
    rw [starts, Bool.true_and] at plain
    by_cases newline : c = '\n' <;> simp [stripLinesFrom, newline, plain]

/-- A line that holds only a comment goes up to its end. -/
theorem stripLinesFrom_line {front : List Char} {c : Char} {rest : List Char}
    (taken : (startsLine front && startsLineComment (c :: rest)) = true) :
    c ≠ '\n' ∧ stripLinesFrom (placeAfter front) (c :: rest) =
      stripLinesFrom .inside (rest.dropWhile (· ≠ '\n')) := by
  obtain ⟨atStart, starts⟩ := (Bool.and_eq_true _ _).mp taken
  have visible : c ≠ '\n' := by
    rintro rfl
    simp [startsLineComment, isIndent] at starts
  refine ⟨visible, ?_⟩
  rw [placeAfter, if_pos atStart, stripLinesFrom, if_neg visible, ← stripLinesFrom_comment_eq]
  simp [starts]

/-- A text without its line comments is the text with nothing where the pattern is found. -/
theorem stripLines_eq_replace (source : List Char) :
    stripLines source = linePattern.replace (fun _ => []) source := by
  refine ends_induction (motive := fun front back => stripLinesFrom (placeAfter front) back =
    (linePattern.cutFrom source 0 back).flatMap (Sum.elim ([·]) fun _ => [])) ?_ ?_
  · cases placeAfter source <;> rfl
  · intro front c rest whole ih
    have run := run_linePattern front (c :: rest)
    rw [whole] at run
    by_cases taken : (startsLine front && startsLineComment (c :: rest)) = true
    · obtain ⟨visible, left⟩ := stripLinesFrom_line taken
      have split : c :: rest = c :: rest.takeWhile (· ≠ '\n') ++ rest.dropWhile (· ≠ '\n') := by
        rw [List.cons_append, List.takeWhile_append_dropWhile]
      have oneLine : '\n' ∉ c :: rest.takeWhile (· ≠ '\n') := by
        intro newline
        rcases List.mem_cons.mp newline with same | inside
        · exact visible same.symm
        · simpa using List.mem_takeWhile_imp inside
      rw [if_pos taken, List.dropWhile_cons_of_pos (by simpa using visible)] at run
      rw [left]
      generalize rest.dropWhile (· ≠ '\n') = after at split run ⊢
      have later := ih _ after (List.cons_ne_nil _ _) split
      rw [placeAfter, startsLine_append front (List.cons_ne_nil _ _) oneLine] at later
      rw [split] at whole run ⊢
      rw [cutFrom_of_some (List.cons_ne_nil _ _) ⟨front, whole⟩ run]
      exact later
    · rw [if_neg taken] at run
      rw [cutFrom_of_none run, List.flatMap_cons, ← ih [c] rest (List.cons_ne_nil c []) rfl,
        stripLinesFrom_char front taken]
      rfl

end SheetReach.Comment
