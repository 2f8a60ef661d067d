import SheetReach.Proofs.CommentPatterns
import SheetReach.Proofs.DirectiveLines

/-! Directives as patterns. The specifiers of a text are what the groups of the patterns hold wherever these
are found, without the blanks and quotes around them. -/
namespace SheetReach.Import

open Pattern

/-- A text in quotes of one kind, on one line. -/
def quoteNode (quote : Char) : Node :=
  .ofParts [.char quote, .loop .greedy 0 none (.member {} true [.code quote.toNat, .code 10]), .char quote]

def quotedPattern : Node :=
  .choice (quoteNode '"') (quoteNode '\'')

/-- A comma with any blanks around it, then a quoted text. -/
def nextNode : Node :=
  .ofParts [.loop .greedy 0 none .blank, .char ',', .loop .greedy 0 none .blank, quotedPattern]

def listNode : Node :=
  .ofParts [quotedPattern, .loop .greedy 0 none nextNode]

/-- The word, blanks, and quoted texts between commas, which are the first group. -/
def bracePattern : Node :=
  .ofParts (word.map .char ++ [.loop .greedy 1 none .blank, .group 1 listNode])

/-- What follows the word in a line: spaces and tabs, and the first group, after which only spaces and tabs
are left. -/
def lineTail : List Node :=
  [.loop .greedy 1 none Comment.indentNode, .group 1 (.loop .lazy 1 none (.any false)),
    .loop .greedy 0 none Comment.indentNode, .anchor .lineEnd false]

/-- A whole line, in which only spaces and tabs stand before the word. -/
def indentPattern : Node :=
  .ofParts (.anchor .lineStart false :: .loop .greedy 0 none Comment.indentNode :: (word.map .char ++ lineTail))

theorem parse_quotedPattern :
    Pattern.parse "\"[^\"\\n]*\"|'[^'\\n]*'".toList = .ok quotedPattern := by
  decide +kernel

theorem parse_bracePattern :
    Pattern.parse ("@import\\s+((?:\"[^\"\\n]*\"|'[^'\\n]*')" ++
      "(?:\\s*,\\s*(?:\"[^\"\\n]*\"|'[^'\\n]*'))*)").toList = .ok bracePattern := by
  decide +kernel

theorem parse_indentPattern :
    Pattern.parse "(?m)^[ \\t]*@import[ \\t]+(.+?)[ \\t]*$".toList = .ok indentPattern := by
  decide +kernel

/-! Quoted texts. -/

theorem map_closeQuote (quote : Char) (text : List Char) :
    (closeQuote quote text).map (·.2) =
      one (· = quote) (text.dropWhile fun c => !(c = quote || c = '\n')) := by
  induction text with
  | nil => rfl
  | cons c rest ih =>
    by_cases closes : c = quote
    · simp [closeQuote, one, closes]
    · by_cases newline : c = '\n'
      · have other : '\n' ≠ quote := newline ▸ closes
        simp [closeQuote, one, newline, other]
      · rw [List.dropWhile_cons, if_pos (by simp [closes, newline]), ← ih]
        simp [closeQuote, closes, newline, Option.map_map, Function.comp_def]

theorem quoteNode_decides (text : List Char) (quote : Char) :
    Decides text [quoteNode quote] fun back =>
      (one (· = quote) back).bind fun rest => (closeQuote quote rest).map (·.2) := by
  have inner : Single text (.member {} true [.code quote.toNat, .code 10])
      fun c => !(c = quote || c = '\n') := by
    have kind : isMember {} true [.code quote.toNat, .code 10] = fun c => !(c = quote || c = '\n') := by
      funext c
      simpa [List.contains_cons] using isMember_codes true [quote, '\n'] c
    exact kind ▸ single_member text {} true [.code quote.toNat, .code 10]
  have apart (c : Char) (rest : List Char) (inside : (!(c = quote || c = '\n')) = true) :
      (one (· = quote) (c :: rest)).bind some = none := by
    have other : c ≠ quote := fun same => by simp [same] at inside
    simp [one, other]
  have close := (Decides.nil.single (single_char text quote)).greedy inner apart
  refine ((close.single (single_char text quote)).ofParts Decides.nil).congr fun back => ?_
  simp [map_closeQuote]

theorem quoted_decides (text : List Char) :
    Decides text [quotedPattern] fun back => (quoted back).map (·.2) := by
  refine ((quoteNode_decides text '"').choice (quoteNode_decides text '\'') ?_).congr ?_
  · intro back double
    cases back with
    | nil => rfl
    | cons c rest =>
      by_cases starts : c = '"'
      · simp [one, starts]
      · simp [one, starts] at double
  · intro back
    cases back with
    | nil => rfl
    | cons c rest =>
      by_cases double : c = '"'
      · simp [one, quoted, double]
      · by_cases single : c = '\'' <;> simp [one, quoted, double, single]

theorem quoted_of_blank {c : Char} (blank : Text.isBlank c = true) (rest : List Char) :
    quoted (c :: rest) = none := by
  have double : c ≠ '"' := fun same => by simp [same, show Text.isBlank '"' = false by decide] at blank
  have single : c ≠ '\'' := fun same => by simp [same, show Text.isBlank '\'' = false by decide] at blank
  simp [quoted, double, single]

theorem nextQuoted_decides (text : List Char) :
    Decides text [nextNode] fun back => (nextQuoted back).map (·.2) := by
  have second := (quoted_decides text).greedy (single_blank text) fun c rest blank => by
    rw [quoted_of_blank blank]
    rfl
  have apart (c : Char) (rest : List Char) (blank : Text.isBlank c = true) :
      (one (· = ',') (c :: rest)).bind (fun back => (quoted (back.dropWhile Text.isBlank)).map (·.2)) = none := by
    have other : c ≠ ',' := fun same => by simp [same, show Text.isBlank ',' = false by decide] at blank
    simp [one, other]
  refine (((second.single (single_char text ',')).greedy (single_blank text) apart).ofParts
    Decides.nil).congr fun back => ?_
  rw [nextQuoted_eq]
  simp only
  cases back.dropWhile Text.isBlank with
  | nil => rfl
  | cons c rest => by_cases comma : c = ',' <;> simp [one, commaQuoted, comma]

/-! Directives with braces. -/

/-- A loop over further texts, before something that always answers, takes as many as there are. -/
theorem further_moreQuoted {text : List Char} (groups : List (Nat × Nat × Nat)) {rest : Rest}
    (answers : ∀ cursor, (rest cursor).isSome = true) {back : List Char} (ends : back <:+ text) {fuel : Nat}
    (enough : back.length ≤ fuel) {started : Option Nat} (moved : started ≠ some (text.length - back.length))
    {count : Nat} (all : back.length ≤ count) :
    further (fun here next => nextNode.run text.toArray here next) false fuel none started
      (.before text back groups) rest = rest (.before text (moreQuoted count back).2 groups) := by
  induction fuel generalizing back count started with
  | zero =>
    obtain rfl := List.eq_nil_of_length_eq_zero (Nat.le_zero.mp enough)
    cases count <;> rfl
  | succ fuel ih =>
    rw [further_succ _ _ _ moved, (nextQuoted_decides text).run_one groups _ ends]
    cases found : nextQuoted back with
    | none =>
      have stays : (moreQuoted count back).2 = back := by
        cases count with
        | zero => rfl
        | succ count => rw [moreQuoted, found]
      rw [stays]
      rfl
    | some pair =>
      obtain ⟨first, after⟩ := pair
      obtain ⟨c, passed, rfl⟩ := nextQuoted_advances back first after found
      have shorter : (c :: (passed ++ after)).length = passed.length + after.length + 1 := by simp
      obtain ⟨count, rfl⟩ : ∃ less, count = less + 1 := ⟨count - 1, by omega⟩
      have within : after <:+ text := (List.suffix_append (c :: passed) after).trans ends
      have length := ends.length_le
      have later : further (fun here next => nextNode.run text.toArray here next) false fuel none
          (some (text.length - (c :: (passed ++ after)).length)) (.before text after groups) rest =
            rest (.before text (moreQuoted count after).2 groups) :=
        ih within (by omega) (by simp only [ne_eq, Option.some.injEq]; omega) (by omega)
      have more : (moreQuoted (count + 1) (c :: (passed ++ after))).2 = (moreQuoted count after).2 := by
        rw [moreQuoted, found]
      rw [more]
      simp only [Option.map_some, Option.bind_some, Bool.false_eq_true, if_false]
      change orElse (further _ _ _ _ (some (text.length - (c :: (passed ++ after)).length)) _ _) _ = _
      rw [later]
      obtain ⟨cursor, answer⟩ := Option.isSome_iff_exists.mp (answers (.before text (moreQuoted count after).2 groups))
      rw [answer]
      rfl

/-- The first group of a directive holds what it lists. -/
theorem run_listNode {text back : List Char} (ends : back <:+ text) :
    (Node.group 1 listNode).run text.toArray (.before text back []) some =
      (quoted back).map fun (_, rest) => .before text (moreQuoted rest.length rest).2
        [(1, text.length - back.length, text.length - (moreQuoted rest.length rest).2.length)] := by
  have quote := (quoted_decides text).run_one [] (fun next =>
    (Node.loop .greedy 0 none nextNode).run text.toArray next fun next =>
      some (next.fill 1 (text.length - back.length))) ends
  rw [Node.run, listNode, run_ofParts]
  simp only [runAll]
  change quotedPattern.run _ _ _ = _
  rw [Cursor.before] at quote ⊢
  rw [quote]
  cases found : quoted back with
  | none => rfl
  | some pair =>
    obtain ⟨first, rest⟩ := pair
    obtain ⟨c, passed, rfl⟩ := quoted_advances back first rest found
    have within : rest <:+ text := (List.suffix_append (c :: passed) rest).trans ends
    have length := within.length_le
    exact further_moreQuoted [] (fun _ => rfl) within (by simp; omega) (by simp) (Nat.le_refl _)

theorem run_bracePattern {text back : List Char} (ends : back <:+ text) :
    bracePattern.run text.toArray (.before text back []) some =
      (Text.afterPrefix? word back).bind fun after => (one Text.isBlank after).bind fun after =>
        (quoted (after.dropWhile Text.isBlank)).map fun (_, rest) => .before text (moreQuoted rest.length rest).2
          [(1, text.length - (after.dropWhile Text.isBlank).length,
            text.length - (moreQuoted rest.length rest).2.length)] := by
  have start : Decides text (word.map .char ++ []) _ := Decides.nil.literal word
  rw [bracePattern, ← List.append_nil (word.map Node.char), run_ofParts, runAll_append, start.run [] _ ends,
    Option.bind_assoc]
  refine Option.bind_congr fun after found => ?_
  obtain rfl := (Text.afterPrefix?_eq_some_iff _ _ _).mp found
  have within : after <:+ text := (List.suffix_append word after).trans ends
  simp only [Option.bind_some, runAll]
  rw [run_greedy_one, single_blank text after [] _ within]
  refine Option.bind_congr fun after taken => ?_
  have inside := (one_suffix taken).trans within
  rw [run_greedy (single_blank text) [] _ inside,
    ways_congr fun rest tail => run_listNode (tail.trans inside)]
  exact ways_greedy (fun c others blank => by rw [quoted_of_blank blank]; rfl) after

/-- A text of quoted texts, with blanks and commas before each of them. -/
inductive Enumerates : List Char → List (List Char) → Prop where
  | nil : Enumerates [] []
  | cons (gap inner rest : List Char) (quote : Char) (others : List (List Char))
      (apart : ∀ c ∈ gap, Text.isBlank c = true ∨ c = ',') (isQuote : quote = '"' ∨ quote = '\'')
      (closed : quote ∉ inner ∧ '\n' ∉ inner) (more : Enumerates rest others) :
      Enumerates (gap ++ quote :: (inner ++ quote :: rest)) (inner :: others)

theorem nextQuoted_eq_some {text inner after : List Char} (found : nextQuoted text = some (inner, after)) :
    ∃ gap quote, (∀ c ∈ gap, Text.isBlank c = true ∨ c = ',') ∧ (quote = '"' ∨ quote = '\'') ∧
      (quote ∉ inner ∧ '\n' ∉ inner) ∧ text = gap ++ quote :: (inner ++ quote :: after) := by
  unfold nextQuoted at found
  split at found
  next rest comma =>
    obtain ⟨quote, isQuote, same, closed⟩ := (quoted_eq_some_iff _ inner after).mp found
    refine ⟨text.takeWhile Text.isBlank ++ ',' :: rest.takeWhile Text.isBlank, quote, ?_, isQuote, closed, ?_⟩
    · intro c member
      rcases List.mem_append.mp member with early | late
      · exact Or.inl (List.mem_takeWhile_imp early)
      · rcases List.mem_cons.mp late with same | blank
        · exact Or.inr same
        · exact Or.inl (List.mem_takeWhile_imp blank)
    · rw [← same, List.append_assoc, List.cons_append, List.takeWhile_append_dropWhile, ← comma,
        List.takeWhile_append_dropWhile]
  next => cases found

theorem moreQuoted_enumerates (count : Nat) (text : List Char) :
    ∃ passed, text = passed ++ (moreQuoted count text).2 ∧ Enumerates passed (moreQuoted count text).1 := by
  induction count generalizing text with
  | zero => exact ⟨[], rfl, .nil⟩
  | succ count ih =>
    rw [moreQuoted]
    split
    next => exact ⟨[], rfl, .nil⟩
    next inner after found =>
      obtain ⟨gap, quote, apart, isQuote, closed, rfl⟩ := nextQuoted_eq_some found
      obtain ⟨passed, same, others⟩ := ih after
      refine ⟨_, ?_, .cons gap inner passed quote _ apart isQuote closed others⟩
      conv_lhs => rw [same]
      simp

theorem trimSpecifier_quote {quote : Char} (isQuote : quote = '"' ∨ quote = '\'') (inner : List Char) :
    trimSpecifier (quote :: (inner ++ [quote])) = trimSpecifier inner := by
  have dropped : isTrimmed quote = true := by rcases isQuote with rfl | rfl <;> decide
  have right := Text.trimBy_append_of_dropped inner (List.forall_mem_singleton.mpr dropped)
  rw [trimSpecifier, Text.trimBy, List.dropWhile_cons_of_pos dropped]
  exact right

theorem cutFrom_gap {text gap : List Char} (apart : ∀ c ∈ gap, Text.isBlank c = true ∨ c = ',')
    {rest : List Char} (ends : gap ++ rest <:+ text) :
    (quotedPattern.cutFrom text 0 (gap ++ rest)).filterMap Sum.getRight? =
      (quotedPattern.cutFrom text 0 rest).filterMap Sum.getRight? := by
  induction gap with
  | nil => rfl
  | cons c gap ih =>
    obtain ⟨here, later⟩ := List.forall_mem_cons.mp apart
    have unquoted : quoted (c :: (gap ++ rest)) = none := by
      rcases here with blank | rfl
      · exact quoted_of_blank blank _
      · rfl
    have fails := (quoted_decides text).run_one [] some ends
    rw [List.cons_append, unquoted] at fails
    rw [List.cons_append, cutFrom_of_none fails]
    exact ih later ((List.suffix_cons c _).trans ends)

/-- The quoted texts of an enumeration are found again. -/
theorem findAll_enumerates {text : List Char} {inners : List (List Char)} (lists : Enumerates text inners) :
    (quotedPattern.findAll text).map (fun found => trimSpecifier (found.whole text)) =
      inners.map trimSpecifier := by
  have ends : ∀ back inners, Enumerates back inners → back <:+ text →
      ((quotedPattern.cutFrom text 0 back).filterMap Sum.getRight?).map
        (fun found => trimSpecifier (found.whole text)) = inners.map trimSpecifier := by
    intro back inners lists
    induction lists with
    | nil => exact fun _ => rfl
    | cons gap inner rest quote others apart isQuote closed more ih =>
      intro ends
      have within : quote :: (inner ++ quote :: rest) <:+ text := (List.suffix_append gap _).trans ends
      have found := (quoted_eq_some_iff _ inner rest).mpr ⟨quote, isQuote, rfl, closed⟩
      have run := (quoted_decides text).run_one [] some within
      have split : quote :: (inner ++ quote :: rest) = quote :: (inner ++ [quote]) ++ rest := by simp
      rw [found, Option.map_some, Option.bind_some, split] at run
      rw [cutFrom_gap apart ends]
      rw [split] at within ⊢
      have later := ih ((List.suffix_append _ rest).trans within)
      rw [cutFrom_of_some (List.cons_ne_nil _ _) within run, List.filterMap_cons]
      simp only [Sum.getRight?_inr, List.map_cons, later]
      rw [Found.whole, Cursor.before, stretch_before within, trimSpecifier_quote isQuote]
  exact ends text inners lists (List.suffix_refl text)

/-- The specifiers in the first group of a place where a directive is found. -/
def groupSpecifiers (source : List Char) (found : Found) : List (List Char) :=
  (quotedPattern.findAll (found.group source 1)).map fun inner =>
    trimSpecifier (inner.whole (found.group source 1))

theorem braceDirective_cases (back : List Char) : braceDirective back =
    (Text.afterPrefix? word back).bind fun after => (one Text.isBlank after).bind fun after =>
      (quoted (after.dropWhile Text.isBlank)).map fun (first, rest) =>
        (first :: (moreQuoted rest.length rest).1, (moreQuoted rest.length rest).2) := by
  rw [braceDirective_eq]
  match Text.afterPrefix? word back with
  | none => rfl
  | some [] => rfl
  | some (gap :: after) => by_cases blank : Text.isBlank gap <;> simp [one, blank, listed]

/-- A directive is found where the pattern is, it ends there, and the first group has its specifiers. -/
theorem run_braceDirective {source back : List Char} (ends : back <:+ source) :
    (braceDirective back = none ∧ bracePattern.run source.toArray (.before source back []) some = none) ∨
      ∃ specifiers after groups, braceDirective back = some (specifiers, after) ∧
        bracePattern.run source.toArray (.before source back []) some = some (.before source after groups) ∧
        ∀ start, groupSpecifiers source ⟨start, .before source after groups⟩ =
          specifiers.map trimSpecifier := by
  rw [braceDirective_cases, run_bracePattern ends]
  cases started : Text.afterPrefix? word back with
  | none => exact Or.inl ⟨rfl, rfl⟩
  | some behind =>
    obtain rfl := (Text.afterPrefix?_eq_some_iff _ _ _).mp started
    simp only [Option.bind_some]
    cases gapped : one Text.isBlank behind with
    | none => exact Or.inl ⟨rfl, rfl⟩
    | some after =>
      have inside : after.dropWhile Text.isBlank <:+ source := (List.dropWhile_suffix _).trans
        ((one_suffix gapped).trans ((List.suffix_append word behind).trans ends))
      simp only [Option.bind_some]
      generalize after.dropWhile Text.isBlank = list at inside
      cases found : quoted list with
      | none => exact Or.inl ⟨rfl, rfl⟩
      | some pair =>
        obtain ⟨first, rest⟩ := pair
        refine Or.inr ⟨_, _, _, rfl, rfl, fun start => ?_⟩
        obtain ⟨quote, isQuote, rfl, closed⟩ := (quoted_eq_some_iff _ first rest).mp found
        obtain ⟨passed, same, others⟩ := moreQuoted_enumerates rest.length rest
        have lists := Enumerates.cons [] first passed quote _ (by simp) isQuote closed others
        have whole : quote :: (first ++ quote :: rest) =
            (quote :: (first ++ quote :: passed)) ++ (moreQuoted rest.length rest).2 := by
          conv_lhs => rw [same]
          simp
        have group : Found.group ⟨start, .before source (moreQuoted rest.length rest).2
            [(1, source.length - (quote :: (first ++ quote :: rest)).length,
              source.length - (moreQuoted rest.length rest).2.length)]⟩ source 1 =
            quote :: (first ++ quote :: passed) := by
          change stretch source _ _ = _
          rw [whole] at inside ⊢
          exact stretch_before inside
        rw [groupSpecifiers, group]
        exact findAll_enumerates lists

/-- The specifiers of a text with braces are the quoted texts in the first groups wherever the pattern is
found. -/
theorem braceScan_eq_findAll (source : List Char) :
    braceScan 0 source = (bracePattern.findAll source).flatMap (groupSpecifiers source) := by
  refine ends_induction (motive := fun _ back => braceScan 0 back =
    ((bracePattern.cutFrom source 0 back).filterMap Sum.getRight?).flatMap (groupSpecifiers source)) rfl ?_
  intro front c rest whole ih
  have within : c :: rest <:+ source := ⟨front, whole⟩
  rcases run_braceDirective within with ⟨unread, fails⟩ | ⟨specifiers, after, groups, read, finds, holds⟩
  · rw [cutFrom_of_none fails, braceScan_of_none unread, ih [c] rest (List.cons_ne_nil c []) rfl]
    rfl
  · obtain ⟨d, passed, same⟩ := braceDirective_advances _ specifiers after read
    rw [← List.cons_append] at same
    rw [braceScan_of_directive read, ih _ after (List.cons_ne_nil d passed) same]
    rw [same] at within finds ⊢
    rw [cutFrom_of_some (List.cons_ne_nil d passed) within finds, List.filterMap_cons]
    simp only [Sum.getRight?_inr, List.flatMap_cons, holds]

/-! Directives by indentation. -/

/-- The rest of a text from the end of its first line on. -/
abbrev lineRest (text : List Char) : List Char :=
  text.dropWhile (· ≠ '\n')

/-- Spaces and tabs up to the end of the line. -/
theorem blankEnd_decides (text : List Char) :
    Decides text [.loop .greedy 0 none Comment.indentNode, .anchor .lineEnd false] fun back =>
      if (back.dropWhile Comment.isIndent).head?.all (· = '\n') then
        some (back.dropWhile Comment.isIndent) else none := by
  refine (Decides.lineEnd false).greedy (Comment.single_indentNode text) fun c rest blank => ?_
  have visible : c ≠ '\n' := fun newline => by simp [newline, Comment.isIndent] at blank
  simp [visible]

theorem newline_ne_indent {c : Char} (blank : Comment.isIndent c = true) : c ≠ '\n' := by
  rintro rfl
  simp [Comment.isIndent] at blank

/-- Before a line end or the end of the text nothing is left of the line. -/
theorem lineRest_of_ended {text : List Char} (ended : text.head?.all (· = '\n') = true) : lineRest text = text := by
  cases text with
  | nil => rfl
  | cons c rest =>
    have newline : c = '\n' := by simpa using ended
    simp [newline]

theorem lineRest_append {passed : List Char} (oneLine : '\n' ∉ passed) (rest : List Char) :
    lineRest (passed ++ rest) = lineRest rest :=
  List.dropWhile_append_of_pos fun _ member => decide_eq_true fun newline => oneLine (newline ▸ member)

theorem lineRest_cons {c : Char} (visible : c ≠ '\n') (rest : List Char) : lineRest (c :: rest) = lineRest rest :=
  List.dropWhile_cons_of_pos (decide_eq_true visible)

/-- The end of a directive whose group starts at an index, if nothing but spaces and tabs is left of the line. -/
def groupEnd (text : List Char) (start : Nat) (after : List Char) : Option Cursor :=
  if (after.dropWhile Comment.isIndent).head?.all (· = '\n') then
    some (.before text (after.dropWhile Comment.isIndent) [(1, start, text.length - after.length)])
  else none

/-- The group goes on up to a place from which only spaces and tabs are left of the line. -/
theorem ways_groupEnd (text : List Char) (start : Nat) (back : List Char) :
    ∃ inner blanks, back = inner ++ (blanks ++ lineRest back) ∧ (∀ c ∈ blanks, Comment.isIndent c = true) ∧
      ways true (· ≠ '\n') (groupEnd text start) back =
        some (.before text (lineRest back) [(1, start, text.length - (blanks ++ lineRest back).length)]) := by
  induction back with
  | nil => exact ⟨[], [], rfl, by simp, rfl⟩
  | cons c rest ih =>
    by_cases ended : (((c :: rest).dropWhile Comment.isIndent).head?.all (· = '\n')) = true
    · have blanks : ∀ d ∈ (c :: rest).takeWhile Comment.isIndent, Comment.isIndent d = true :=
        fun d member => List.mem_takeWhile_imp member
      have split : (c :: rest).takeWhile Comment.isIndent ++ (c :: rest).dropWhile Comment.isIndent = c :: rest :=
        List.takeWhile_append_dropWhile
      have behind : lineRest (c :: rest) = (c :: rest).dropWhile Comment.isIndent := by
        rw [← lineRest_of_ended ended]
        conv_lhs => rw [← split]
        exact lineRest_append (fun newline => newline_ne_indent (blanks _ newline) rfl) _
      refine ⟨[], (c :: rest).takeWhile Comment.isIndent, ?_, blanks, ?_⟩
      · rw [behind, List.nil_append, split]
      · rw [behind, split]
        simp only [ways, groupEnd, if_pos ended]
        rfl
    · have visible : c ≠ '\n' := by
        rintro rfl
        simp [Comment.isIndent] at ended
      obtain ⟨inner, blanks, same, indented, finds⟩ := ih
      have behind : lineRest (c :: rest) = lineRest rest := lineRest_cons visible rest
      refine ⟨c :: inner, blanks, ?_, indented, ?_⟩
      · rw [behind, List.cons_append, ← same]
      · have here : groupEnd text start (c :: rest) = none := if_neg ended
        rw [behind, ways, here, finds]
        simp [visible]

/-- The end of a directive whose group starts here and takes at least one character. -/
def groupFrom (text back : List Char) : Option Cursor :=
  (one (· ≠ '\n') back).bind (ways true (· ≠ '\n') (groupEnd text (text.length - back.length)))

theorem run_groupFrom {text back : List Char} (ends : back <:+ text) :
    ((Node.group 1 (.loop .lazy 1 none (.any false))).run text.toArray (.before text back []) fun next =>
      runAll text.toArray [.loop .greedy 0 none Comment.indentNode, .anchor .lineEnd false] next some) =
      groupFrom text back := by
  rw [Node.run, run_lazy_one, single_visible text back [] _ ends]
  refine Option.bind_congr fun after taken => ?_
  have within := (one_suffix taken).trans ends
  rw [run_lazy (single_visible text) [] _ within]
  refine ways_congr fun rest tail => ?_
  have decided := (blankEnd_decides text).run [(1, text.length - back.length, text.length - rest.length)] some
    (tail.trans within)
  change runAll text.toArray _ (.before text rest [(1, text.length - back.length, text.length - rest.length)]) _ = _
  rw [decided, groupEnd]
  split <;> rfl

/-- Behind the word and one space or tab, the pattern fails only at the end of the line. Else its group holds
what is left of the line, but for spaces and tabs on both sides. -/
theorem ways_groupFrom (text back : List Char) :
    (lineRest back = back ∧ ways false Comment.isIndent (groupFrom text) back = none) ∨
    ∃ left inner right, back = left ++ (inner ++ (right ++ lineRest back)) ∧
      (∀ c ∈ left ++ right, Comment.isIndent c = true) ∧
      ways false Comment.isIndent (groupFrom text) back =
        some (.before text (lineRest back) [(1, text.length - (inner ++ (right ++ lineRest back)).length,
          text.length - (right ++ lineRest back).length)]) := by
  induction back with
  | nil => exact Or.inl ⟨rfl, rfl⟩
  | cons c rest ih =>
    by_cases newline : c = '\n'
    · subst newline
      exact Or.inl ⟨by simp, by simp [ways, groupFrom, one, Comment.isIndent]⟩
    · have behind : lineRest (c :: rest) = lineRest rest := lineRest_cons newline rest
      obtain ⟨inner, right, same, indented, finds⟩ :=
        ways_groupEnd text (text.length - (c :: rest).length) rest
      have whole : c :: rest = c :: inner ++ (right ++ lineRest rest) := by
        rw [List.cons_append, ← same]
      have taken : groupFrom text (c :: rest) =
          some (.before text (lineRest rest) [(1, text.length - (c :: inner ++ (right ++ lineRest rest)).length,
            text.length - (right ++ lineRest rest).length)]) := by
        rw [← whole, ← finds]
        simp [groupFrom, one, newline]
      refine Or.inr ?_
      rw [behind, ways, taken]
      by_cases blank : Comment.isIndent c = true
      · rcases ih with ⟨-, fails⟩ | ⟨left, others, blanks, split, indents, succeeds⟩
        · rw [fails]
          exact ⟨[], c :: inner, right, whole, by simpa using indented, by simp⟩
        · rw [succeeds]
          refine ⟨c :: left, others, blanks, by rw [List.cons_append, ← split], ?_, by simp [blank, orElse]⟩
          exact List.forall_mem_cons.mpr ⟨blank, indents⟩
      · exact ⟨[], c :: inner, right, whole, by simpa using indented, by simp [blank]⟩

theorem run_lineTail {text back : List Char} (ends : back <:+ text) :
    runAll text.toArray lineTail (.before text back []) some =
      (one Comment.isIndent back).bind (ways false Comment.isIndent (groupFrom text)) := by
  rw [lineTail, runAll, run_greedy_one, Comment.single_indentNode text back [] _ ends]
  refine Option.bind_congr fun after taken => ?_
  have within := (one_suffix taken).trans ends
  rw [run_greedy (Comment.single_indentNode text) [] _ within]
  exact ways_congr fun rest tail => run_groupFrom (tail.trans within)

theorem run_word_lineTail {text back : List Char} (ends : back <:+ text) :
    runAll text.toArray (word.map .char ++ lineTail) (.before text back []) some =
      (Text.afterPrefix? word back).bind fun after =>
        (one Comment.isIndent after).bind (ways false Comment.isIndent (groupFrom text)) := by
  have worded : Decides text (word.map .char ++ []) _ := Decides.nil.literal word
  rw [← List.append_nil (word.map Node.char), runAll_append, worded.run [] _ ends, Option.bind_assoc]
  refine Option.bind_congr fun after found => ?_
  obtain rfl := (Text.afterPrefix?_eq_some_iff _ _ _).mp found
  exact run_lineTail ((List.suffix_append word after).trans ends)

theorem afterPrefix?_word_indent {c : Char} (blank : Comment.isIndent c = true) (rest : List Char) :
    Text.afterPrefix? word (c :: rest) = none := by
  have other : c ≠ '@' := fun same => by simp [same, Comment.isIndent] at blank
  simp [word, Text.afterPrefix?, other]

theorem run_indentPattern (front back : List Char) :
    indentPattern.run (front ++ back).toArray (.before (front ++ back) back []) some =
      if startsLine front then
        (Text.afterPrefix? word (back.dropWhile Comment.isIndent)).bind fun after =>
          (one Comment.isIndent after).bind (ways false Comment.isIndent (groupFrom (front ++ back)))
      else none := by
  rw [indentPattern, run_ofParts, runAll, run_lineStart]
  congr 1
  have ends : back <:+ front ++ back := List.suffix_append front back
  generalize front ++ back = text at ends
  rw [runAll, run_greedy (Comment.single_indentNode text) [] _ ends,
    ways_congr fun after tail => run_word_lineTail (tail.trans ends)]
  exact ways_greedy (fun c rest blank => by rw [afterPrefix?_word_indent blank]; rfl) back

theorem trimSpecifier_indent {left right : List Char} (indented : ∀ c ∈ left ++ right, Comment.isIndent c = true)
    (inner : List Char) : trimSpecifier (left ++ (inner ++ right)) = trimSpecifier inner := by
  have dropped : ∀ c ∈ left ++ right, isTrimmed c = true := by
    intro c member
    have blank := indented c member
    simp only [Comment.isIndent, Bool.or_eq_true, decide_eq_true_eq] at blank
    rcases blank with rfl | rfl <;> decide
  obtain ⟨before, after⟩ := List.forall_mem_append.mp dropped
  rw [trimSpecifier, Text.trimBy, List.dropWhile_append_of_pos before]
  exact Text.trimBy_append_of_dropped inner after

/-- What stands before a specifier is on its line. -/
theorem exists_lead {back rest : List Char} {gap : Char}
    (started : Text.afterPrefix? word (back.dropWhile Comment.isIndent) = some (gap :: rest))
    (blank : Comment.isIndent gap = true) : ∃ lead, back = lead ++ rest ∧ lead ≠ [] ∧ '\n' ∉ lead := by
  refine ⟨back.takeWhile Comment.isIndent ++ (word ++ [gap]), ?_, by simp, ?_⟩
  · rw [List.append_assoc, List.append_assoc, List.singleton_append,
      ← (Text.afterPrefix?_eq_some_iff _ _ _).mp started, List.takeWhile_append_dropWhile]
  · intro newline
    rcases List.mem_append.mp newline with early | late
    · exact newline_ne_indent (List.mem_takeWhile_imp early) rfl
    · rcases List.mem_append.mp late with inside | last
      · exact absurd inside (by decide)
      · exact newline_ne_indent blank (List.mem_singleton.mp last).symm

/-- At the start of a line the pattern is found where a directive is, unless its specifier is empty. It takes the
line, and its group holds the specifier. -/
theorem run_indentDirective {front : List Char} (starts : startsLine front = true) (back : List Char) :
    ((indentDirective back).toList.filter (· ≠ []) = [] ∧
      indentPattern.run (front ++ back).toArray (.before (front ++ back) back []) some = none) ∨
    ∃ line groups, back = line ++ lineRest back ∧ line ≠ [] ∧ '\n' ∉ line ∧
      indentPattern.run (front ++ back).toArray (.before (front ++ back) back []) some =
        some (.before (front ++ back) (lineRest back) groups) ∧
      ∀ start, indentDirective back = some (trimSpecifier
        (Found.group ⟨start, .before (front ++ back) (lineRest back) groups⟩ (front ++ back) 1)) := by
  rw [run_indentPattern, if_pos starts, indentDirective]
  have ends : back <:+ front ++ back := List.suffix_append front back
  generalize front ++ back = text at ends
  cases started : Text.afterPrefix? word (back.dropWhile Comment.isIndent) with
  | none => exact Or.inl ⟨rfl, rfl⟩
  | some behind =>
    cases behind with
    | nil => exact Or.inl ⟨rfl, rfl⟩
    | cons gap rest =>
      by_cases blank : Comment.isIndent gap = true
      · obtain ⟨lead, rfl, filled, oneLine⟩ := exists_lead started blank
        have line : rest.takeWhile (· ≠ '\n') ++ lineRest rest = rest := List.takeWhile_append_dropWhile
        simp only [Option.bind_some, one, blank, if_true]
        rw [lineRest_append oneLine]
        rcases ways_groupFrom text rest with ⟨ended, fails⟩ | ⟨left, inner, right, split, indented, finds⟩
        · have empty : rest.takeWhile (· ≠ '\n') = [] := by
            rw [ended] at line
            exact List.append_left_eq_self.mp line
          exact Or.inl ⟨by rw [empty]; rfl, fails⟩
        · have joined : rest.takeWhile (· ≠ '\n') ++ lineRest rest = (left ++ (inner ++ right)) ++ lineRest rest := by
            rw [line, List.append_assoc, List.append_assoc]
            exact split
          have shown := List.append_cancel_right joined
          have tail : inner ++ (right ++ lineRest rest) <:+ text :=
            List.IsSuffix.trans ⟨left, split.symm⟩ ((List.suffix_append lead rest).trans ends)
          refine Or.inr ⟨lead ++ rest.takeWhile (· ≠ '\n'), _, ?_, ?_, ?_, finds, fun start => ?_⟩
          · rw [List.append_assoc, line]
          · exact List.append_ne_nil_of_left_ne_nil filled _
          · intro newline
            rcases List.mem_append.mp newline with early | late
            · exact oneLine early
            · simpa using List.mem_takeWhile_imp late
          · have group : Found.group ⟨start, .before text (lineRest rest)
                [(1, text.length - (inner ++ (right ++ lineRest rest)).length,
                  text.length - (right ++ lineRest rest).length)]⟩ text 1 = inner := stretch_before tail
            rw [group, shown, trimSpecifier_indent indented]
      · exact Or.inl ⟨by simp [blank], by simp [one, blank]⟩

/-- In a line only its start is looked at. -/
theorem indentScan_of_line {c : Char} {rest line after : List Char} (filled : line ≠ []) (oneLine : '\n' ∉ line)
    (same : c :: rest = line ++ after) :
    indentScan true (c :: rest) = (indentDirective (c :: rest)).toList ++ indentScan false after := by
  have inside : ∀ line : List Char, '\n' ∉ line → indentScan false (line ++ after) = indentScan false after := by
    intro line oneLine
    induction line with
    | nil => rfl
    | cons d line ih =>
      simp only [List.mem_cons, not_or] at oneLine
      simp [indentScan, Ne.symm oneLine.1, ih oneLine.2]
  obtain ⟨d, others, rfl⟩ := List.exists_cons_of_ne_nil filled
  obtain ⟨rfl, rfl⟩ := List.cons.inj same
  simp only [List.mem_cons, not_or] at oneLine
  rw [indentScan, if_pos rfl, decide_eq_false (Ne.symm oneLine.1)]
  exact congrArg _ (inside others oneLine.2)

/-- The specifiers of a text by indentation are the first groups wherever the pattern is found, empty ones left
out. -/
theorem indentScan_eq_findAll (source : List Char) :
    (indentScan true source).filter (· ≠ []) =
      ((indentPattern.findAll source).map fun found => trimSpecifier (found.group source 1)).filter (· ≠ []) := by
  refine ends_induction (motive := fun front back => (indentScan (startsLine front) back).filter (· ≠ []) =
    (((indentPattern.cutFrom source 0 back).filterMap Sum.getRight?).map
      fun found => trimSpecifier (found.group source 1)).filter (· ≠ [])) ?_ ?_
  · cases startsLine source <;> rfl
  · intro front c rest whole ih
    have later := ih [c] rest (List.cons_ne_nil c []) rfl
    rw [startsLine_concat] at later
    cases starts : startsLine front with
    | false =>
      have fails := run_indentPattern front (c :: rest)
      rw [starts, whole] at fails
      rw [cutFrom_of_none fails, indentScan]
      exact later
    | true =>
      rcases run_indentDirective starts (c :: rest) with
        ⟨empty, fails⟩ | ⟨line, groups, same, filled, oneLine, finds, holds⟩
      · rw [whole] at fails
        rw [cutFrom_of_none fails, indentScan, if_pos rfl, List.filter_append, empty]
        exact later
      · rw [whole] at finds holds
        generalize lineRest (c :: rest) = after at same finds holds
        have behind := ih line after filled same
        rw [startsLine_append front filled oneLine] at behind
        rw [indentScan_of_line filled oneLine same, List.filter_append, behind]
        rw [same] at whole finds holds ⊢
        rw [cutFrom_of_some filled ⟨front, whole⟩ finds, holds (source.length - (line ++ after).length)]
        simp only [Option.toList_some, List.filterMap_cons, Sum.getRight?_inr, List.map_cons]
        rw [← List.filter_append, List.singleton_append]

/-- What a stylesheet imports, by patterns alone: two of them take the comments out, and one for each dialect
finds the directives. -/
theorem parse_by_patterns (source text : List Char)
    (stripped : text = Comment.linePattern.replace (fun _ => [])
      (Comment.blockPattern.replace (fun found => (found.whole source).filter (· = '\n')) source)) :
    parse .scss source = ((bracePattern.findAll text).flatMap (groupSpecifiers text)).filter (· ≠ []) ∧
    parse .sass source =
      ((indentPattern.findAll text).map fun found => trimSpecifier (found.group text 1)).filter (· ≠ []) := by
  rw [← Comment.stripBlocks_eq_replace, ← Comment.stripLines_eq_replace] at stripped
  subst stripped
  exact ⟨congrArg _ (braceScan_eq_findAll _), indentScan_eq_findAll _⟩

end SheetReach.Import
