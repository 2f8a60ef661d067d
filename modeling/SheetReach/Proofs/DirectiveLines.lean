import SheetReach.Proofs.DirectiveScan

/-! Directives by indentation, line by line. A line that is left of a text without its comments imports at
most one specifier, and what it imports depends on nothing but the line. -/
namespace SheetReach.Import

/-- Spaces, tabs, carriage returns and quotes. -/
def isEdge (c : Char) : Bool :=
  c = ' ' || c = '\t' || c = '\r' || c = '\'' || c = '"'

/-- A line imports a specifier: behind any spaces and tabs stand the word, a space or tab, and the specifier
between any spaces, tabs, carriage returns and quotes, none of which it starts or ends with itself. -/
def LineImports (line specifier : List Char) : Prop :=
  ∃ indent gap left right, line = indent ++ (word ++ gap :: (left ++ (specifier ++ right))) ∧
    (∀ c ∈ gap :: indent, Comment.isIndent c = true) ∧ (∀ c ∈ left ++ right, isEdge c = true) ∧
    specifier ≠ [] ∧ specifier.head?.any isEdge = false ∧ specifier.getLast?.any isEdge = false

/-- The specifier that a line imports, if it imports one. -/
def lineImport (line : List Char) : Option (List Char) :=
  match Text.afterPrefix? word (line.dropWhile Comment.isIndent) with
  | some (gap :: rest) =>
    if Comment.isIndent gap then some (Text.trimBy isEdge rest) |>.filter (· ≠ []) else none
  | _ => none

theorem lineImport_eq_some_iff (line specifier : List Char) :
    lineImport line = some specifier ↔ LineImports line specifier := by
  constructor
  · intro found
    unfold lineImport at found
    split at found
    next gap rest started =>
      split at found
      next blank =>
        obtain ⟨trimmed, filled⟩ := Option.filter_eq_some_iff.mp found
        have nonempty : specifier ≠ [] := by simpa using filled
        obtain ⟨left, right, rfl, dropped, starts, ends⟩ :=
          (Text.trimBy_eq_iff nonempty).mp (Option.some.inj trimmed)
        refine ⟨line.takeWhile Comment.isIndent, gap, left, right, ?_, ?_, dropped, nonempty, starts, ends⟩
        · rw [← (Text.afterPrefix?_eq_some_iff _ _ _).mp started, List.takeWhile_append_dropWhile]
        · intro c member
          rcases List.mem_cons.mp member with rfl | indent
          · exact blank
          · exact List.mem_takeWhile_imp indent
      next => cases found
    next => cases found
  · intro imports
    obtain ⟨indent, gap, left, right, rfl, blank, dropped, nonempty, starts, ends⟩ := imports
    obtain ⟨blankGap, blankIndent⟩ := List.forall_mem_cons.mp blank
    have started : (indent ++ (word ++ gap :: (left ++ (specifier ++ right)))).dropWhile Comment.isIndent =
        word ++ gap :: (left ++ (specifier ++ right)) := by
      rw [List.dropWhile_append_of_pos blankIndent]
      rfl
    have trimmed : Text.trimBy isEdge (left ++ (specifier ++ right)) = specifier :=
      (Text.trimBy_eq_iff nonempty).mpr ⟨left, right, rfl, dropped, starts, ends⟩
    rw [lineImport, started, (Text.afterPrefix?_eq_some_iff _ _ _).mpr rfl]
    simp [blankGap, trimmed, nonempty]

example : lineImport "\t @import\t\"'a' \u2028b\" \r".toList = some "a' \u2028b".toList := by decide

/-- Within a line a newline is not there to be trimmed. -/
theorem trimSpecifier_eq {text : List Char} (oneLine : '\n' ∉ text) :
    trimSpecifier text = Text.trimBy isEdge text := by
  have same : ∀ c ∈ text, isTrimmed c = isEdge c := by
    intro c member
    have visible : c ≠ '\n' := fun newline => oneLine (newline ▸ member)
    simp [isTrimmed, isEdge, visible]
  exact Text.trimBy_congr same

theorem indentDirective_filter {line : List Char} (oneLine : '\n' ∉ line) :
    (indentDirective line).filter (· ≠ []) = lineImport line := by
  unfold indentDirective lineImport
  match started : Text.afterPrefix? word (line.dropWhile Comment.isIndent) with
  | none => rfl
  | some [] => rfl
  | some (gap :: rest) =>
    have ending : rest <:+ line := by
      have behind : rest <:+ line.dropWhile Comment.isIndent := by
        rw [(Text.afterPrefix?_eq_some_iff _ _ _).mp started]
        exact (List.suffix_cons gap rest).trans (List.suffix_append word _)
      exact behind.trans (List.dropWhile_suffix _)
    have inside : '\n' ∉ rest := fun newline => oneLine (ending.subset newline)
    have whole : rest.takeWhile (· ≠ '\n') = rest := by
      apply List.takeWhile_eq_self_iff.mpr
      intro c member
      exact decide_eq_true fun newline => inside (newline ▸ member)
    have trimmed := trimSpecifier_eq inside
    simp only [whole, trimmed]
    split <;> rfl

theorem indentScan_single {line : List Char} (oneLine : '\n' ∉ line) :
    indentScan true line = (indentDirective line).toList := by
  cases line with
  | nil => rfl
  | cons c rest =>
    simp only [List.mem_cons, not_or] at oneLine
    simp [indentScan, Ne.symm oneLine.1, indentScan_inside oneLine.2]

theorem indentScan_lines (text : List Char) :
    indentScan true text = (Text.lines text).filterMap indentDirective := by
  induction text using Text.lines_induction with
  | last line oneLine =>
    rw [indentScan_single oneLine, Text.lines_single oneLine]
    cases found : indentDirective line <;> simp [found]
  | more line rest oneLine ih =>
    rw [indentScan_append, indentScan_single oneLine, ih, Text.lines_append oneLine]
    cases found : indentDirective line <;> simp [found]

/-- By indentation a text imports what the lines left of it without comments import, in their order: each of
them at most one specifier, which the line alone tells. -/
theorem parse_sass_by_lines (source : List Char) :
    parse .sass source = (Text.lines (Comment.strip source)).filterMap lineImport ∧
      ∀ line specifier, lineImport line = some specifier ↔ LineImports line specifier := by
  refine ⟨?_, lineImport_eq_some_iff⟩
  simp only [parse, scan]
  rw [indentScan_lines, List.filter_filterMap]
  apply List.filterMap_congr
  intro line member
  exact indentDirective_filter (Text.not_mem_of_mem_splitAt '\n' _ line member)

end SheetReach.Import
