import SheetReach.Proofs.PathForm
import SheetReach.Report.Cell

/-! The lines of a cell. Filling lines loses no character, so that a cell of one line shows its text, and a
cell has one line if its text is no wider than the column. Where words are not cut, a text without blanks has
one line in any case. -/
namespace SheetReach

namespace Text

@[simp] theorem cells_nil : cells [] = 0 := rfl

@[simp] theorem cells_cons (c : Char) (rest : List Char) : cells (c :: rest) = cellWidth c + cells rest := rfl

@[simp] theorem cells_append (first second : List Char) :
    cells (first ++ second) = cells first + cells second := by
  induction first with
  | nil => simp
  | cons c rest ih => simp [ih, Nat.add_assoc]

theorem cellWidth_le_two (c : Char) : cellWidth c ≤ 2 := by
  unfold cellWidth
  simp only
  split_ifs <;> decide

theorem trimEndBy_append (drop : Char → Bool) (first second : List Char) :
    trimEndBy drop (first ++ second) =
      if (trimEndBy drop second).isEmpty then trimEndBy drop first else first ++ trimEndBy drop second := by
  simp only [trimEndBy, List.reverse_append, List.dropWhile_append, List.isEmpty_reverse]
  split <;> simp

theorem trimEndBy_concat {drop : Char → Bool} (front : List Char) {c : Char} (kept : drop c = false) :
    trimEndBy drop (front ++ [c]) = front ++ [c] := by
  simp [trimEndBy, kept]

theorem cells_trimEndBy_le (drop : Char → Bool) (s : List Char) : cells (trimEndBy drop s) ≤ cells s := by
  have whole : trimEndBy drop s ++ (s.reverse.takeWhile drop).reverse = s := by
    rw [trimEndBy, ← List.reverse_append, List.takeWhile_append_dropWhile, List.reverse_reverse]
  have sum := congrArg cells whole
  rw [cells_append] at sum
  omega

end Text

namespace Report

/-- The pieces of a word make up the word, and none is wider than a line. -/
theorem chopFrom_spec {width : Nat} (roomy : 2 ≤ width) (sofar : Nat) (within : sofar ≤ width)
    (word : List Char) :
    ∃ piece pieces, chopFrom width sofar word = piece :: pieces ∧ piece ++ pieces.flatten = word ∧
      sofar + Text.cells piece ≤ width ∧ ∀ other ∈ pieces, Text.cells other ≤ width := by
  induction word generalizing sofar with
  | nil => exact ⟨[], [], rfl, rfl, within, by simp⟩
  | cons c rest ih =>
    have size := Text.cellWidth_le_two c
    simp only [chopFrom]
    split
    next =>
      obtain ⟨piece, pieces, chopped, whole, first, others⟩ := ih (Text.cellWidth c) (by omega)
      refine ⟨[], (c :: piece) :: pieces, by rw [chopped], by simp [whole], within, ?_⟩
      exact List.forall_mem_cons.mpr ⟨first, others⟩
    next fits =>
      obtain ⟨piece, pieces, chopped, whole, first, others⟩ := ih (sofar + Text.cellWidth c) (by omega)
      refine ⟨c :: piece, pieces, by rw [chopped], by simp [whole], ?_, others⟩
      rw [Text.cells_cons]
      omega

namespace Filling

/-- The lines so far hold a text, and the current one fits if blanks at its end do not count. -/
structure Holds (width : Nat) (text : List Char) (filling : Filling) : Prop where
  flat : filling.done.reverse.flatten ++ filling.current = text
  offset : filling.offset = Text.cells filling.current
  fits : Text.cells (Text.trimEndBy Text.isBlank filling.current) ≤ width

theorem Holds.newLine {width : Nat} {text : List Char} {filling : Filling} (holds : Holds width text filling)
    {word : List Char} (size : Text.cells (Text.trimEndBy Text.isBlank word) ≤ width) :
    Holds width (text ++ word) (filling.newLine word) := by
  refine ⟨?_, rfl, size⟩
  rw [← holds.flat]
  unfold Filling.newLine
  split
  next empty => simp [List.isEmpty_iff.mp empty]
  next => simp

theorem Holds.newLines {width : Nat} {text : List Char} {filling : Filling} (holds : Holds width text filling)
    (pieces : List (List Char)) (sizes : ∀ piece ∈ pieces, Text.cells piece ≤ width) :
    Holds width (text ++ pieces.flatten) (pieces.foldl Filling.newLine filling) := by
  induction pieces generalizing text filling with
  | nil => simpa using holds
  | cons piece others ih =>
    obtain ⟨size, rest⟩ := List.forall_mem_cons.mp sizes
    have next := ih (holds.newLine ((Text.cells_trimEndBy_le _ piece).trans size)) rest
    simpa using next

theorem Holds.extend {width : Nat} {text : List Char} {filling : Filling} (holds : Holds width text filling)
    {word : List Char}
    (fits : filling.offset + Text.cells (Text.trimEndBy Text.isBlank word) ≤ width) :
    Holds width (text ++ word) (filling.extend word) := by
  refine ⟨?_, ?_, ?_⟩
  · simp [Filling.extend, ← holds.flat]
  · simp [Filling.extend, holds.offset]
  · simp only [Filling.extend, Text.trimEndBy_append]
    split
    next => exact holds.fits
    next =>
      rw [Text.cells_append, ← holds.offset]
      exact fits

theorem Holds.place {width : Nat} (roomy : 2 ≤ width) {text : List Char} {filling : Filling}
    (holds : Holds width text filling) (word : List Char) :
    Holds width (text ++ word) (filling.place true width word) := by
  simp only [Filling.place]
  split
  next fits => exact holds.extend fits
  next =>
    split
    next =>
      obtain ⟨piece, pieces, chopped, whole, first, others⟩ := chopFrom_spec roomy 0 (Nat.zero_le _) word
      have lines := holds.newLines (chopFrom width 0 word) (by
        rw [chopped]
        exact List.forall_mem_cons.mpr ⟨by omega, others⟩)
      rw [chopped, List.flatten_cons, whole] at lines
      rw [chopped]
      exact lines
    next short =>
      exact holds.newLine (by simpa using short)

theorem Holds.places {width : Nat} (roomy : 2 ≤ width) {text : List Char} {filling : Filling}
    (holds : Holds width text filling) (words : List (List Char)) :
    Holds width (text ++ words.flatten) (words.foldl (Filling.place true width) filling) := by
  induction words generalizing text filling with
  | nil => simpa using holds
  | cons word others ih => simpa using ih (holds.place roomy word)

/-- As long as there is room, all words go on one line. -/
theorem foldl_place_of_fits (cut : Bool) {width : Nat} (words : List (List Char)) (filling : Filling)
    (offset : filling.offset = Text.cells filling.current)
    (fits : Text.cells filling.current + Text.cells words.flatten ≤ width) :
    (words.foldl (Filling.place cut width) filling).done = filling.done ∧
      (words.foldl (Filling.place cut width) filling).current = filling.current ++ words.flatten := by
  induction words generalizing filling with
  | nil => simp
  | cons word others ih =>
    have trimmed := Text.cells_trimEndBy_le Text.isBlank word
    rw [List.flatten_cons, Text.cells_append] at fits
    have room : filling.offset + Text.cells (Text.trimEndBy Text.isBlank word) ≤ width := by omega
    have goesOn : filling.place cut width word = filling.extend word := by
      simp only [Filling.place, if_pos room]
    have next := ih (filling.extend word) (by simp [Filling.extend, offset]) (by
      simp only [Filling.extend, Text.cells_append]
      omega)
    rw [List.foldl_cons, goesOn]
    simpa [Filling.extend] using next

end Filling

theorem spacedWords_go_flatten (line : List Char) : (spacedWords.go line).flatten = line := by
  fun_induction spacedWords.go line with
  | case1 => rfl
  | case2 c => rfl
  | case3 c next rest split ih => simp [ih]
  | case4 c next rest joined empty ih => simp [empty] at ih
  | case5 c next rest joined word others found ih =>
    rw [found] at ih
    simpa using ih

theorem spacedWords_spec {line : List Char} (filled : line.dropWhile Text.isBlank ≠ []) :
    spacedWords line ≠ [] ∧ (spacedWords line).flatten = line := by
  have whole := spacedWords_go_flatten (line.dropWhile Text.isBlank)
  simp only [spacedWords]
  split
  next empty =>
    rw [empty] at whole
    exact absurd whole.symm filled
  next word rest found =>
    rw [found, List.flatten_cons] at whole
    simp [whole]

theorem dropExcessBlanks_concat (width : Nat) (front : List Char) {c : Char}
    (dark : Text.isBlank c = false) : dropExcessBlanks width (front ++ [c]) = front ++ [c] := by
  simp [dropExcessBlanks, dark]

theorem fill_eq {line : List Char} (filled : line.dropWhile Text.isBlank ≠ []) (cut : Bool) (width : Nat) :
    fill cut width line =
      ((spacedWords line).foldl (Filling.place cut width) {}).lines.map (dropExcessBlanks width) := by
  have words := (spacedWords_spec filled).1
  unfold fill
  split
  next empty => exact absurd empty words
  next => rfl

theorem fill_ne_nil (cut : Bool) (width : Nat) (line : List Char) : fill cut width line ≠ [] := by
  unfold fill
  split <;> simp [Filling.lines]

theorem dropWhile_concat_ne_nil (front : List Char) {c : Char} (dark : Text.isBlank c = false) :
    (front ++ [c]).dropWhile Text.isBlank ≠ [] := by
  rw [List.dropWhile_append]
  split <;> simp [dark]

/-- A line with something dark at its end is left whole if it fits. -/
theorem fill_of_fits (cut : Bool) {width : Nat} (front : List Char) {c : Char} (dark : Text.isBlank c = false)
    (fits : Text.cells (front ++ [c]) ≤ width) : fill cut width (front ++ [c]) = [front ++ [c]] := by
  have filled := dropWhile_concat_ne_nil front dark
  have whole := (spacedWords_spec filled).2
  have room : Text.cells [] + Text.cells (spacedWords (front ++ [c])).flatten ≤ width := by
    simpa [whole] using fits
  obtain ⟨unbroken, current⟩ := Filling.foldl_place_of_fits cut (spacedWords (front ++ [c])) {} rfl room
  rw [whole] at current
  rw [fill_eq filled, Filling.lines, unbroken, current]
  simp [dropExcessBlanks_concat width front dark]

/-- Where words are cut, a line with something dark at its end stays one line only if it fits. -/
theorem fits_of_fill {width : Nat} (roomy : 2 ≤ width) (front : List Char) {c : Char}
    (dark : Text.isBlank c = false) (one : (fill true width (front ++ [c])).length = 1) :
    Text.cells (front ++ [c]) ≤ width := by
  have filled := dropWhile_concat_ne_nil front dark
  have start : Filling.Holds width [] {} := ⟨rfl, rfl, Nat.zero_le _⟩
  have holds := start.places roomy (spacedWords (front ++ [c]))
  rw [List.nil_append, (spacedWords_spec filled).2] at holds
  rw [fill_eq filled] at one
  generalize (spacedWords (front ++ [c])).foldl (Filling.place true width) {} = filling at holds one
  have single : filling.done = [] := by simpa [Filling.lines] using one
  have current : filling.current = front ++ [c] := by simpa [single] using holds.flat
  have fits := holds.fits
  rwa [current, Text.trimEndBy_concat front dark] at fits

/-- A text without blanks is one word. -/
theorem spacedWords_solid {s : List Char} (solid : ∀ c ∈ s, Text.isBlank c = false) (filled : s ≠ []) :
    spacedWords s = [s] := by
  have single : spacedWords.go s = [s] := by
    fun_induction spacedWords.go s with
    | case1 => exact absurd rfl filled
    | case2 c => rfl
    | case3 c next rest split ih =>
      simp [solid c List.mem_cons_self] at split
    | case4 c next rest joined empty ih =>
      rw [ih (fun d member => solid d (List.mem_cons_of_mem c member)) (List.cons_ne_nil _ _)] at empty
      cases empty
    | case5 c next rest joined word others found ih =>
      rw [ih (fun d member => solid d (List.mem_cons_of_mem c member)) (List.cons_ne_nil _ _)] at found
      cases found
      rfl
  cases s with
  | nil => exact absurd rfl filled
  | cons c rest =>
    have dark := solid c List.mem_cons_self
    simp [spacedWords, dark, single]

/-- A word that is not cut has one line, however narrow. -/
theorem fill_solid (width : Nat) {s : List Char} (solid : ∀ c ∈ s, Text.isBlank c = false) :
    fill false width s = [s] := by
  rcases List.eq_nil_or_concat' s with rfl | ⟨front, c, rfl⟩
  · simp [fill, spacedWords, spacedWords.go, dropExcessBlanks]
  have filled : front ++ [c] ≠ [] := by simp
  have dark := solid c (by simp)
  rw [fill_eq (dropWhile_concat_ne_nil front dark), spacedWords_solid solid filled, List.foldl_cons,
    List.foldl_nil, Filling.place]
  simp only [Bool.false_and, Bool.false_eq_true, ↓reduceIte]
  split <;> simp [Filling.extend, Filling.newLine, Filling.lines, dropExcessBlanks_concat width front dark]

theorem expandTabs_concat (position : Nat) (front : List Char) {c : Char} (untabbed : c ≠ '\t') :
    expandTabs position (front ++ [c]) = expandTabs position front ++ [c] := by
  induction front generalizing position with
  | nil => simp [expandTabs, untabbed]
  | cons d rest ih =>
    simp only [List.cons_append, expandTabs]
    split <;> simp [ih]

theorem expandTabs_eq_self_iff (position : Nat) (s : List Char) : expandTabs position s = s ↔ '\t' ∉ s := by
  induction s generalizing position with
  | nil => simp [expandTabs]
  | cons c rest ih =>
    by_cases tab : c = '\t'
    · subst tab
      refine iff_of_false (fun same => ?_) (not_not_intro List.mem_cons_self)
      obtain ⟨gap, filled⟩ : ∃ gap, 8 - position % 8 = gap + 1 := ⟨7 - position % 8, by omega⟩
      simp [expandTabs, filled, List.replicate_succ] at same
    · simp [expandTabs, tab, ih, Ne.symm tab]

theorem fitLeft_of_cells_le {width : Nat} {line : List Char} (fits : Text.cells line ≤ width) :
    fitLeft width line = line ++ List.replicate (width - Text.cells line) ' ' := by
  simp [fitLeft, fits]

theorem takeCells_sublist (room : Nat) (line : List Char) : (takeCells room line).Sublist line := by
  fun_induction takeCells room line with
  | case1 => exact .refl []
  | case2 room c rest fits ih => exact ih.cons_cons c
  | case3 room c rest wide => exact List.nil_sublist _

theorem newline_not_mem_fitRight (width : Nat) {line : List Char} (unbroken : '\n' ∉ line) :
    '\n' ∉ fitRight width line := by
  have kept : '\n' ∉ Text.trimEndBy Text.isBlank line := fun member =>
    unbroken (List.mem_reverse.mp ((List.dropWhile_suffix _).subset (List.mem_reverse.mp member)))
  have cut : '\n' ∉ takeCells (width - 1) (Text.trimEndBy Text.isBlank line) := fun member =>
    kept ((takeCells_sublist _ _).subset member)
  simp only [fitRight, fitLeft]
  split
  next => simp [kept]
  next => split <;> simp [kept, cut]

section Column

variable {column : Column}

theorem layout_of_unbroken {cell : List Char} (unbroken : '\n' ∉ cell) (width : Nat) :
    column.layout width cell =
      (fill column.cuts width (expandTabs 0 cell)).map (column.side.fit width) := by
  simp [Column.layout, Text.splitAt_of_not_mem '\n' cell unbroken]

theorem layout_broken (width : Nat) {cell : List Char} (broken : '\n' ∈ cell) :
    (column.layout width cell).length ≠ 1 := by
  obtain ⟨front, back, rfl, absent⟩ := List.eq_append_cons_of_mem broken
  obtain ⟨next, others, after⟩ := List.exists_cons_of_ne_nil (Text.splitAt_ne_nil '\n' back)
  have first := List.length_pos_iff.mpr (fill_ne_nil column.cuts width (expandTabs 0 front))
  have second := List.length_pos_iff.mpr (fill_ne_nil column.cuts width (expandTabs 0 next))
  simp only [Column.layout, Text.splitAt_append_cons '\n' front back absent, after, List.flatMap_cons,
    List.length_append, List.length_map]
  omega

/-- A cell with something dark at its end shows its text, with spaces for tabs, on one line if that has no line
end and fits. -/
theorem layout_of_fits {width : Nat} (front : List Char) {c : Char} (dark : Text.isBlank c = false)
    (unbroken : '\n' ∉ front ++ [c]) (fits : Text.cells (expandTabs 0 (front ++ [c])) ≤ width) :
    column.layout width (front ++ [c]) = [column.side.fit width (expandTabs 0 (front ++ [c]))] := by
  have untabbed : c ≠ '\t' := by
    rintro rfl
    cases dark
  rw [expandTabs_concat 0 front untabbed] at fits
  rw [layout_of_unbroken unbroken, expandTabs_concat 0 front untabbed,
    fill_of_fits column.cuts (expandTabs 0 front) dark fits, List.map_singleton]

/-- Where words are cut, it has one line only then. -/
theorem fits_of_layout (cuts : column.cuts = true) {width : Nat} (roomy : 2 ≤ width) (front : List Char)
    {c : Char} (dark : Text.isBlank c = false) (one : (column.layout width (front ++ [c])).length = 1) :
    '\n' ∉ front ++ [c] ∧ Text.cells (expandTabs 0 (front ++ [c])) ≤ width := by
  have untabbed : c ≠ '\t' := by
    rintro rfl
    cases dark
  have unbroken : '\n' ∉ front ++ [c] := fun broken => layout_broken width broken one
  rw [layout_of_unbroken unbroken, cuts, List.length_map, expandTabs_concat 0 front untabbed] at one
  rw [expandTabs_concat 0 front untabbed]
  exact ⟨unbroken, fits_of_fill roomy (expandTabs 0 front) dark one⟩

/-- Where words are not cut, a text without blanks has one line, however narrow the column. -/
theorem layout_solid (whole : column.cuts = false) (width : Nat) {cell : List Char}
    (solid : ∀ c ∈ cell, Text.isBlank c = false) : column.layout width cell = [column.side.fit width cell] := by
  have absent (c : Char) (blank : Text.isBlank c = true) : c ∉ cell := fun member => by
    rw [solid c member] at blank
    cases blank
  rw [layout_of_unbroken (absent '\n' (by decide)), (expandTabs_eq_self_iff 0 cell).mpr (absent '\t' (by decide)),
    whole, fill_solid width solid, List.map_singleton]

end Column

end Report

end SheetReach
