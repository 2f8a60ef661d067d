import SheetReach.Proofs.CellLines
import SheetReach.Proofs.ConsoleLaws
import SheetReach.Proofs.MarkupText

/-! The console of boxes keeps to a manual, so that what holds of every such console holds of it. -/
namespace SheetReach

theorem Except.mapM_eq_ok_iff {ε α β : Type} (step : α → Except ε β) (items : List α)
    (results : List β) :
    items.mapM step = .ok results ↔
      List.Forall₂ (fun item result => step item = .ok result) items results := by
  induction items generalizing results with
  | nil =>
    rw [List.mapM_nil, List.forall₂_nil_left_iff]
    exact ⟨fun done => (Except.ok.inj done).symm, fun empty => by rw [empty]; rfl⟩
  | cons item others ih =>
    simp only [List.mapM_cons, Except.bind_eq_ok_iff, ih, List.forall₂_cons_left_iff]
    constructor
    · rintro ⟨first, done, rest, later, same⟩
      exact ⟨first, rest, done, later, (Except.ok.inj same).symm⟩
    · rintro ⟨first, rest, done, later, rfl⟩
      exact ⟨first, done, rest, later, rfl⟩

theorem Except.exists_mapM_iff {ε α β : Type} (step : α → Except ε β) (items : List α) :
    (∃ results, items.mapM step = .ok results) ↔
      ∀ item ∈ items, ∃ result, step item = .ok result := by
  simp only [Except.mapM_eq_ok_iff]
  induction items with
  | nil => simp
  | cons item others ih =>
    rw [List.forall_mem_cons, ← ih]
    simp only [List.forall₂_cons_left_iff]
    grind

/-! The texts of sizes have no blanks in them. -/

/-- Digits and what stands between and behind them in a number. -/
def IsNumeral (s : List Char) : Prop :=
  ∀ c ∈ s, c.isDigit = true ∨ c ∈ ['.', 'e', '+', '-']

theorem IsNumeral.solid {s : List Char} (numeral : IsNumeral s) : ∀ c ∈ s, Text.isBlank c = false := by
  intro c member
  have bounds : 32 < c.toNat ∧ c.toNat < 0x85 := by
    rcases numeral c member with digit | mark
    · simp only [Char.isDigit, Bool.and_eq_true, decide_eq_true_eq, ge_iff_le, UInt32.le_iff_toNat_le] at digit
      change 48 ≤ c.toNat ∧ c.toNat ≤ 57 at digit
      omega
    · simp only [List.mem_cons, List.not_mem_nil, or_false] at mark
      rcases mark with rfl | rfl | rfl | rfl <;> decide
  simp only [Text.isBlank, Bool.or_eq_false_iff, Bool.and_eq_false_iff, decide_eq_false_iff_not,
    beq_eq_false_iff_ne]
  omega

theorem IsNumeral.append {first second : List Char} (one : IsNumeral first) (other : IsNumeral second) :
    IsNumeral (first ++ second) :=
  List.forall_mem_append.mpr ⟨one, other⟩

theorem IsNumeral.sublist {first second : List Char} (whole : IsNumeral second) (part : first.Sublist second) :
    IsNumeral first :=
  fun c member => whole c (part.subset member)

namespace Decimal

theorem isNumeral_padded (count n : Nat) : IsNumeral (padded count n) := by
  refine IsNumeral.append (fun c member => ?_) (fun c member => ?_)
  · rw [List.eq_of_mem_replicate member]
    exact Or.inl (by decide)
  · exact Or.inl (Nat.isDigit_of_mem_toDigits (by decide) (by decide) member)

theorem isNumeral_positional (places n : Nat) : IsNumeral (positional places n) := by
  have all := isNumeral_padded (places + 1) n
  have whole := all.sublist (List.take_sublist ((padded (places + 1) n).length - places) _)
  have fraction := all.sublist (List.drop_sublist ((padded (places + 1) n).length - places) _)
  simp only [positional]
  split
  next => exact whole
  next => exact whole.append (List.forall_mem_cons.mpr ⟨Or.inr (by simp), fraction⟩)

theorem trimEndBy_sublist (drop : Char → Bool) (s : List Char) : (Text.trimEndBy drop s).Sublist s := by
  have kept := (List.dropWhile_suffix drop (l := s.reverse)).sublist.reverse
  rwa [List.reverse_reverse] at kept

theorem isNumeral_shorten {s : List Char} (numeral : IsNumeral s) : IsNumeral (shorten s) := by
  unfold shorten
  split
  next => exact numeral.sublist ((trimEndBy_sublist _ _).trans (trimEndBy_sublist _ s))
  next => exact numeral

end Decimal

namespace Kilobytes

theorem isNumeral_fixed (amount : Kilobytes) : IsNumeral amount.fixed :=
  Decimal.isNumeral_positional 2 _

theorem isNumeral_powerText (power : Int) : IsNumeral (powerText power) := by
  refine List.forall_mem_cons.mpr ⟨Or.inr (by simp), List.forall_mem_cons.mpr ⟨?_, Decimal.isNumeral_padded 2 _⟩⟩
  split <;> simp

theorem isNumeral_brief (amount : Kilobytes) : IsNumeral amount.brief := by
  rw [brief]
  generalize amount.significant = digits
  obtain ⟨six, power⟩ := digits
  simp only
  split_ifs
  · simp [IsNumeral]
  · exact (Decimal.isNumeral_shorten (Decimal.isNumeral_positional 5 six)).append (isNumeral_powerText power)
  · exact Decimal.isNumeral_shorten (Decimal.isNumeral_positional _ six)

end Kilobytes

namespace Report

def boxedManual : Manual where
  text s := ((Markup.text s).mapError MarkupError.message).map (expandTabs 0)
  roomy columns table := ∀ rows, table.fileRows = .ok rows → ∀ row ∈ rows ++ [table.total],
    (table.file.layout ((table.widths columns rows).1 - 2) row.file).length = 1

theorem boxedManual_text_eq_ok_iff (s shown : List Char) :
    boxedManual.text s = .ok shown ↔ ∃ inner, Markup.text s = .ok inner ∧ expandTabs 0 inner = shown := by
  simp only [boxedManual, Except.map_eq_ok_iff, Except.mapError_eq_ok_iff]

/-! Kinds of characters. -/

theorem letter_facts {c : Char} (letter : c.isAlpha = true) :
    c ≠ '[' ∧ c ≠ ']' ∧ Markup.isSilent c = false ∧ Text.isBlank c = false := by
  have code : 65 ≤ c.toNat ∧ c.toNat ≤ 90 ∨ 97 ≤ c.toNat ∧ c.toNat ≤ 122 := by
    rcases (Bool.or_eq_true _ _).mp letter with upper | lower
    · have bounds : 'A'.val ≤ c.val ∧ c.val ≤ 'Z'.val := of_decide_eq_true upper
      exact Or.inl bounds
    · obtain ⟨least, most⟩ := (Bool.and_eq_true _ _).mp lower
      have bounds : 'a'.val ≤ c.val ∧ c.val ≤ 'z'.val := ⟨of_decide_eq_true least, of_decide_eq_true most⟩
      exact Or.inr bounds
  refine ⟨?_, ?_, ?_, ?_⟩
  · rintro rfl
    revert code
    decide
  · rintro rfl
    revert code
    decide
  · simp only [Markup.isSilent, List.contains_eq_mem, List.mem_cons, List.not_mem_nil, or_false,
      decide_eq_false_iff_not]
    omega
  · simp only [Text.isBlank, Bool.or_eq_false_iff, Bool.and_eq_false_iff, decide_eq_false_iff_not,
      beq_eq_false_iff_ne]
    omega

theorem ordinary_facts {c : Char} (ordinary : Ordinary c) :
    c ≠ '[' ∧ c ≠ '\t' ∧ c ≠ '\n' ∧ Markup.isSilent c = false ∧ isLineEnd c = false := by
  obtain ⟨printable, special⟩ := ordinary
  have code : 32 ≤ c.toNat := UInt32.le_iff_toNat_le.mp printable
  have apart (other : Char) (listed : other ∈ ['[', ':', '\x85', '\u2028', '\u2029']) : c.toNat ≠ other.toNat :=
    fun same => special (Char.toNat_inj.mp same ▸ listed)
  have next := apart '\x85' (by decide)
  have line := apart '\u2028' (by decide)
  have paragraph := apart '\u2029' (by decide)
  change c.toNat ≠ 0x85 at next
  change c.toNat ≠ 0x2028 at line
  change c.toNat ≠ 0x2029 at paragraph
  refine ⟨?_, ?_, ?_, ?_, ?_⟩
  · rintro rfl
    exact special (by decide)
  · rintro rfl
    revert code
    decide
  · rintro rfl
    revert code
    decide
  · simp only [Markup.isSilent, List.contains_eq_mem, List.mem_cons, List.not_mem_nil, or_false,
      decide_eq_false_iff_not]
    omega
  · simp only [isLineEnd, List.contains_eq_mem, List.mem_cons, List.not_mem_nil, or_false,
      decide_eq_false_iff_not]
    omega

/-! What cells show. -/

section Shown

variable {front back : List Char} (ordinary : ∀ c ∈ front ++ back, Ordinary c)

include ordinary

theorem unopened_of_ordinary : '[' ∉ front ∧ '[' ∉ back ∧ ∀ c ∈ front ++ back, Markup.isSilent c = false := by
  have facts := fun c member => ordinary_facts (ordinary c member)
  exact ⟨fun member => (facts _ (List.mem_append_left back member)).1 rfl,
    fun member => (facts _ (List.mem_append_right front member)).1 rfl, fun c member => (facts c member).2.2.2.1⟩

theorem expandTabs_of_ordinary : expandTabs 0 (front ++ back) = front ++ back :=
  (expandTabs_eq_self_iff 0 _).mpr fun tab => (ordinary_facts (ordinary _ tab)).2.1 rfl

/-- The word of a style opens a tag and closes none. -/
theorem boxedManual_tag {word : String} (listed : word ∈ styleWords) (unescaped : front.getLast? ≠ some '\\') :
    boxedManual.text (front ++ '[' :: (word.toList ++ ']' :: back)) = .ok (front ++ back) := by
  have words : styleWords.all (fun word => word.toList.head?.any Markup.opensTag && !word.toList.contains '[' &&
      !word.toList.contains ']' && (Tag.ofInside word.toList).closes?.isNone) = true := by decide +kernel
  have fits := List.all_eq_true.mp words word listed
  obtain ⟨unopenedFront, unopenedBack, audible⟩ := unopened_of_ordinary ordinary
  cases spelled : word.toList with
  | nil => simp [spelled] at fits
  | cons first inside =>
    rw [spelled] at fits
    simp only [Bool.and_eq_true, Bool.not_eq_eq_eq_not, Bool.not_true, List.contains_eq_mem,
      decide_eq_false_iff_not, Option.isNone_iff_eq_none, List.mem_cons, not_or] at fits
    obtain ⟨⟨⟨opens, unopened⟩, unclosed⟩, opening⟩ := fits
    rw [List.cons_append]
    exact (boxedManual_text_eq_ok_iff _ _).mpr ⟨front ++ back,
      Markup.text_tag unopenedFront unescaped unopenedBack opens unopened.2 unclosed.2 audible opening,
      expandTabs_of_ordinary ordinary⟩

theorem boxedManual_closing {word : String} (listed : word ∈ "" :: styleWords)
    (unescaped : front.getLast? ≠ some '\\') :
    ∃ message, boxedManual.text (front ++ '[' :: '/' :: (word.toList ++ ']' :: back)) = .error message := by
  have words : ("" :: styleWords).all (fun word => !word.toList.contains '[' && !word.toList.contains ']' &&
      (Tag.ofInside ('/' :: word.toList)).closes?.isSome) = true := by decide +kernel
  have fits := List.all_eq_true.mp words word listed
  obtain ⟨unopenedFront, unopenedBack, -⟩ := unopened_of_ordinary ordinary
  simp only [Bool.and_eq_true, Bool.not_eq_eq_eq_not, Bool.not_true, List.contains_eq_mem,
    decide_eq_false_iff_not, Option.isSome_iff_exists] at fits
  obtain ⟨⟨unopened, unclosed⟩, name, closing⟩ := fits
  have opens : Markup.opensTag '/' = true := by decide
  obtain ⟨error, told⟩ :=
    Markup.text_closing unopenedFront unescaped unopenedBack opens unopened unclosed closing
  refine ⟨error.message, ?_⟩
  simp only [boxedManual, told, Except.mapError_error, Except.map_error]

end Shown

theorem text_of_ordinary {s : List Char} (ordinary : ∀ c ∈ s, Ordinary c) : Markup.text s = .ok s :=
  Markup.text_of_unopened (fun opened => (ordinary_facts (ordinary _ opened)).1 rfl) fun c member =>
    (ordinary_facts (ordinary c member)).2.2.2.1

/-! The rows of a table. -/

namespace Table

theorem fileRows_eq_ok_iff (table : Table) (rows : List Row) :
    table.fileRows = .ok rows ↔
      List.Forall₂ (fun row shown => Markup.text row.file = .ok shown.file ∧ shown.size = row.size)
        table.rows rows := by
  rw [fileRows, Except.mapM_eq_ok_iff]
  refine iff_of_eq (congrArg (List.Forall₂ · table.rows rows) ?_)
  funext ⟨path, size⟩ ⟨file, text⟩
  apply propext
  rw [Except.bind_eq_ok_iff]
  constructor
  · rintro ⟨shown, prints, same⟩
    cases same
    exact ⟨prints, rfl⟩
  · rintro ⟨prints, rfl⟩
    exact ⟨file, prints, rfl⟩

theorem exists_fileRows_iff (table : Table) :
    (∃ rows, table.fileRows = .ok rows) ↔ ∀ row ∈ table.rows, ∃ shown, Markup.text row.file = .ok shown := by
  rw [fileRows, Except.exists_mapM_iff]
  refine forall₂_congr fun row _ => ?_
  cases told : Markup.text row.file <;> simp [Bind.bind, Except.bind, pure, Except.pure]

theorem draw_eq_ok_iff (table : Table) (columns : Nat) (output : List Char) :
    Console.boxed.draw columns table = .ok output ↔ ∃ rows, table.fileRows = .ok rows ∧
      output = table.frame (table.widths columns rows)
        (rows.map (table.renderRow '│' (table.widths columns rows))).flatten := by
  rw [Console.boxed, Except.mapError_eq_ok_iff, draw, Except.bind_eq_ok_iff]
  refine exists_congr fun rows => and_congr_right fun _ => ?_
  rw [← List.flatMap_def]
  exact ⟨fun same => (Except.ok.inj same).symm, fun same => congrArg Except.ok same.symm⟩

theorem widths_le (table : Table) (columns : Nat) (rows : List Row) :
    table.file.least + 2 ≤ (table.widths columns rows).1 ∧ table.size.least + 2 ≤ (table.widths columns rows).2 :=
  ⟨Nat.le_max_left _ _, Nat.le_max_left _ _⟩

/-- A row is one line if each of its cells is. -/
theorem renderRow_lined {table : Table} {width : Nat × Nat} {row : Row} {shown size : List Char} {padding : Nat}
    (file : table.file.layout (width.1 - 2) row.file = [shown ++ List.replicate padding ' '])
    (sized : table.size.layout (width.2 - 2) row.size = [size]) (unbroken : '\n' ∉ size) (bar : Char) :
    Lined bar shown (table.renderRow bar width row) := by
  refine ⟨padding, size, unbroken, ?_⟩
  rw [renderRow, file, sized]
  exact List.append_nil _

end Table

section Sizes

variable {sizes : List (Path × Kilobytes)}

theorem mem_fileRows {rows : List Row} (made : (Table.ofSizes sizes).fileRows = .ok rows) {row : Row}
    (member : row ∈ rows) :
    ∃ item ∈ sizes, Markup.text item.1 = .ok row.file ∧ row.size = item.2.brief := by
  rw [Table.fileRows_eq_ok_iff, Table.ofSizes, List.forall₂_map_left_iff] at made
  induction made with
  | nil => cases member
  | cons first _ ih =>
    rcases List.mem_cons.mp member with rfl | later
    · exact ⟨_, List.mem_cons_self, first⟩
    · obtain ⟨item, inside, prints⟩ := ih later
      exact ⟨item, List.mem_cons_of_mem _ inside, prints⟩

theorem shown_eq_map {rows : List Row} (made : (Table.ofSizes sizes).fileRows = .ok rows)
    {texts : List (List Char)}
    (shows : List.Forall₂ (fun item text => boxedManual.text item.1 = .ok text) sizes texts) :
    texts = rows.map fun row => expandTabs 0 row.file := by
  rw [Table.fileRows_eq_ok_iff, Table.ofSizes, List.forall₂_map_left_iff] at made
  induction shows generalizing rows with
  | nil =>
    cases made
    rfl
  | cons first _ ih =>
    cases made with
    | cons told others =>
      obtain ⟨inner, prints, rfl⟩ := (boxedManual_text_eq_ok_iff _ _).mp first
      rw [prints] at told
      rw [List.map_cons, ih others, Except.ok.inj told.1]

/-- A file cell on one line shows its text with spaces behind it. -/
theorem file_layout {width : Nat} (roomy : 2 ≤ width) {cell : List Char} (ends : EndsInLetter cell)
    (one : ((Table.ofSizes sizes).file.layout width cell).length = 1) :
    (Table.ofSizes sizes).file.layout width cell =
      [expandTabs 0 cell ++ List.replicate (width - Text.cells (expandTabs 0 cell)) ' '] := by
  obtain ⟨front, last, rfl, letter⟩ := ends
  obtain ⟨-, -, -, dark⟩ := letter_facts letter
  obtain ⟨unbroken, fits⟩ := fits_of_layout rfl roomy front dark one
  rw [layout_of_fits front dark unbroken fits]
  exact congrArg (fun line => [line]) (fitLeft_of_cells_le fits)

theorem size_layout (sizes : List (Path × Kilobytes)) (width : Nat) {cell : List Char} (numeral : IsNumeral cell) :
    ∃ line, (Table.ofSizes sizes).size.layout width cell = [line] ∧ '\n' ∉ line := by
  refine ⟨_, layout_solid rfl width numeral.solid, newline_not_mem_fitRight width fun newline => ?_⟩
  have dark := numeral.solid _ newline
  revert dark
  decide

/-- The titles have one line in columns of at least ten. -/
theorem titles_lined {width : Nat × Nat} (least : 12 ≤ width.1 ∧ 12 ≤ width.2) :
    Lined '┃' (Table.ofSizes sizes).file.title
      ((Table.ofSizes sizes).renderRow '┃' width (Table.ofSizes sizes).titles) := by
  obtain ⟨file, size⟩ := least
  have fileFits : Text.cells (expandTabs 0 ("Fil".toList ++ ['e'])) ≤ width.1 - 2 := by
    have cells : Text.cells (expandTabs 0 ("Fil".toList ++ ['e'])) = 4 := by decide +kernel
    omega
  have sizeFits : Text.cells (expandTabs 0 ("Size (kb".toList ++ [')'])) ≤ width.2 - 2 := by
    have cells : Text.cells (expandTabs 0 ("Size (kb".toList ++ [')'])) = 9 := by decide +kernel
    omega
  have fileLine : (Table.ofSizes sizes).file.layout (width.1 - 2) ("Fil".toList ++ ['e']) =
      ["File".toList ++ List.replicate (width.1 - 2 - Text.cells (expandTabs 0 ("Fil".toList ++ ['e']))) ' '] :=
    (layout_of_fits "Fil".toList (by decide) (by decide +kernel) fileFits).trans
      (congrArg (fun line => [line]) (fitLeft_of_cells_le fileFits))
  have sizeLine : (Table.ofSizes sizes).size.layout (width.2 - 2) ("Size (kb".toList ++ [')']) =
      [fitRight (width.2 - 2) (expandTabs 0 ("Size (kb".toList ++ [')']))] :=
    layout_of_fits "Size (kb".toList (by decide) (by decide +kernel) sizeFits
  exact Table.renderRow_lined fileLine sizeLine (newline_not_mem_fitRight _ (by decide +kernel)) '┃'

theorem boxed_drawn_iff (columns : Nat) :
    (∃ output, Console.boxed.draw columns (.ofSizes sizes) = .ok output) ↔
      ∀ item ∈ sizes, ∃ shown, boxedManual.text item.1 = .ok shown := by
  have rows : (∃ output, Console.boxed.draw columns (.ofSizes sizes) = .ok output) ↔
      ∃ rows, (Table.ofSizes sizes).fileRows = .ok rows := by
    simp only [Table.draw_eq_ok_iff]
    grind
  have shown (path : Path) : (∃ shown, Markup.text path = .ok shown) ↔
      ∃ shown, boxedManual.text path = .ok shown := by
    simp only [boxedManual_text_eq_ok_iff]
    grind
  rw [rows, Table.exists_fileRows_iff]
  simp only [Table.ofSizes, List.forall_mem_map, shown]

/-- Every cell ends in a letter, and the last row is no exception. -/
theorem endsInLetter_rows (endings : ∀ item ∈ sizes, EndsInLetter item.1) {rows : List Row}
    (made : (Table.ofSizes sizes).fileRows = .ok rows) :
    ∀ row ∈ rows ++ [(Table.ofSizes sizes).total], EndsInLetter row.file ∧ IsNumeral row.size := by
  intro row member
  rcases List.mem_append.mp member with early | last
  · obtain ⟨item, listed, shows, sized⟩ := mem_fileRows made early
    obtain ⟨front, c, ends, letter⟩ := endings item listed
    obtain ⟨unopened, unclosed, audible, -⟩ := letter_facts letter
    rw [ends] at shows
    obtain ⟨rest, same⟩ := Markup.text_concat unopened unclosed audible shows
    rw [sized]
    exact ⟨⟨rest, c, same, letter⟩, item.2.isNumeral_brief⟩
  · have named : "Total file size".toList = "Total file siz".toList ++ ['e'] := by decide +kernel
    rw [List.mem_singleton.mp last]
    exact ⟨⟨_, 'e', named, by decide⟩, Kilobytes.isNumeral_fixed _⟩

/-- Where no cell of the file column wraps, each row is one line. -/
theorem boxed_lined {columns : Nat} {texts : List (List Char)} {output : List Char}
    (endings : ∀ item ∈ sizes, EndsInLetter item.1)
    (shows : List.Forall₂ (fun item text => boxedManual.text item.1 = .ok text) sizes texts)
    (roomy : boxedManual.roomy columns (.ofSizes sizes))
    (drawn : Console.boxed.draw columns (.ofSizes sizes) = .ok output) :
    Ruled (.ofSizes sizes) texts output := by
  obtain ⟨rows, made, rfl⟩ := (Table.draw_eq_ok_iff _ columns output).mp drawn
  have least := (Table.ofSizes sizes).widths_le columns rows
  have cells := endsInLetter_rows endings made
  have one := roomy rows made
  generalize (Table.ofSizes sizes).widths columns rows = width at least one ⊢
  have wide : 12 ≤ width.1 ∧ 12 ≤ width.2 := least
  have lined : ∀ row ∈ rows ++ [(Table.ofSizes sizes).total],
      Lined '│' (expandTabs 0 row.file) ((Table.ofSizes sizes).renderRow '│' width row) := by
    intro row member
    obtain ⟨ends, numeral⟩ := cells row member
    obtain ⟨size, sized, unbroken⟩ := size_layout sizes (width.2 - 2) numeral
    exact Table.renderRow_lined (file_layout (by omega) ends (one row member)) sized unbroken '│'
  obtain ⟨files, total⟩ := List.forall_mem_append.mp lined
  have untabbed : expandTabs 0 (Table.ofSizes sizes).total.file = (Table.ofSizes sizes).total.file := by
    change expandTabs 0 "Total file size".toList = "Total file size".toList
    decide +kernel
  rw [List.forall_mem_singleton, untabbed] at total
  rw [shown_eq_map made shows]
  exact ⟨width, _, _, _, titles_lined wide,
    List.forall₂_map_left_iff.mpr (List.forall₂_map_right_iff.mpr (List.forall₂_same.mpr files)), total, rfl⟩

end Sizes

/-! How wide the columns are where there is room enough. -/

/-- The width that a column takes if it can: that of its widest cell, with a space on each side. -/
def Column.natural (column : Column) (cells : List (List Char)) : Nat :=
  max (column.least + 2) (((cells.map widest).max?).getD 0 + 2)

theorem Column.width_of_room {column : Column} {room : Nat} {cells : List (List Char)}
    (fits : column.natural cells ≤ room) : column.width room cells = column.natural cells := by
  unfold natural at fits ⊢
  unfold width
  omega

theorem Column.widest_le_natural (column : Column) {cells : List (List Char)} {cell : List Char}
    (member : cell ∈ cells) : widest cell ≤ column.natural cells - 2 := by
  have largest : widest cell ≤ ((cells.map widest).max?).getD 0 :=
    List.le_max?_getD_of_mem (List.mem_map_of_mem member)
  unfold natural
  omega

/-- The columns of a terminal in which both columns of a table take the width that they can. -/
def Table.enough (table : Table) (rows : List Row) : Nat :=
  let all := table.titles :: rows ++ [table.total]
  table.file.natural (all.map (·.file)) + table.size.natural (all.map (·.size)) + 3

theorem Table.widths_of_room {table : Table} {rows : List Row} {columns : Nat}
    (room : table.enough rows ≤ columns) :
    (table.widths columns rows).1 =
      table.file.natural ((table.titles :: rows ++ [table.total]).map (·.file)) := by
  unfold enough at room
  unfold widths
  generalize table.titles :: rows ++ [table.total] = all at room ⊢
  have least := Nat.le_max_left (table.file.least + 2) ((((all.map (·.file)).map widest).max?).getD 0 + 2)
  change table.file.least + 2 ≤ table.file.natural (all.map (·.file)) at least
  simp only at room ⊢
  rw [Column.width_of_room (by omega), Column.width_of_room (by omega), shrink, if_pos (by omega)]
  exact Nat.max_eq_right least

theorem widest_of_unended {s : List Char} (unended : ∀ c ∈ s, isLineEnd c = false) :
    widest s = Text.cells s := by
  have general : ∀ sofar, widestFrom sofar s = sofar + Text.cells s := by
    induction s with
    | nil => exact fun _ => rfl
    | cons c rest ih =>
      intro sofar
      obtain ⟨plain, others⟩ := List.forall_mem_cons.mp unended
      simp only [widestFrom, plain, Bool.false_eq_true, ↓reduceIte, ih others, Text.cells_cons]
      omega
  simpa [widest] using general 0

/-- A text of ordinary characters has one line in a column that is as wide as its widest line. -/
theorem layout_of_ordinary {column : Column} {width : Nat} {cell : List Char} (ends : EndsInLetter cell)
    (ordinary : ∀ c ∈ cell, Ordinary c) (wide : widest cell ≤ width) : (column.layout width cell).length = 1 := by
  have facts := fun c member => ordinary_facts (ordinary c member)
  have untabbed : expandTabs 0 cell = cell :=
    (expandTabs_eq_self_iff 0 cell).mpr fun tab => (facts _ tab).2.1 rfl
  rw [widest_of_unended fun c member => (facts c member).2.2.2.2] at wide
  obtain ⟨front, last, rfl, letter⟩ := ends
  rw [layout_of_fits front (letter_facts letter).2.2.2 (fun newline => (facts _ newline).2.2.1 rfl)
    (by rwa [untabbed])]
  rfl

theorem boxed_room {sizes : List (Path × Kilobytes)}
    (plain : ∀ item ∈ sizes, EndsInLetter item.1 ∧ ∀ c ∈ item.1, Ordinary c) :
    ∃ enough, ∀ columns ≥ enough, boxedManual.roomy columns (.ofSizes sizes) := by
  obtain ⟨rows, made⟩ := (Table.ofSizes sizes).exists_fileRows_iff.mpr (List.forall_mem_map.mpr fun item listed =>
    ⟨item.1, text_of_ordinary (plain item listed).2⟩)
  refine ⟨(Table.ofSizes sizes).enough rows, fun columns enough others madeAgain row member => ?_⟩
  obtain rfl : rows = others := Except.ok.inj (made.symm.trans madeAgain)
  have ends := (endsInLetter_rows (fun item listed => (plain item listed).1) made row member).1
  have ordinary : ∀ c ∈ row.file, Ordinary c := by
    rcases List.mem_append.mp member with early | last
    · obtain ⟨item, listed, shows, -⟩ := mem_fileRows made early
      rw [text_of_ordinary (plain item listed).2] at shows
      rw [← Except.ok.inj shows]
      exact (plain item listed).2
    · rw [List.mem_singleton.mp last]
      have all : "Total file size".toList.all (fun c => decide (Ordinary c)) = true := by decide +kernel
      exact fun c inside => of_decide_eq_true (List.all_eq_true.mp all c inside)
  have inside : row.file ∈ ((Table.ofSizes sizes).titles :: rows ++ [(Table.ofSizes sizes).total]).map (·.file) :=
    List.mem_map_of_mem (List.mem_cons_of_mem _ member)
  rw [Table.widths_of_room enough]
  exact layout_of_ordinary ends ordinary (Column.widest_le_natural _ inside)

theorem boxed_follows : Console.boxed.Follows boxedManual where
  ordinary text ordinary := by
    have untabbed : '\t' ∉ text := fun tab => (ordinary_facts (ordinary _ tab)).2.1 rfl
    exact (boxedManual_text_eq_ok_iff text text).mpr
      ⟨text, text_of_ordinary ordinary, (expandTabs_eq_self_iff 0 text).mpr untabbed⟩
  tag _ _ _ listed ordinary unescaped := boxedManual_tag ordinary listed unescaped
  closing _ _ _ listed ordinary unescaped := boxedManual_closing ordinary listed unescaped
  drawn_iff columns _ _ := boxed_drawn_iff columns
  lined _ _ _ _ endings shows roomy drawn := boxed_lined endings shows roomy drawn
  room _ plain := boxed_room plain

end Report

end SheetReach
