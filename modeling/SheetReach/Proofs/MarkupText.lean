import Mathlib.Data.List.Infix
import SheetReach.Proofs.Outcome
import SheetReach.Report.Markup

/-! What the console of boxes shows of a text that is read as markup. A text without an opening bracket is
shown as it is, a tag is cut out of the text around it, a closing tag needs an open one, and the last character
is shown unless it is a bracket. -/
namespace SheetReach.Report.Markup

def printed (pieces : List Piece) : List Char :=
  pieces.flatMap fun
    | .text text => text
    | .tag _ _ => []

@[simp] theorem printed_nil : printed [] = [] := rfl

@[simp] theorem printed_text (text : List Char) (rest : List Piece) :
    printed (.text text :: rest) = text ++ printed rest := rfl

@[simp] theorem printed_append (first second : List Piece) :
    printed (first ++ second) = printed first ++ printed second :=
  List.flatMap_append

theorem print_eq_ok {opened : List (List Char)} {pieces : List Piece} {out : List Char}
    (shows : print opened pieces = .ok out) : out = printed pieces := by
  fun_induction print opened pieces generalizing out with
  | case1 opened =>
    cases shows
    rfl
  | case2 opened text rest ih =>
    obtain ⟨later, shown, rfl⟩ := (Except.map_eq_ok_iff _ _ _).mp shows
    rw [printed_text, ih shown]
  | case3 opened position tag rest opening ih => exact ih shows
  | case4 position tag rest closing => cases shows
  | case5 last others position tag rest closing ih => exact ih shows
  | case6 opened position tag rest name filled closing found ih => exact ih shows
  | case7 opened position tag rest name filled closing missing => cases shows

theorem text_eq_ok {s out : List Char} (shows : text s = .ok out) :
    out = (printed (pieces s)).filter (!isSilent ·) := by
  obtain ⟨kept, printedSo, rfl⟩ := (Except.map_eq_ok_iff _ _ _).mp shows
  rw [print_eq_ok printedSo]

/-! Where a tag is found. -/

theorem insideOf?_eq_some_iff (s inside : List Char) :
    insideOf? s = some inside ↔
      ∃ back, s = inside ++ ']' :: back ∧ '[' ∉ inside ∧ ']' ∉ inside := by
  induction s generalizing inside with
  | nil => simp [insideOf?]
  | cons c rest ih =>
    by_cases closing : c = ']'
    · subst closing
      cases inside with
      | nil => simp [insideOf?]
      | cons d more => simp [insideOf?]; grind
    by_cases opening : c = '['
    · subst opening
      cases inside with
      | nil => simp [insideOf?]
      | cons d more => simp [insideOf?]; grind
    simp only [insideOf?, if_neg closing, if_neg opening, Option.map_eq_some_iff, ih]
    cases inside with
    | nil => simp [closing]
    | cons d more => simp; grind

theorem takeWhile_backslash (s : List Char) :
    s.takeWhile (· == '\\') = List.replicate (s.takeWhile (· == '\\')).length '\\' := by
  refine List.eq_replicate_of_mem fun c member => ?_
  simpa using List.all_eq_true.mp List.all_takeWhile c member

/-- A tag found at the start of a text, with the backslashes before it. -/
theorem tagAt?_eq_some {s inside : List Char} {slashes : Nat} (found : tagAt? s = some (slashes, inside)) :
    ∃ back, s = List.replicate slashes '\\' ++ '[' :: (inside ++ ']' :: back) := by
  have cut : List.replicate (s.takeWhile (· == '\\')).length '\\' ++
      s.drop (s.takeWhile (· == '\\')).length = s := by
    rw [← takeWhile_backslash]
    exact List.prefix_iff_eq_append.mp (List.takeWhile_prefix _)
  simp only [tagAt?] at found
  split at found
  next first rest after =>
    split at found
    next opens =>
      obtain ⟨more, isInside, same⟩ := Option.map_eq_some_iff.mp found
      cases same
      obtain ⟨back, rfl, -⟩ := (insideOf?_eq_some_iff _ _).mp isInside
      rw [after] at cut
      exact ⟨back, cut.symm⟩
    next => cases found
  next => cases found

theorem tagAt?_of_unopened {s : List Char} (unopened : '[' ∉ s) : tagAt? s = none := by
  cases found : tagAt? s with
  | none => rfl
  | some tag =>
    obtain ⟨back, rfl⟩ := tagAt?_eq_some found
    exact absurd (List.mem_append_right _ List.mem_cons_self) unopened

/-- A tag has nothing but backslashes before it. -/
theorem tagAt?_before {front rest : List Char} (filled : front ≠ []) (unopened : '[' ∉ front)
    (unescaped : front.getLast? ≠ some '\\') : tagAt? (front ++ rest) = none := by
  cases found : tagAt? (front ++ rest) with
  | none => rfl
  | some tag =>
    obtain ⟨back, whole⟩ := tagAt?_eq_some found
    obtain ⟨last, ends⟩ := Option.ne_none_iff_exists'.mp (mt List.getLast?_eq_none_iff.mp filled)
    have solid : last ≠ '\\' := fun slash => unescaped (slash ▸ ends)
    have inside := List.mem_of_getLast? ends
    -- The last character of the front is none of the backslashes, so that the bracket is in the front.
    rcases List.append_eq_append_iff.mp whole with ⟨more, slashes, -⟩ | ⟨more, same, rest⟩
    · exact absurd (List.eq_of_mem_replicate (slashes ▸ List.mem_append_left more inside)) solid
    · cases more with
      | nil =>
        rw [List.append_nil] at same
        exact absurd (List.eq_of_mem_replicate (same ▸ inside)) solid
      | cons c others =>
        obtain ⟨rfl, -⟩ := List.cons.inj rest
        exact absurd (same ▸ List.mem_append_right _ List.mem_cons_self) unopened

theorem tagAt?_tag {first : Char} {inside : List Char} (back : List Char) (opens : opensTag first = true)
    (unopened : '[' ∉ inside) (unclosed : ']' ∉ inside) :
    tagAt? ('[' :: first :: (inside ++ ']' :: back)) = some (0, first :: inside) := by
  have isInside := (insideOf?_eq_some_iff _ _).mpr ⟨back, rfl, unopened, unclosed⟩
  simp [tagAt?, opens, isInside]

/-! The pieces of a text with one tag in it. -/

theorem piecesFrom_before (position : Nat) (plain : List Char) {front rest : List Char} (unopened : '[' ∉ front)
    (unescaped : front.getLast? ≠ some '\\') :
    piecesFrom 0 position plain (front ++ rest) =
      piecesFrom 0 (position + front.length) (front.reverse ++ plain) rest := by
  induction front generalizing position plain with
  | nil => rfl
  | cons c more ih =>
    have none : tagAt? (c :: more ++ rest) = none :=
      tagAt?_before (List.cons_ne_nil c more) unopened unescaped
    have later := ih (position + 1) (c :: plain) (fun member => unopened (List.mem_cons_of_mem c member)) (by
      cases more with
      | nil => simp
      | cons d others => simpa using unescaped)
    rw [List.cons_append] at none ⊢
    simp only [piecesFrom, none, later, List.length_cons, List.reverse_cons, List.append_assoc,
      List.singleton_append]
    congr 1
    omega

theorem piecesFrom_skip (position : Nat) (skipped rest : List Char) :
    piecesFrom skipped.length position [] (skipped ++ rest) =
      piecesFrom 0 (position + skipped.length) [] rest := by
  induction skipped generalizing position with
  | nil => rfl
  | cons c more ih =>
    simp only [List.length_cons, List.cons_append, piecesFrom, ih]
    congr 1
    omega

theorem piecesFrom_untagged (position : Nat) (plain : List Char) {s : List Char} (unopened : '[' ∉ s) :
    piecesFrom 0 position plain s = textPiece (plain.reverse ++ s) := by
  induction s generalizing position plain with
  | nil => simp [piecesFrom]
  | cons c rest ih =>
    have later := ih (position + 1) (c :: plain) fun member => unopened (List.mem_cons_of_mem c member)
    simp [piecesFrom, tagAt?_of_unopened unopened, later]

/-- A tag between texts without brackets stands alone among the pieces. -/
theorem pieces_tag {front back inside : List Char} {first : Char} (unopenedFront : '[' ∉ front)
    (unescaped : front.getLast? ≠ some '\\') (unopenedBack : '[' ∉ back) (opens : opensTag first = true)
    (unopened : '[' ∉ inside) (unclosed : ']' ∉ inside) :
    pieces (front ++ '[' :: first :: (inside ++ ']' :: back)) =
      textPiece front ++ .tag front.length (Tag.ofInside (first :: inside)) :: textPiece back := by
  have skip := piecesFrom_skip (front.length + 1) (first :: inside ++ [']']) back
  rw [piecesFrom_untagged _ _ unopenedBack] at skip
  simp only [List.length_append, List.length_cons, List.length_nil, List.append_assoc, List.cons_append,
    List.nil_append, List.reverse_nil] at skip
  rw [pieces, piecesFrom_before 0 [] unopenedFront unescaped, piecesFrom,
    tagAt?_tag back opens unopened unclosed]
  simp only [List.append_nil, List.reverse_reverse, Nat.zero_add, List.length_cons, skip, tagPieces]
  simp [textPiece]

theorem unescape_of_unopened {s : List Char} (unopened : '[' ∉ s) : unescape s = s := by
  fun_induction unescape s with
  | case1 => rfl
  | case2 c => rfl
  | case3 c next rest escape ih =>
    simp only [Bool.and_eq_true, decide_eq_true_eq] at escape
    exact absurd (escape.2 ▸ List.mem_cons_of_mem c List.mem_cons_self) unopened
  | case4 c next rest plain ih => rw [ih fun member => unopened (List.mem_cons_of_mem c member)]

theorem printed_textPiece (s : List Char) : printed (textPiece s) = unescape s := by
  unfold textPiece
  split
  next empty =>
    rw [List.isEmpty_iff.mp empty]
    rfl
  next => simp

/-! What is shown. -/

theorem print_textPiece (opened : List (List Char)) {s : List Char} (unopened : '[' ∉ s) (rest : List Piece) :
    print opened (textPiece s ++ rest) = (s ++ ·) <$> print opened rest := by
  unfold textPiece
  split
  next empty =>
    rw [List.isEmpty_iff.mp empty]
    simp
  next => simp [print, unescape_of_unopened unopened]

/-- Nothing is left out of a text whose characters are all shown. -/
theorem filter_audible {s : List Char} (audible : ∀ c ∈ s, isSilent c = false) :
    s.filter (!isSilent ·) = s :=
  List.filter_eq_self.mpr (by simpa using audible)

theorem text_of_unopened {s : List Char} (unopened : '[' ∉ s) (audible : ∀ c ∈ s, isSilent c = false) :
    text s = .ok s := by
  have whole := print_textPiece [] unopened []
  rw [List.append_nil] at whole
  rw [text, pieces, piecesFrom_untagged 0 [] unopened, List.reverse_nil, List.nil_append, whole]
  simp [print, filter_audible audible]

section Tag

variable {front back inside : List Char} {first : Char} (unopenedFront : '[' ∉ front)
  (unescaped : front.getLast? ≠ some '\\') (unopenedBack : '[' ∉ back) (opens : opensTag first = true)
  (unopened : '[' ∉ inside) (unclosed : ']' ∉ inside)

include unopenedFront unescaped unopenedBack opens unopened unclosed

theorem text_tag (audible : ∀ c ∈ front ++ back, isSilent c = false)
    (opening : (Tag.ofInside (first :: inside)).closes? = none) :
    text (front ++ '[' :: first :: (inside ++ ']' :: back)) = .ok (front ++ back) := by
  have after (opened : List (List Char)) := print_textPiece opened unopenedBack []
  simp only [List.append_nil] at after
  rw [text, pieces_tag unopenedFront unescaped unopenedBack opens unopened unclosed,
    print_textPiece [] unopenedFront, print, opening]
  simp only [after, print]
  simpa using filter_audible audible

theorem text_closing {name : List Char} (closing : (Tag.ofInside (first :: inside)).closes? = some name) :
    ∃ error, text (front ++ '[' :: first :: (inside ++ ']' :: back)) = .error error := by
  rw [text, pieces_tag unopenedFront unescaped unopenedBack opens unopened unclosed,
    print_textPiece [] unopenedFront, print, closing]
  cases name with
  | nil => exact ⟨_, rfl⟩
  | cons c rest => exact ⟨_, rfl⟩

end Tag

/-- A tag at the start of a text is cut off whole. -/
theorem drop_tag {c : Char} {rest inside : List Char} {slashes : Nat}
    (found : tagAt? (c :: rest) = some (slashes, inside)) :
    c :: rest = List.replicate slashes '\\' ++ '[' :: (inside ++ [']']) ++
      rest.drop (slashes + inside.length + 1) := by
  obtain ⟨back, whole⟩ := tagAt?_eq_some found
  have parted : c :: rest = (List.replicate slashes '\\' ++ '[' :: (inside ++ [']'])) ++ back := by
    rw [whole]
    simp
  have after : (c :: rest).drop (slashes + inside.length + 1 + 1) = back := by
    rw [parted]
    exact List.drop_left' (by simp; omega)
  rw [List.drop_succ_cons] at after
  rw [after, parted]

theorem unescape_concat (s : List Char) {c : Char} (unopened : c ≠ '[') :
    unescape (s ++ [c]) = unescape s ++ [c] := by
  fun_induction unescape s with
  | case1 => rfl
  | case2 d => simp [unescape, unopened]
  | case3 d next rest escape ih => simp [unescape, escape, ih]
  | case4 d next rest plain ih =>
    simp only [List.cons_append] at ih ⊢
    rw [unescape, if_neg plain, ih]

/-- No tag ends in another character than its closing bracket, so that a last character is printed. -/
theorem printed_piecesFrom_concat (skip position : Nat) (plain front : List Char) {c : Char}
    (unopened : c ≠ '[') (unclosed : c ≠ ']') (within : skip ≤ front.length) :
    ∃ out, printed (piecesFrom skip position plain (front ++ [c])) = out ++ [c] := by
  induction front generalizing skip position plain with
  | nil =>
    obtain rfl : skip = 0 := by simpa using within
    have untagged : tagAt? [c] = none := by
      cases found : tagAt? [c] with
      | none => rfl
      | some tag =>
        have whole := congrArg List.length (drop_tag found)
        simp at whole
        omega
    simp [piecesFrom, untagged, printed_textPiece, unescape_concat _ unopened]
  | cons d front ih =>
    rw [List.cons_append]
    unfold piecesFrom
    split
    next skip => exact ih skip (position + 1) plain (by simpa using within)
    next =>
      split
      next => exact ih 0 (position + 1) (d :: plain) (Nat.zero_le _)
      next slashes inside found =>
        have whole := drop_tag found
        have shorter : slashes + inside.length + 1 ≤ front.length := by
          by_contra longer
          rw [List.drop_of_length_le (by simp; omega)] at whole
          have last := congrArg List.getLast? whole
          rw [← List.cons_append, List.getLast?_concat, List.append_nil, ← List.cons_append,
            ← List.append_assoc, List.getLast?_concat] at last
          exact unclosed (Option.some.inj last)
        obtain ⟨out, same⟩ := ih (slashes + inside.length + 1) (position + 1) [] shorter
        exact ⟨_, by rw [printed_append, same, ← List.append_assoc]⟩

theorem text_concat {front out : List Char} {c : Char} (unopened : c ≠ '[') (unclosed : c ≠ ']')
    (audible : isSilent c = false) (shows : text (front ++ [c]) = .ok out) :
    ∃ rest, out = rest ++ [c] := by
  obtain ⟨rest, same⟩ := printed_piecesFrom_concat 0 0 [] front unopened unclosed (Nat.zero_le _)
  rw [text_eq_ok shows, pieces, same, List.filter_append]
  exact ⟨rest.filter (!isSilent ·), by simp [audible]⟩

end SheetReach.Report.Markup
