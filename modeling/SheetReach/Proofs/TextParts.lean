import Mathlib.Data.List.Infix
import Mathlib.Data.List.TakeWhile
import SheetReach.Text.Blank
import SheetReach.Text.Split

/-! The parts of a text: what it starts with, what it ends with and what it holds, its pieces, its lines
and what trimming leaves of it. A character that a part lacks divides a text, and the part lies on one side of it. -/
namespace SheetReach.Text

theorem afterPrefix?_eq_some_iff (start text rest : List Char) :
    afterPrefix? start text = some rest ↔ text = start ++ rest := by
  induction start generalizing text with
  | nil => simp [afterPrefix?]
  | cons expected more ih =>
    cases text with
    | nil => simp [afterPrefix?]
    | cons c others =>
      by_cases same : c = expected
      · simp [afterPrefix?, same, ih]
      · simp [afterPrefix?, same]

theorem startsWith_iff (start text : List Char) : startsWith start text = true ↔ start <+: text := by
  rw [startsWith, Option.isSome_iff_exists]
  exact exists_congr fun rest => (afterPrefix?_eq_some_iff start text rest).trans eq_comm

theorem endsWith_iff (ending text : List Char) : endsWith ending text = true ↔ ending <:+ text := by
  rw [endsWith, startsWith_iff, List.reverse_prefix]

theorem holds_iff (part text : List Char) : holds part text = true ↔ part <:+: text := by
  induction text with
  | nil => simp [holds]
  | cons c rest ih =>
    rw [holds, Bool.or_eq_true, startsWith_iff, ih, List.infix_cons_iff]

theorem prefix_of_append_cons {part : List Char} {mark : Char} (apart : mark ∉ part)
    (front : List Char) {back : List Char} (starts : part <+: front ++ mark :: back) : part <+: front := by
  induction part generalizing front with
  | nil => exact List.nil_prefix
  | cons c more ih =>
    cases front with
    | nil =>
      have same := (List.cons_prefix_cons.mp starts).1
      exact absurd (same ▸ List.mem_cons_self) apart
    | cons d rest =>
      obtain ⟨same, later⟩ := List.cons_prefix_cons.mp starts
      have others := ih (fun inside => apart (List.mem_cons_of_mem c inside)) rest later
      exact List.cons_prefix_cons.mpr ⟨same, others⟩

/-- What a text holds of another one that lacks a character is on one side of that character. -/
theorem infix_append_cons_iff {part : List Char} {mark : Char} (apart : mark ∉ part)
    (front back : List Char) :
    part <:+: front ++ mark :: back ↔ part <:+: front ∨ part <:+: back := by
  constructor
  · intro inside
    induction front with
    | nil =>
      rcases List.infix_cons_iff.mp inside with starts | later
      · exact Or.inl (prefix_of_append_cons apart [] starts).isInfix
      · exact Or.inr later
    | cons c rest ih =>
      rcases List.infix_cons_iff.mp inside with starts | later
      · exact Or.inl (prefix_of_append_cons apart (c :: rest) starts).isInfix
      · exact (ih later).imp_left List.infix_cons
  · intro inside
    rcases inside with left | right
    · exact left.trans (List.prefix_append front _).isInfix
    · exact right.trans ((List.suffix_cons mark back).trans (List.suffix_append front _)).isInfix

/-- Characters that a part lacks do not help to hold it. -/
theorem infix_append_iff_of_apart {part front : List Char} (apart : ∀ c ∈ front, c ∉ part)
    (back : List Char) : part <:+: front ++ back ↔ part <:+: back := by
  induction front with
  | nil => rfl
  | cons c rest ih =>
    have later := ih fun d member => apart d (List.mem_cons_of_mem c member)
    rw [← later]
    constructor
    · intro inside
      rcases (infix_append_cons_iff (apart c List.mem_cons_self) [] _).mp inside with empty | found
      · exact empty.trans (List.nil_infix)
      · exact found
    · exact List.infix_cons

/-- An ending that lacks a character is an ending of what stands behind it. -/
theorem suffix_append_cons_iff {ending : List Char} {mark : Char} (apart : mark ∉ ending)
    (front back : List Char) : ending <:+ front ++ mark :: back ↔ ending <:+ back := by
  constructor
  · intro ends
    have whole : mark :: back <:+ front ++ mark :: back := List.suffix_append _ _
    rcases List.suffix_or_suffix_of_suffix ends whole with inside | around
    · rcases List.suffix_cons_iff.mp inside with same | shorter
      · rw [same] at apart
        exact absurd List.mem_cons_self apart
      · exact shorter
    · exact absurd (around.subset List.mem_cons_self) apart
  · intro ends
    exact ends.trans ((List.suffix_cons mark back).trans (List.suffix_append front _))

theorem afterPrefix?_append_cons {start : List Char} {mark : Char} (apart : mark ∉ start)
    (text back : List Char) :
    afterPrefix? start (text ++ mark :: back) = (afterPrefix? start text).map (· ++ mark :: back) := by
  induction start generalizing text with
  | nil => rfl
  | cons expected more ih =>
    simp only [List.mem_cons, not_or] at apart
    cases text with
    | nil => simp [afterPrefix?, apart.1]
    | cons c rest =>
      simp only [List.cons_append, afterPrefix?, ih apart.2]
      split <;> rfl

/-! Texts cut into pieces at a character, and pieces put together. -/

theorem splitAt_ne_nil (mark : Char) (text : List Char) : splitAt mark text ≠ [] := by
  cases text with
  | nil => simp [splitAt]
  | cons c rest =>
    simp only [splitAt]
    split
    next => simp
    next => split <;> simp

theorem not_mem_of_mem_splitAt (mark : Char) (text piece : List Char)
    (member : piece ∈ splitAt mark text) : mark ∉ piece := by
  induction text generalizing piece with
  | nil =>
    simp only [splitAt, List.mem_singleton] at member
    simp [member]
  | cons c rest ih =>
    by_cases cut : c = mark
    · simp only [splitAt, if_pos cut, List.mem_cons] at member
      rcases member with rfl | later
      · simp
      · exact ih piece later
    · cases pieces : splitAt mark rest with
      | nil => exact absurd pieces (splitAt_ne_nil mark rest)
      | cons first others =>
        simp only [splitAt, if_neg cut, pieces, List.mem_cons] at member
        rcases member with rfl | later
        · intro inside
          rcases List.mem_cons.mp inside with same | inside
          · exact cut same.symm
          · exact ih first (pieces ▸ List.mem_cons_self) inside
        · exact ih piece (pieces ▸ List.mem_cons_of_mem _ later)

theorem mem_of_mem_splitAt (mark : Char) (text piece : List Char) (member : piece ∈ splitAt mark text)
    {c : Char} (inside : c ∈ piece) : c ∈ text := by
  induction text generalizing piece with
  | nil =>
    simp only [splitAt, List.mem_singleton] at member
    exact member ▸ inside
  | cons first rest ih =>
    by_cases cut : first = mark
    · simp only [splitAt, if_pos cut, List.mem_cons] at member
      rcases member with rfl | later
      · cases inside
      · exact List.mem_cons_of_mem _ (ih piece later inside)
    · cases pieces : splitAt mark rest with
      | nil => exact absurd pieces (splitAt_ne_nil mark rest)
      | cons head others =>
        simp only [splitAt, if_neg cut, pieces, List.mem_cons] at member
        rcases member with rfl | later
        · rcases List.mem_cons.mp inside with rfl | deeper
          · exact List.mem_cons_self
          · exact List.mem_cons_of_mem _ (ih head (pieces ▸ List.mem_cons_self) deeper)
        · exact List.mem_cons_of_mem _ (ih piece (pieces ▸ List.mem_cons_of_mem _ later) inside)

theorem splitAt_of_not_mem (mark : Char) (text : List Char) (absent : mark ∉ text) :
    splitAt mark text = [text] := by
  induction text with
  | nil => rfl
  | cons c rest ih =>
    simp only [List.mem_cons, not_or] at absent
    simp only [splitAt, if_neg (Ne.symm absent.1), ih absent.2]

theorem splitAt_append (mark : Char) (front back : List Char) :
    splitAt mark (front ++ mark :: back) = splitAt mark front ++ splitAt mark back := by
  induction front with
  | nil => simp [splitAt]
  | cons c front ih =>
    by_cases cut : c = mark
    · simp [splitAt, cut, ih]
    · cases pieces : splitAt mark front with
      | nil => exact absurd pieces (splitAt_ne_nil mark front)
      | cons first others => simp [splitAt, cut, ih, pieces]

theorem splitAt_append_cons (mark : Char) (piece text : List Char) (absent : mark ∉ piece) :
    splitAt mark (piece ++ mark :: text) = piece :: splitAt mark text := by
  rw [splitAt_append, splitAt_of_not_mem mark piece absent, List.singleton_append]

theorem joinWith_cons_cons (separator first second : List Char) (rest : List (List Char)) :
    joinWith separator (first :: second :: rest) =
      first ++ separator ++ joinWith separator (second :: rest) := rfl

theorem mem_joinWith {separator : List Char} {pieces : List (List Char)} {c : Char}
    (inside : c ∈ joinWith separator pieces) : c ∈ separator ∨ ∃ piece ∈ pieces, c ∈ piece := by
  induction pieces with
  | nil => cases inside
  | cons first rest ih =>
    cases rest with
    | nil => exact Or.inr ⟨first, List.mem_cons_self, inside⟩
    | cons second others =>
      rw [joinWith_cons_cons, List.mem_append, List.mem_append] at inside
      rcases inside with (own | between) | later
      · exact Or.inr ⟨first, List.mem_cons_self, own⟩
      · exact Or.inl between
      · rcases ih later with between | ⟨piece, member, deeper⟩
        · exact Or.inl between
        · exact Or.inr ⟨piece, List.mem_cons_of_mem _ member, deeper⟩

theorem joinWith_append (separator : List Char) (front back : List (List Char)) (filled : front ≠ [])
    (more : back ≠ []) :
    joinWith separator (front ++ back) =
      joinWith separator front ++ separator ++ joinWith separator back := by
  induction front with
  | nil => exact absurd rfl filled
  | cons first rest ih =>
    cases rest with
    | nil =>
      cases back with
      | nil => exact absurd rfl more
      | cons second others => simp [joinWith]
    | cons second others =>
      rw [List.cons_append, List.cons_append, joinWith_cons_cons, ← List.cons_append,
        ih (List.cons_ne_nil _ _), joinWith_cons_cons]
      simp only [List.append_assoc]

theorem splitAt_joinWith (mark : Char) (pieces : List (List Char)) (filled : pieces ≠ [])
    (clean : ∀ piece ∈ pieces, mark ∉ piece) : splitAt mark (joinWith [mark] pieces) = pieces := by
  induction pieces with
  | nil => exact absurd rfl filled
  | cons first rest ih =>
    cases rest with
    | nil => exact splitAt_of_not_mem mark first (clean first List.mem_cons_self)
    | cons second others =>
      rw [joinWith_cons_cons, List.append_assoc, List.singleton_append,
        splitAt_append_cons mark first _ (clean first List.mem_cons_self),
        ih (List.cons_ne_nil _ _) (fun piece member => clean piece (List.mem_cons_of_mem _ member))]

theorem joinWith_splitAt (mark : Char) (text : List Char) : joinWith [mark] (splitAt mark text) = text := by
  induction text with
  | nil => rfl
  | cons c rest ih =>
    cases pieces : splitAt mark rest with
    | nil => exact absurd pieces (splitAt_ne_nil mark rest)
    | cons first others =>
      rw [pieces] at ih
      by_cases cut : c = mark
      · rw [splitAt, if_pos cut, pieces, joinWith_cons_cons, ih, cut]
        rfl
      · simp only [splitAt, if_neg cut, pieces]
        rw [← ih]
        cases others <;> rfl

/-- An ending without the mark is an ending of the last piece. -/
theorem splitAt_suffix {mark : Char} {ending text : List Char} (absent : mark ∉ ending)
    (ends : ending <:+ text) :
    ∃ front last, splitAt mark text = front ++ [last] ∧ mark ∉ last ∧ ending <:+ last := by
  induction text with
  | nil => exact ⟨[], [], rfl, List.not_mem_nil, ends⟩
  | cons c rest ih =>
    rcases List.suffix_cons_iff.mp ends with whole | inside
    · subst whole
      exact ⟨[], c :: rest, splitAt_of_not_mem mark _ absent, absent, List.suffix_refl _⟩
    · obtain ⟨front, last, pieces, clean, lastEnds⟩ := ih inside
      by_cases cut : c = mark
      · exact ⟨[] :: front, last, by simp [splitAt, cut, pieces], clean, lastEnds⟩
      · cases front with
        | nil =>
          refine ⟨[], c :: last, by simp [splitAt, cut, pieces], ?_, lastEnds.trans (List.suffix_cons c last)⟩
          simpa [Ne.symm cut] using clean
        | cons first others =>
          exact ⟨(c :: first) :: others, last, by simp [splitAt, cut, pieces], clean, lastEnds⟩

/-! Lines. -/

/-- The lines of a text, without the newlines between them. -/
def lines (text : List Char) : List (List Char) :=
  splitAt '\n' text

theorem lines_single {line : List Char} (oneLine : '\n' ∉ line) : lines line = [line] :=
  splitAt_of_not_mem '\n' line oneLine

theorem lines_append {line : List Char} (oneLine : '\n' ∉ line) (rest : List Char) :
    lines (line ++ '\n' :: rest) = line :: lines rest :=
  splitAt_append_cons '\n' line rest oneLine

theorem lines_cons {c : Char} (visible : c ≠ '\n') (text : List Char) :
    ∃ first others, lines text = first :: others ∧ lines (c :: text) = (c :: first) :: others := by
  cases cut : splitAt '\n' text with
  | nil => exact absurd cut (splitAt_ne_nil '\n' text)
  | cons first others => exact ⟨first, others, cut, by simp [lines, splitAt, visible, cut]⟩

/-- A text is one line, or one line and a text below it. -/
@[elab_as_elim]
theorem lines_induction {motive : List Char → Prop} (text : List Char)
    (last : ∀ line, '\n' ∉ line → motive line)
    (more : ∀ line rest, '\n' ∉ line → motive rest → motive (line ++ '\n' :: rest)) : motive text := by
  -- The part of the line that is already passed stands in front.
  have general : ∀ text line : List Char, '\n' ∉ line → motive (line ++ text) := by
    intro text
    induction text with
    | nil =>
      intro line oneLine
      rw [List.append_nil]
      exact last line oneLine
    | cons c text ih =>
      intro line oneLine
      by_cases newline : c = '\n'
      · subst newline
        exact more line text oneLine (ih [] (by simp))
      · have longer := ih (line ++ [c]) (by simp [oneLine, Ne.symm newline])
        rwa [List.append_assoc, List.singleton_append] at longer
  exact general text [] (by simp)

theorem length_lines (text : List Char) : (lines text).length = text.count '\n' + 1 := by
  induction text using lines_induction with
  | last line oneLine =>
    rw [lines_single oneLine, List.count_eq_zero.mpr oneLine]
    rfl
  | more line rest oneLine ih =>
    rw [lines_append oneLine, List.length_cons, ih, List.count_append, List.count_eq_zero.mpr oneLine,
      List.count_cons_self]
    omega

/-! Trimming. -/

theorem dropWhile_of_head? {drop : Char → Bool} {text : List Char} (kept : text.head?.any drop = false) :
    text.dropWhile drop = text := by
  cases text with
  | nil => rfl
  | cons c rest =>
    rw [List.head?_cons, Option.any_some] at kept
    rw [List.dropWhile_cons, if_neg (by simp [kept])]

theorem head?_dropWhile (drop : Char → Bool) (text : List Char) :
    (text.dropWhile drop).head?.any drop = false := by
  induction text with
  | nil => rfl
  | cons c rest ih =>
    rw [List.dropWhile_cons]
    split
    next => exact ih
    next kept => simpa using kept

theorem trimBy_eq_self {drop : Char → Bool} {s : List Char} (starts : s.head?.any drop = false)
    (ends : s.getLast?.any drop = false) : trimBy drop s = s := by
  rw [trimBy, trimEndBy, dropWhile_of_head? starts, dropWhile_of_head? (by simpa using ends),
    List.reverse_reverse]

theorem dropWhile_congr {drop other : Char → Bool} {text : List Char}
    (same : ∀ c ∈ text, drop c = other c) : text.dropWhile drop = text.dropWhile other := by
  induction text with
  | nil => rfl
  | cons c rest ih =>
    obtain ⟨here, later⟩ := List.forall_mem_cons.mp same
    rw [List.dropWhile_cons, List.dropWhile_cons, here, ih later]

theorem trimBy_congr {drop other : Char → Bool} {text : List Char}
    (same : ∀ c ∈ text, drop c = other c) : trimBy drop text = trimBy other text := by
  have left : text.dropWhile drop = text.dropWhile other := dropWhile_congr same
  have right : ∀ c ∈ (text.dropWhile other).reverse, drop c = other c := fun c member =>
    same c ((List.dropWhile_suffix other).subset (List.mem_reverse.mp member))
  rw [trimBy, trimBy, trimEndBy, trimEndBy, left, dropWhile_congr right]

theorem trimEndBy_append_of_dropped {drop : Char → Bool} (text : List Char) {right : List Char}
    (dropped : ∀ c ∈ right, drop c = true) : trimEndBy drop (text ++ right) = trimEndBy drop text := by
  have reversed : ∀ c ∈ right.reverse, drop c = true := fun c member => dropped c (List.mem_reverse.mp member)
  rw [trimEndBy, List.reverse_append, List.dropWhile_append_of_pos reversed, trimEndBy]

theorem trimBy_append_of_dropped {drop : Char → Bool} (text : List Char) {right : List Char}
    (dropped : ∀ c ∈ right, drop c = true) : trimBy drop (text ++ right) = trimBy drop text := by
  rw [trimBy, trimBy, List.dropWhile_append]
  split
  next empty => rw [List.isEmpty_iff.mp empty, List.dropWhile_eq_nil_iff.mpr dropped]
  next => exact trimEndBy_append_of_dropped _ dropped

theorem trimBy_eq_nil_iff (drop : Char → Bool) (text : List Char) :
    trimBy drop text = [] ↔ ∀ c ∈ text, drop c = true := by
  rw [trimBy, trimEndBy, List.reverse_eq_nil_iff, List.dropWhile_eq_nil_iff]
  constructor
  · intro dropped
    -- The first character that is left would be one to drop.
    have head := head?_dropWhile drop text
    cases left : text.dropWhile drop with
    | nil => exact List.dropWhile_eq_nil_iff.mp left
    | cons c rest =>
      rw [left] at head dropped
      have here : drop c = true := dropped c (by simp)
      simp [here] at head
  · intro dropped
    simp [List.dropWhile_eq_nil_iff.mpr dropped]

/-- Trimming leaves the part between two runs of characters that are dropped. -/
theorem trimBy_eq_iff {drop : Char → Bool} {text part : List Char} (filled : part ≠ []) :
    trimBy drop text = part ↔ ∃ left right, text = left ++ (part ++ right) ∧
      (∀ c ∈ left ++ right, drop c = true) ∧ part.head?.any drop = false ∧ part.getLast?.any drop = false := by
  constructor
  · intro trimmed
    let rest := text.dropWhile drop
    have whole : rest = part ++ (rest.reverse.takeWhile drop).reverse := by
      rw [← trimmed, trimBy, trimEndBy, ← List.reverse_append, List.takeWhile_append_dropWhile,
        List.reverse_reverse]
    refine ⟨text.takeWhile drop, (rest.reverse.takeWhile drop).reverse, ?_, ?_, ?_, ?_⟩
    · rw [← whole, List.takeWhile_append_dropWhile]
    · intro c member
      rcases List.mem_append.mp member with left | right
      · exact List.mem_takeWhile_imp left
      · exact List.mem_takeWhile_imp (List.mem_reverse.mp right)
    · have head := head?_dropWhile drop text
      rw [show text.dropWhile drop = _ from whole, List.head?_append_of_ne_nil _ filled] at head
      exact head
    · rw [← trimmed, trimBy, trimEndBy, List.getLast?_reverse]
      exact head?_dropWhile drop rest.reverse
  · intro parts
    obtain ⟨left, right, rfl, dropped, starts, ends⟩ := parts
    have middle : (part ++ right).head?.any drop = false := by
      rw [List.head?_append_of_ne_nil _ filled]
      exact starts
    rw [trimBy, List.dropWhile_append_of_pos fun c member => dropped c (List.mem_append_left _ member),
      dropWhile_of_head? middle,
      trimEndBy_append_of_dropped part fun c member => dropped c (List.mem_append_right _ member)]
    have kept := trimBy_eq_self starts ends
    rwa [trimBy, dropWhile_of_head? starts] at kept

end SheetReach.Text
