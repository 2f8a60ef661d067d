import Mathlib.Data.Char
import Mathlib.Data.List.Lex
import Mathlib.Data.List.Sort
import SheetReach.Text.Order

/-! Sorting texts puts them in code-point order, which is the lexicographic order of lists of
characters, and only moves them. -/
namespace SheetReach.Text

theorem precedes_iff_not_lt (first second : List Char) :
    precedes first second = true ↔ ¬second < first := by
  induction first generalizing second with
  | nil => simp [precedes]
  | cons a s ih =>
    cases second with
    | nil => simp [precedes]
    | cons b t =>
      rw [precedes, List.cons_lt_cons_iff]
      by_cases same : a = b
      · simp [same, ih]
      · have order : a.toNat < b.toNat ↔ ¬b < a := by
          rw [not_lt, le_iff_lt_or_eq, or_iff_left same]
          rfl
        simp [same, Ne.symm same, order]

theorem precedes_iff_le (first second : List Char) : precedes first second = true ↔ first ≤ second :=
  (precedes_iff_not_lt first second).trans not_lt

theorem insertBy_precedes (item : List Char) (texts : List (List Char)) :
    insertBy precedes item texts = texts.orderedInsert (· ≤ ·) item := by
  induction texts with
  | nil => rfl
  | cons head rest ih =>
    by_cases before : item ≤ head
    · simp [insertBy, List.orderedInsert, (precedes_iff_le item head).mpr before, before]
    · have after : precedes item head = false := by
        rw [← Bool.not_eq_true, precedes_iff_le]
        exact before
      simp [insertBy, List.orderedInsert, after, before, ih]

theorem sort_eq_insertionSort (texts : List (List Char)) :
    sort texts = texts.insertionSort (· ≤ ·) := by
  induction texts with
  | nil => rfl
  | cons head rest ih =>
    rw [sort, sortBy, List.foldr_cons, ← sortBy, ← sort, ih, insertBy_precedes]
    rfl

theorem sort_perm (texts : List (List Char)) : (sort texts).Perm texts := by
  rw [sort_eq_insertionSort]
  exact List.perm_insertionSort _ texts

@[simp] theorem mem_sort (texts : List (List Char)) (text : List Char) :
    text ∈ sort texts ↔ text ∈ texts :=
  (sort_perm texts).mem_iff

theorem sort_pairwise (texts : List (List Char)) : (sort texts).Pairwise (· ≤ ·) := by
  rw [sort_eq_insertionSort]
  exact List.pairwise_insertionSort _ texts

/-- Sorting forgets the order before. -/
theorem sort_eq_of_perm {first second : List (List Char)} (moved : first.Perm second) :
    sort first = sort second := by
  have same : (sort first).Perm (sort second) :=
    (sort_perm first).trans (moved.trans (sort_perm second).symm)
  exact same.eq_of_pairwise' (sort_pairwise first) (sort_pairwise second)

/-- Texts without repetition are sorted into a strictly increasing list. -/
theorem sort_strict (texts : List (List Char)) (distinct : texts.Nodup) :
    (sort texts).Pairwise (· < ·) := by
  have apart : (sort texts).Pairwise (· ≠ ·) := (sort_perm texts).nodup_iff.mpr distinct
  exact (sort_pairwise texts).imp₂ (fun _ _ le ne => lt_of_le_of_ne le ne) apart

end SheetReach.Text
