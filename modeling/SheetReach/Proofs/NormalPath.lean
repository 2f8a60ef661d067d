import SheetReach.Proofs.PathForm

/-! Laws of normalising. Exactly the normal paths are left alone, every path becomes one of them, and a
directory may be normalised before or after a path is joined to it: what is joined is worked off on the
stack of names that the directory leaves, and the slashes in front are the directory's in both cases. -/
namespace SheetReach.Path

/-- The path begins with two slashes and no third one. -/
def TwoSlashed (path : Path) : Prop :=
  ['/', '/'] <+: path ∧ ¬ ['/', '/', '/'] <+: path

theorem rootMark_eq_two_iff (path : Path) : rootMark path = ['/', '/'] ↔ TwoSlashed path := by
  rw [rootMark_eq]
  by_cases two : ['/', '/'] <+: path ∧ ¬ ['/', '/', '/'] <+: path
  · rw [if_pos two]
    exact iff_of_true rfl two
  · rw [if_neg two]
    exact iff_of_false (by decide) two

theorem normalize_eq_self_iff (cwd path : Path) : normalize cwd path = path ↔ Normal path := by
  constructor
  · intro same
    rw [← same]
    exact normalize_normal cwd path
  · intro normal
    obtain ⟨mark, names, marked, legal, rfl⟩ := normal
    exact normalize_spell cwd mark names marked legal

theorem rootMark_form (path : Path) : rootMark (form path) = rootMark path :=
  rootMark_spell _ _ (rootMark_isMark path) (collapse_legal path)

theorem collapse_form (path : Path) : collapse (form path) = collapse path :=
  collapse_spell _ _ (rootMark_isMark path) (collapse_legal path)

theorem isAbsolute_form (path : Path) : isAbsolute (form path) = true :=
  isAbsolute_spell _ _ (rootMark_isMark path)

/-- A relative path is worked off on the names that are left of the directory it is joined to. -/
theorem form_join_relative {rest : Path} (relative : isAbsolute rest = false) (base : Path) :
    form (join base rest) =
      spell (rootMark base) ((names rest).foldl push (collapse base).reverse).reverse := by
  have apart : rest.head? ≠ some '/' := by simpa [isAbsolute] using relative
  have worked : collapse (joint base ++ rest) =
      ((names rest).foldl push (collapse base).reverse).reverse := by
    rw [collapse_eq, collapse_eq, names_joint_append, List.foldl_append, List.reverse_reverse]
  rw [join_relative relative, form, rootMark_joint_append apart, worked]

theorem form_join_form (base rest : Path) : form (join (form base) rest) = form (join base rest) := by
  cases rooted : isAbsolute rest with
  | true => rw [join_absolute rooted, join_absolute rooted]
  | false =>
    rw [form_join_relative rooted, form_join_relative rooted, rootMark_form, collapse_form]

/-- Going up from a directory takes its last name away, if there is one. -/
theorem form_join_up (base : Path) : form (join base up) = spell (rootMark base) (collapse base).dropLast := by
  have taken : push (collapse base).reverse up = (collapse base).reverse.tail := rfl
  rw [form_join_relative rfl, show names up = [up] from rfl, List.foldl_cons, List.foldl_nil, taken,
    List.tail_reverse, List.reverse_reverse]

/-- Legal names are put behind the names of the directory. -/
theorem form_join_legal {way : List Name} (legal : ∀ name ∈ way, Legal name) (base : Path) :
    form (join base (Text.joinWith ['/'] way)) = spell (rootMark base) (collapse base ++ way) := by
  have relative : isAbsolute (Text.joinWith ['/'] way) = false := by
    simpa [isAbsolute] using joinWith_head way legal
  have pieces : names (Text.joinWith ['/'] way) = way := names_joinWith way legal
  rw [form_join_relative relative, pieces, foldl_push_legal way _ legal, List.reverse_append,
    List.reverse_reverse, List.reverse_reverse]

theorem normalize_join_normalize (cwd base rest : Path) :
    normalize cwd (join (normalize cwd base) rest) = normalize cwd (join base rest) :=
  calc
    normalize cwd (join (normalize cwd base) rest)
        = form (join (join cwd (form (join cwd base))) rest) := by
          rw [normalize_eq_form, normalize_eq_form, join_assoc]
    _ = form (join (form (join cwd base)) rest) := by
          rw [join_absolute (isAbsolute_form _)]
    _ = form (join (join cwd base) rest) := form_join_form _ rest
    _ = normalize cwd (join base rest) := by
          rw [join_assoc, normalize_eq_form]

/-- From every working directory, normalising is idempotent, and exactly the normal paths are its fixed
points. Its value is one slash or two in front of legal names, two exactly if the path has two seen from the
working directory; one step further up the last name is gone, and one step further down there is one name
more. And it makes no difference whether a directory is normalised before a path is joined to it. -/
theorem normalize_laws (cwd : Path) :
    (∀ path, normalize cwd (normalize cwd path) = normalize cwd path) ∧
    (∀ path, normalize cwd path = path ↔ Normal path) ∧
    (∀ path, ∃ mark names, normalize cwd path = spell mark names ∧
      (mark = ['/'] ∨ mark = ['/', '/']) ∧ (mark = ['/', '/'] ↔ TwoSlashed (join cwd path)) ∧
      (∀ name ∈ names, name ≠ [] ∧ '/' ∉ name ∧ name ≠ ['.'] ∧ name ≠ ['.', '.']) ∧
      normalize cwd (join path ['.', '.']) = spell mark names.dropLast ∧
      ∀ name, Legal name → normalize cwd (join path name) = spell mark (names ++ [name])) ∧
    ∀ base rest, normalize cwd (join (normalize cwd base) rest) = normalize cwd (join base rest) := by
  refine ⟨fun path => ?_, normalize_eq_self_iff cwd, fun path => ?_, normalize_join_normalize cwd⟩
  · exact (normalize_eq_self_iff cwd _).mpr (normalize_normal cwd path)
  · refine ⟨rootMark (join cwd path), collapse (join cwd path), normalize_eq_form cwd path,
      rootMark_isMark _, rootMark_eq_two_iff _, fun name member => ?_, ?_, fun name legal => ?_⟩
    · have legal := collapse_legal _ name member
      exact ⟨legal.nonempty, legal.unslashed, legal.notHere, legal.notUp⟩
    · rw [normalize_eq_form, ← join_assoc]
      exact form_join_up (join cwd path)
    · rw [normalize_eq_form, ← join_assoc]
      exact form_join_legal (List.forall_mem_singleton.mpr legal) (join cwd path)

/-- Two slashes in front, dots that lead above the root, doubled slashes and an absolute second part. -/
theorem winding_normalize_laws :
    Legal "y".toList ∧
    (∃ mark names, normalize "/w".toList "//x/../..//v".toList = spell mark names ∧
      normalize "/w".toList (join "//x/../..//v".toList "y".toList) = spell mark (names ++ ["y".toList])) ∧
    normalize "/w".toList (join (normalize "/w".toList "..//a/.".toList) "../..//b/".toList) = "/b".toList ∧
    normalize "/w".toList (join (normalize "/w".toList []) "///z".toList) = "/z".toList := by
  have legal : Legal "y".toList := by decide +kernel
  obtain ⟨-, -, value, joined⟩ := normalize_laws "/w".toList
  obtain ⟨mark, names, spelled, -, -, -, -, down⟩ := value "//x/../..//v".toList
  refine ⟨legal, ⟨mark, names, spelled, down _ legal⟩, ?_⟩
  rw [joined, joined]
  decide +kernel

end SheetReach.Path
