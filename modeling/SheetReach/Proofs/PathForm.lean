import SheetReach.Path
import SheetReach.Proofs.TextParts

/-! The normal form of paths: one slash or two in front, then legal names with one slash between them.
Normalising gives this form and leaves it alone, and the form tells its slashes and names. -/
namespace SheetReach.Path

theorem legal_append {front back : List Name} (frontLegal : ∀ name ∈ front, Legal name)
    (backLegal : ∀ name ∈ back, Legal name) : ∀ name ∈ front ++ back, Legal name := by
  intro name member
  rcases List.mem_append.mp member with old | new
  · exact frontLegal name old
  · exact backLegal name new

theorem legal_concat {names : List Name} (legal : ∀ name ∈ names, Legal name) {last : Name}
    (legalLast : Legal last) : ∀ name ∈ names ++ [last], Legal name :=
  legal_append legal (by simpa using legalLast)

/-- One slash, or exactly two. -/
def IsMark (mark : Path) : Prop :=
  mark = ['/'] ∨ mark = ['/', '/']

/-- The path with these slashes in front of these names. -/
def spell (mark : Path) (names : List Name) : Path :=
  mark ++ Text.joinWith ['/'] names

def Normal (path : Path) : Prop :=
  ∃ mark names, IsMark mark ∧ (∀ name ∈ names, Legal name) ∧ path = spell mark names

theorem rootMark_isMark (path : Path) : IsMark (rootMark path) := by
  unfold rootMark
  split
  next => exact Or.inl rfl
  next => exact Or.inr rfl
  next => exact Or.inl rfl

theorem joinWith_head (names : List Name) (legal : ∀ name ∈ names, Legal name) :
    (Text.joinWith ['/'] names).head? ≠ some '/' := by
  cases names with
  | nil => simp [Text.joinWith]
  | cons first rest =>
    have legalFirst := legal first List.mem_cons_self
    cases first with
    | nil => exact absurd rfl legalFirst.nonempty
    | cons c others =>
      have apart : c ≠ '/' := fun same => legalFirst.unslashed (same ▸ List.mem_cons_self)
      cases rest <;> simpa [Text.joinWith] using apart

theorem rootMark_spell (mark : Path) (names : List Name) (marked : IsMark mark)
    (legal : ∀ name ∈ names, Legal name) : rootMark (spell mark names) = mark := by
  have head := joinWith_head names legal
  unfold spell
  generalize Text.joinWith ['/'] names = text at head ⊢
  rcases marked with rfl | rfl
  · unfold rootMark
    split
    next same =>
      simp only [List.cons_append, List.nil_append, List.cons.injEq, true_and] at same
      exact absurd (by simp [same]) head
    next same =>
      simp only [List.cons_append, List.nil_append, List.cons.injEq, true_and] at same
      exact absurd (by simp [same]) head
    next => rfl
  · unfold rootMark
    split
    next same =>
      simp only [List.cons_append, List.nil_append, List.cons.injEq, true_and] at same
      exact absurd (by simp [same]) head
    next => rfl
    next unmarked => exact absurd rfl (unmarked text)

theorem isAbsolute_spell (mark : Path) (names : List Name) (marked : IsMark mark) :
    isAbsolute (spell mark names) = true := by
  rcases marked with rfl | rfl <;> rfl

theorem names_joinWith (names : List Name) (legal : ∀ name ∈ names, Legal name) :
    (Text.splitAt '/' (Text.joinWith ['/'] names)).filter (· ≠ []) = names := by
  cases names with
  | nil => rfl
  | cons first rest =>
    rw [Text.splitAt_joinWith '/' _ (List.cons_ne_nil _ _) (fun name member => (legal name member).unslashed)]
    apply List.filter_eq_self.mpr
    intro name member
    simpa using (legal name member).nonempty

theorem names_spell (mark : Path) (names : List Name) (marked : IsMark mark)
    (legal : ∀ name ∈ names, Legal name) : Path.names (spell mark names) = names := by
  have rest := names_joinWith names legal
  rcases marked with rfl | rfl
  · simpa [Path.names, spell, Text.splitAt] using rest
  · simpa [Path.names, spell, Text.splitAt] using rest

theorem spell_injective (firstMark secondMark : Path) (firstNames secondNames : List Name)
    (firstMarked : IsMark firstMark) (secondMarked : IsMark secondMark)
    (firstLegal : ∀ name ∈ firstNames, Legal name) (secondLegal : ∀ name ∈ secondNames, Legal name)
    (same : spell firstMark firstNames = spell secondMark secondNames) :
    firstMark = secondMark ∧ firstNames = secondNames := by
  constructor
  · rw [← rootMark_spell firstMark firstNames firstMarked firstLegal, same,
      rootMark_spell secondMark secondNames secondMarked secondLegal]
  · rw [← names_spell firstMark firstNames firstMarked firstLegal, same,
      names_spell secondMark secondNames secondMarked secondLegal]

/-! Collapsing works name by name, and empty pieces never matter. -/

theorem foldl_push_names (parts : List Name) (stack : List Name) :
    (parts.filter (· ≠ [])).foldl push stack = parts.foldl push stack := by
  induction parts generalizing stack with
  | nil => rfl
  | cons part rest ih =>
    by_cases empty : part = []
    · simpa [empty, push] using ih stack
    · simpa [empty] using ih (push stack part)

theorem collapse_eq (path : Path) : collapse path = ((Path.names path).foldl push []).reverse := by
  rw [collapse, Path.names, foldl_push_names]

theorem push_legal (stack : List Name) (name : Name) (legal : Legal name) :
    push stack name = name :: stack := by
  simp [push, legal.nonempty, legal.notHere, legal.notUp]

theorem foldl_push_legal (names stack : List Name) (legal : ∀ name ∈ names, Legal name) :
    names.foldl push stack = names.reverse ++ stack := by
  induction names generalizing stack with
  | nil => rfl
  | cons name rest ih =>
    rw [List.foldl_cons, push_legal stack name (legal name List.mem_cons_self),
      ih _ (fun other member => legal other (List.mem_cons_of_mem _ member))]
    simp

theorem collapse_spell (mark : Path) (names : List Name) (marked : IsMark mark)
    (legal : ∀ name ∈ names, Legal name) : collapse (spell mark names) = names := by
  rw [collapse_eq, names_spell mark names marked legal, foldl_push_legal names [] legal]
  simp

theorem push_all_legal (stack : List Name) (part : Name) (unslashed : '/' ∉ part)
    (legal : ∀ name ∈ stack, Legal name) : ∀ name ∈ push stack part, Legal name := by
  unfold push
  split
  next => exact legal
  next kept =>
    split
    next => exact fun name member => legal name (List.mem_of_mem_tail member)
    next notUp =>
      simp only [Bool.or_eq_true, decide_eq_true_eq, not_or] at kept
      intro name member
      rcases List.mem_cons.mp member with rfl | old
      · exact ⟨kept.1, unslashed, kept.2, notUp⟩
      · exact legal name old

theorem collapse_legal (path : Path) : ∀ name ∈ collapse path, Legal name := by
  have general : ∀ (parts stack : List Name), (∀ part ∈ parts, '/' ∉ part) →
      (∀ name ∈ stack, Legal name) → ∀ name ∈ parts.foldl push stack, Legal name := by
    intro parts
    induction parts with
    | nil => exact fun _ _ legal => legal
    | cons part rest ih =>
      intro stack clean legal
      exact ih _ (fun other member => clean other (List.mem_cons_of_mem _ member))
        (push_all_legal stack part (clean part List.mem_cons_self) legal)
  intro name member
  rw [collapse, List.mem_reverse] at member
  exact general _ [] (fun part => Text.not_mem_of_mem_splitAt '/' path part) (by simp) name member

theorem normalize_normal (cwd path : Path) : Normal (normalize cwd path) :=
  ⟨_, _, rootMark_isMark _, collapse_legal _, rfl⟩

/-- Normal paths are left as they are, wherever they are seen from. -/
theorem normalize_spell (cwd mark : Path) (names : List Name) (marked : IsMark mark)
    (legal : ∀ name ∈ names, Legal name) : normalize cwd (spell mark names) = spell mark names := by
  simp only [normalize, isAbsolute_spell mark names marked, ↓reduceIte,
    rootMark_spell mark names marked legal, collapse_spell mark names marked legal]
  rfl

theorem spell_concat (mark : Path) (names : List Name) (name : Name) (marked : IsMark mark) :
    ∃ front, spell mark (names ++ [name]) = front ++ '/' :: name := by
  cases names with
  | nil =>
    rcases marked with rfl | rfl
    · exact ⟨[], rfl⟩
    · exact ⟨['/'], rfl⟩
  | cons first rest =>
    refine ⟨mark ++ Text.joinWith ['/'] (first :: rest), ?_⟩
    rw [spell, Text.joinWith_append _ _ _ (List.cons_ne_nil _ _) (List.cons_ne_nil _ _)]
    simp [Text.joinWith]

theorem getLast_spell (mark : Path) (names : List Name) (marked : IsMark mark) (filled : names ≠ [])
    (legal : ∀ name ∈ names, Legal name) : (spell mark names).getLast? ≠ some '/' := by
  obtain ⟨others, last, rfl⟩ := List.eq_nil_or_concat' names |>.resolve_left filled
  have legalLast := legal last (by simp)
  obtain ⟨front, spelled⟩ := spell_concat mark others last marked
  rw [spelled, List.append_cons, List.getLast?_append_of_ne_nil _ legalLast.nonempty]
  intro slash
  exact legalLast.unslashed (List.mem_of_getLast? slash)

/-- An ending without a slash is an ending of the last name. -/
theorem suffix_name {ending : List Char} (unslashed : '/' ∉ ending) {mark : Path} {names : List Name}
    {name : Name} (marked : IsMark mark) (ends : ending <:+ spell mark (names ++ [name])) :
    ending <:+ name := by
  obtain ⟨front, spelled⟩ := spell_concat mark names name marked
  rw [spelled] at ends
  exact (Text.suffix_append_cons_iff unslashed front name).mp ends

theorem suffix_join (base rest : Path) : rest <:+ join base rest := by
  unfold join
  split
  next => exact List.suffix_refl rest
  next =>
    split
    next => exact List.suffix_append base rest
    next => exact ⟨base ++ ['/'], by simp⟩

/-- Normalising keeps an ending that only legal names have, wherever the path is seen from. -/
theorem suffix_normalize {ending : List Char} (unslashed : '/' ∉ ending)
    (solid : ∀ name, '/' ∉ name → ending <:+ name → Legal name) {cwd path : Path} (ends : ending <:+ path) :
    ending <:+ normalize cwd path := by
  have fullEnds : ending <:+ if isAbsolute path then path else join cwd path := by
    split
    next => exact ends
    next => exact ends.trans (suffix_join cwd path)
  unfold normalize
  generalize (if isAbsolute path then path else join cwd path) = full at fullEnds ⊢
  obtain ⟨front, last, pieces, clean, lastEnds⟩ := Text.splitAt_suffix unslashed fullEnds
  have collapsed : collapse full = (front.foldl push []).reverse ++ [last] := by
    rw [collapse, pieces, List.foldl_append, List.foldl_cons, List.foldl_nil,
      push_legal _ last (solid last clean lastEnds), List.reverse_cons]
  obtain ⟨before, spelled⟩ := spell_concat (rootMark full) (front.foldl push []).reverse last
    (rootMark_isMark full)
  change ending <:+ spell (rootMark full) (collapse full)
  rw [collapsed, spelled]
  exact lastEnds.trans ((List.suffix_cons '/' last).trans (List.suffix_append before _))

/-- Joining a normal path with a relative one puts the names behind each other. -/
theorem join_joinWith (mark : Path) (names way : List Name) (marked : IsMark mark)
    (legal : ∀ name ∈ names, Legal name) (legalWay : ∀ name ∈ way, Legal name) (filled : way ≠ []) :
    join (spell mark names) (Text.joinWith ['/'] way) = spell mark (names ++ way) := by
  have relative : isAbsolute (Text.joinWith ['/'] way) = false := by
    simpa [isAbsolute] using joinWith_head way legalWay
  cases names with
  | nil =>
    rcases marked with rfl | rfl <;> simp [join, relative, spell, Text.joinWith]
  | cons first rest =>
    have last := getLast_spell mark (first :: rest) marked (List.cons_ne_nil _ _) legal
    have nonempty : (spell mark (first :: rest)).isEmpty = false := by
      rcases marked with rfl | rfl <;> rfl
    have unended : ((spell mark (first :: rest)).isEmpty ||
        (spell mark (first :: rest)).getLast? == some '/') = false := by
      simpa [nonempty] using last
    rw [join, relative, if_neg Bool.false_ne_true, unended, if_neg Bool.false_ne_true, spell, spell,
      Text.joinWith_append _ _ _ (List.cons_ne_nil _ _) filled]
    simp

theorem join_spell (mark : Path) (names : List Name) (name : Name) (marked : IsMark mark)
    (legal : ∀ name ∈ names, Legal name) (legalName : Legal name) :
    join (spell mark names) name = spell mark (names ++ [name]) :=
  join_joinWith mark names [name] marked legal (by simpa using legalName) (List.cons_ne_nil _ _)

/-- The path of a way below a directory, name by name. -/
def under (root : Path) (way : List Name) : Path :=
  way.foldl join root

theorem under_spell (mark : Path) (names way : List Name) (marked : IsMark mark)
    (legal : ∀ name ∈ names, Legal name) (legalWay : ∀ name ∈ way, Legal name) :
    under (spell mark names) way = spell mark (names ++ way) := by
  induction way generalizing names with
  | nil => simp [under]
  | cons name rest ih =>
    have legalName := legalWay name List.mem_cons_self
    have step := join_spell mark names name marked legal legalName
    rw [under, List.foldl_cons, step, ← under, ih (names ++ [name]) (legal_concat legal legalName)]
    · simp
    · exact fun other member => legalWay other (List.mem_cons_of_mem _ member)

theorem tidy_spell (mark : Path) (names : List Name) (marked : IsMark mark)
    (legal : ∀ name ∈ names, Legal name) : tidy (spell mark names) = spell mark names := by
  have kept : names.filter (· ≠ here) = names := by
    apply List.filter_eq_self.mpr
    intro name member
    simpa using (legal name member).notHere
  have nonempty : (mark ++ Text.joinWith ['/'] names).isEmpty = false := by
    rcases marked with rfl | rfl <;> rfl
  simp only [tidy, isAbsolute_spell mark names marked, ↓reduceIte, rootMark_spell mark names marked legal,
    names_spell mark names marked legal, kept, nonempty, Bool.false_eq_true]
  rfl

theorem Normal.tidy_eq {path : Path} (normal : Normal path) : tidy path = path := by
  obtain ⟨mark, names, marked, legal, rfl⟩ := normal
  exact tidy_spell mark names marked legal

/-! Joining paths, and the form of what is joined. -/

/-- A directory as it stands in front of a relative path. -/
def joint (base : Path) : Path :=
  if base.isEmpty || base.getLast? == some '/' then base else base ++ ['/']

theorem join_absolute {rest : Path} (absolute : isAbsolute rest = true) (base : Path) :
    join base rest = rest :=
  if_pos absolute

theorem join_relative {rest : Path} (relative : isAbsolute rest = false) (base : Path) :
    join base rest = joint base ++ rest := by
  simp only [join, joint, relative, Bool.false_eq_true, ↓reduceIte]
  split <;> simp

theorem joint_cases (base : Path) :
    base = [] ∧ joint base = [] ∨
    (∃ front, base = front ++ ['/'] ∧ joint base = front ++ ['/']) ∨
    ∃ front c, base = front ++ [c] ∧ c ≠ '/' ∧ joint base = front ++ [c] ++ ['/'] := by
  rcases List.eq_nil_or_concat' base with rfl | ⟨front, c, rfl⟩
  · exact Or.inl ⟨rfl, rfl⟩
  · right
    by_cases slash : c = '/'
    · exact Or.inl ⟨front, by rw [slash], by simp [joint, slash]⟩
    · exact Or.inr ⟨front, c, rfl, slash, by simp [joint, slash]⟩

theorem joint_joint (base : Path) : joint (joint base) = joint base := by
  rcases joint_cases base with ⟨rfl, same⟩ | ⟨front, rfl, same⟩ | ⟨front, c, rfl, -, same⟩
  · rfl
  · rw [same, same]
  · rw [same]
    simp [joint]

theorem joint_append {rest : Path} (filled : rest ≠ []) (front : Path) :
    joint (front ++ rest) = front ++ joint rest := by
  obtain ⟨init, c, rfl⟩ := (List.eq_nil_or_concat' rest).resolve_left filled
  by_cases slash : c = '/' <;> simp [joint, slash, ← List.append_assoc]

theorem isAbsolute_append_eq {front : Path} (filled : front ≠ []) (rest : Path) :
    isAbsolute (front ++ rest) = isAbsolute front := by
  cases front with
  | nil => exact absurd rfl filled
  | cons c front => rfl

theorem isAbsolute_joint_append {base : Path} (filled : base ≠ []) (rest : Path) :
    isAbsolute (joint base ++ rest) = isAbsolute base := by
  rcases joint_cases base with ⟨empty, -⟩ | ⟨front, rfl, same⟩ | ⟨front, c, rfl, -, same⟩
  · exact absurd empty filled
  · rw [same, isAbsolute_append_eq filled]
  · rw [same, List.append_assoc, isAbsolute_append_eq filled]

theorem join_assoc (base middle rest : Path) : join (join base middle) rest = join base (join middle rest) := by
  cases rooted : isAbsolute rest with
  | true => rw [join_absolute rooted, join_absolute rooted, join_absolute rooted]
  | false =>
    rw [join_relative rooted, join_relative rooted]
    by_cases empty : middle = []
    · subst empty
      rw [join_relative rfl, List.append_nil, joint_joint]
      exact (join_relative rooted base).symm
    · have start := isAbsolute_joint_append empty rest
      cases absolute : isAbsolute middle with
      | true => rw [join_absolute absolute, join_absolute (start.trans absolute)]
      | false =>
        rw [join_relative absolute, join_relative (start.trans absolute), joint_append empty,
          List.append_assoc]

theorem join_append {front : Path} (filled : front ≠ []) (base rest : Path) :
    join base (front ++ rest) = join base front ++ rest := by
  have start := isAbsolute_append_eq filled rest
  cases absolute : isAbsolute front with
  | true => rw [join_absolute absolute, join_absolute (start.trans absolute)]
  | false => rw [join_relative absolute, join_relative (start.trans absolute), List.append_assoc]

/-- The normal form of a path that is seen from the root. -/
def form (path : Path) : Path :=
  spell (rootMark path) (collapse path)

theorem normalize_eq_form (cwd path : Path) : normalize cwd path = form (join cwd path) := by
  cases absolute : isAbsolute path with
  | true => simp only [normalize, absolute, ↓reduceIte, join_absolute absolute, form, spell]
  | false => simp only [normalize, absolute, Bool.false_eq_true, ↓reduceIte, form, spell]

theorem form_eq_spell_iff (path : Path) {mark : Path} {names : List Name} (marked : IsMark mark)
    (legal : ∀ name ∈ names, Legal name) :
    form path = spell mark names ↔ rootMark path = mark ∧ collapse path = names := by
  constructor
  · intro same
    exact spell_injective _ _ _ _ (rootMark_isMark path) marked (collapse_legal path) legal same
  · intro same
    rw [form, same.1, same.2]

theorem form_eq_form_iff (path other : Path) :
    form path = form other ↔ rootMark path = rootMark other ∧ collapse path = collapse other :=
  form_eq_spell_iff path (rootMark_isMark other) (collapse_legal other)

theorem rootMark_eq (path : Path) :
    rootMark path = if ['/', '/'] <+: path ∧ ¬ ['/', '/', '/'] <+: path then ['/', '/'] else ['/'] := by
  unfold rootMark
  split
  next => simp
  next more three =>
    have two : ¬ ['/', '/', '/'] <+: '/' :: '/' :: more := by
      intro starts
      obtain ⟨rest, same⟩ := starts
      exact three rest (by simpa using same.symm)
    rw [if_pos ⟨List.prefix_append ['/', '/'] more, two⟩]
  next _ single =>
    refine (if_neg ?_).symm
    intro starts
    obtain ⟨⟨rest, same⟩, -⟩ := starts
    exact single rest same.symm

/-- The slashes in front end at the first other character. -/
theorem rootMark_append {rest : Path} (apart : rest.head? ≠ some '/') (front : Path) :
    rootMark (front ++ rest) = rootMark front := by
  have slashes : ∀ (count : Nat) (front : Path),
      List.replicate count '/' <+: front ++ rest ↔ List.replicate count '/' <+: front := by
    intro count
    induction count with
    | zero => simp
    | succ count ih =>
      intro front
      cases front with
      | nil =>
        cases rest with
        | nil => rfl
        | cons c rest =>
          simp only [List.head?_cons, ne_eq, Option.some.injEq] at apart
          simp [List.replicate_succ, Ne.symm apart]
      | cons c front =>
        rw [List.cons_append, List.replicate_succ, List.cons_prefix_cons, List.cons_prefix_cons, ih]
  have two := slashes 2 front
  have three := slashes 3 front
  simp only [List.replicate] at two three
  rw [rootMark_eq, rootMark_eq]
  simp only [two, three]

theorem names_append (front back : Path) : names (front ++ '/' :: back) = names front ++ names back := by
  rw [names, Text.splitAt_append, List.filter_append]
  rfl

theorem names_slashes_append (count : Nat) (path : Path) :
    names (List.replicate count '/' ++ path) = names path := by
  induction count with
  | zero => rfl
  | succ count ih =>
    rw [List.replicate_succ, List.cons_append]
    exact (names_append [] _).trans ih

theorem names_legal {name : Name} (legal : Legal name) : names name = [name] := by
  rw [names, Text.splitAt_of_not_mem '/' name legal.unslashed]
  simp [legal.nonempty]

theorem names_joint_append (base rest : Path) : names (joint base ++ rest) = names base ++ names rest := by
  rcases joint_cases base with ⟨rfl, same⟩ | ⟨front, rfl, same⟩ | ⟨front, c, rfl, -, same⟩
  · rw [same]
    rfl
  · rw [same, List.append_assoc, List.singleton_append, names_append, names_append]
    simp [names, Text.splitAt]
  · rw [same, List.append_assoc, List.singleton_append, names_append]

theorem Legal.head? {name : Name} (legal : Legal name) : name.head? ≠ some '/' := by
  intro slash
  exact legal.unslashed (List.mem_of_head? slash)

theorem Legal.relative {name : Name} (legal : Legal name) : isAbsolute name = false := by
  simpa [isAbsolute] using legal.head?

theorem names_join {name : Name} (legal : Legal name) (base : Path) :
    names (join base name) = names base ++ [name] := by
  rw [join_relative legal.relative, names_joint_append, names_legal legal]

theorem isAbsolute_join_legal {base : Path} (filled : base ≠ []) {name : Name} (legal : Legal name) :
    isAbsolute (join base name) = isAbsolute base := by
  rw [join_relative legal.relative, isAbsolute_joint_append filled]

theorem getLast_join {name : Name} (legal : Legal name) (base : Path) :
    (join base name).getLast? ≠ some '/' := by
  rw [join_relative legal.relative, List.getLast?_append_of_ne_nil _ legal.nonempty]
  intro slash
  exact legal.unslashed (List.mem_of_getLast? slash)

theorem rootMark_joint_append {name : Name} (apart : name.head? ≠ some '/') (base : Path) :
    rootMark (joint base ++ name) = rootMark base := by
  rw [rootMark_append apart]
  rcases joint_cases base with ⟨rfl, same⟩ | ⟨front, rfl, same⟩ | ⟨front, c, rfl, solid, same⟩
  · rw [same]
  · rw [same]
  · have head (rest : Path) : (c :: rest).head? ≠ some '/' := by simpa using solid
    rw [same, List.append_assoc, List.singleton_append, rootMark_append (head _), rootMark_append (head _)]

theorem collapse_join {name : Name} (legal : Legal name) (base : Path) :
    collapse (join base name) = collapse base ++ [name] := by
  rw [collapse_eq, collapse_eq, names_join legal, List.foldl_append, List.foldl_cons, List.foldl_nil,
    push_legal _ name legal, List.reverse_cons]

/-! No form of a path brings in a character but slashes and dots. -/

theorem mem_spell {mark : Path} {names : List Name} (marked : IsMark mark) {c : Char}
    (inside : c ∈ spell mark names) : c = '/' ∨ ∃ name ∈ names, c ∈ name := by
  rcases List.mem_append.mp inside with front | joined
  · left
    rcases marked with rfl | rfl <;> simpa using front
  · exact (Text.mem_joinWith joined).imp_left List.mem_singleton.mp

theorem mem_join {base rest : Path} {c : Char} (inside : c ∈ join base rest) :
    c = '/' ∨ c ∈ base ∨ c ∈ rest := by
  unfold join at inside
  split at inside
  next => exact Or.inr (Or.inr inside)
  next =>
    split at inside
    next => exact Or.inr (List.mem_append.mp inside)
    next =>
      rw [List.mem_append, List.mem_cons] at inside
      tauto

theorem mem_under {base : Path} {way : List Name} {c : Char} (inside : c ∈ under base way) :
    c = '/' ∨ c ∈ base ∨ ∃ name ∈ way, c ∈ name := by
  induction way generalizing base with
  | nil => exact Or.inr (Or.inl inside)
  | cons name rest ih =>
    rcases ih inside with slash | joined | ⟨other, member, deeper⟩
    · exact Or.inl slash
    · rcases mem_join joined with slash | old | new
      · exact Or.inl slash
      · exact Or.inr (Or.inl old)
      · exact Or.inr (Or.inr ⟨name, List.mem_cons_self, new⟩)
    · exact Or.inr (Or.inr ⟨other, List.mem_cons_of_mem name member, deeper⟩)

theorem mem_foldl_push (parts stack : List Name) {name : Name} (member : name ∈ parts.foldl push stack) :
    name ∈ stack ∨ name ∈ parts := by
  induction parts generalizing stack with
  | nil => exact Or.inl member
  | cons part rest ih =>
    rcases ih _ member with early | later
    · unfold push at early
      split at early
      next => exact Or.inl early
      next =>
        split at early
        next => exact Or.inl (List.mem_of_mem_tail early)
        next =>
          rcases List.mem_cons.mp early with rfl | old
          · exact Or.inr List.mem_cons_self
          · exact Or.inl old
    · exact Or.inr (List.mem_cons_of_mem _ later)

theorem mem_normalize {cwd path : Path} {c : Char} (inside : c ∈ normalize cwd path) :
    c = '/' ∨ c ∈ cwd ∨ c ∈ path := by
  rcases mem_spell (rootMark_isMark _) inside with slash | ⟨name, member, deeper⟩
  · exact Or.inl slash
  · rw [collapse, List.mem_reverse] at member
    rcases mem_foldl_push _ _ member with none | piece
    · cases none
    · have whole := Text.mem_of_mem_splitAt '/' _ name piece deeper
      split at whole
      next => exact Or.inr (Or.inr whole)
      next => exact mem_join whole

theorem mem_tidy {path : Path} {c : Char} (inside : c ∈ tidy path) : c = '/' ∨ c = '.' ∨ c ∈ path := by
  have slashes : ∀ first ∈ (if isAbsolute path then rootMark path else []), first = '/' := by
    split
    next => rcases rootMark_isMark path with mark | mark <;> simp [mark]
    next => simp
  simp only [tidy] at inside
  generalize (if isAbsolute path then rootMark path else []) = mark at inside slashes
  split at inside
  next => exact Or.inr (Or.inl (List.mem_singleton.mp inside))
  next =>
    rcases List.mem_append.mp inside with front | joined
    · exact Or.inl (slashes c front)
    · rcases Text.mem_joinWith joined with slash | ⟨name, member, deeper⟩
      · exact Or.inl (List.mem_singleton.mp slash)
      · have piece := List.mem_of_mem_filter (List.mem_of_mem_filter member)
        exact Or.inr (Or.inr (Text.mem_of_mem_splitAt '/' path name piece deeper))

end SheetReach.Path
