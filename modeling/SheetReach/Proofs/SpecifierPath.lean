import SheetReach.Proofs.FileEndings

/-! The path that a specifier names. The name behind the last slash is cut off, completed and joined again with
what stands before it. That gives the specifier as one path, completed and seen from the directory of the
importer, unless all its slashes are one, two or three in front: these are not put together again as they
were. -/
namespace SheetReach

namespace Path

theorem slashes_append (count : Nat) (rest : Path) :
    List.replicate (count + 1) '/' ++ rest = List.replicate count '/' ++ '/' :: rest := by
  rw [List.replicate_succ', List.append_assoc, List.singleton_append]

/-- A name behind slashes alone is a name in the root. -/
theorem form_join_slashes (count : Nat) {name : Name} (legal : Legal name) (base : Path) :
    form (join base (List.replicate (count + 1) '/' ++ name)) =
      spell (rootMark (List.replicate (count + 1) '/')) [name] := by
  rw [join_absolute rfl, form, rootMark_append legal.head?, collapse_eq, names_slashes_append,
    names_legal legal, List.foldl_cons, List.foldl_nil, push_legal [] name legal]
  rfl

/-- One slash more in front of a name makes a difference up to three slashes: exactly two are kept, and any
other number is one. -/
theorem form_one_slash_more_iff (count : Nat) {name : Name} (legal : Legal name) (base : Path) :
    form (join base (List.replicate (count + 1) '/' ++ name)) =
      form (join base (List.replicate (count + 2) '/' ++ name)) ↔ count ≠ 0 ∧ count ≠ 1 := by
  rw [form_join_slashes count legal, form_join_slashes (count + 1) legal]
  match count with
  | 0 => exact iff_of_false (by simp [spell, rootMark]) (by simp)
  | 1 => exact iff_of_false (by simp [spell, rootMark]) (by simp)
  | count + 2 => exact iff_of_true rfl (by simp)

theorem form_join_eq_root_iff {name : Name} (legal : Legal name) (base : Path) :
    form (join base name) = spell ['/'] [name] ↔ form base = ['/'] := by
  have root : form base = spell ['/'] [] ↔ rootMark base = ['/'] ∧ collapse base = [] :=
    form_eq_spell_iff base (Or.inl rfl) (by simp)
  have mark : rootMark (join base name) = rootMark base := by
    rw [join_relative legal.relative, rootMark_joint_append legal.head?]
  have single : collapse base ++ [name] = [name] ↔ collapse base = [] := by simp
  rw [form_eq_spell_iff _ (Or.inl rfl) (by simpa using legal), mark, collapse_join legal, single]
  exact root.symm

/-- A doubled slash makes no difference behind a path that is more than slashes. -/
theorem form_doubled_slash {path : Path} {c : Char} (inside : c ∈ path) (solid : c ≠ '/') (rest : Path) :
    form (path ++ '/' :: '/' :: rest) = form (path ++ '/' :: rest) := by
  obtain ⟨front, back, rfl⟩ := List.append_of_mem inside
  have head (more : Path) : (c :: more).head? ≠ some '/' := by simpa using solid
  rw [form_eq_form_iff]
  constructor
  · simp only [List.append_assoc, List.cons_append]
    rw [rootMark_append (head _), rootMark_append (head _)]
  · rw [collapse_eq, collapse_eq, names_append, names_append]
    exact congrArg (fun later => ((names (front ++ c :: back) ++ later).foldl push []).reverse)
      (names_append [] rest)

/-- A name that is cut off at its slash and joined again leads to the same place, unless only slashes stand
before it, at most three with the one it is cut off at. -/
theorem form_rejoined_iff {name : Name} (legal : Legal name) (base folder : Path) :
    form (join base (join folder name)) = form (join base (folder ++ '/' :: name)) ↔
      (folder = [] → form base = ['/']) ∧ folder ≠ ['/'] ∧ folder ≠ ['/', '/'] := by
  rw [join_relative legal.relative folder]
  rcases joint_cases folder with ⟨rfl, same⟩ | ⟨front, rfl, same⟩ | ⟨front, c, rfl, solid, same⟩
  · have whole : form (join base ('/' :: name)) = spell ['/'] [name] := form_join_slashes 0 legal base
    rw [same, List.nil_append, List.nil_append, whole, form_join_eq_root_iff legal base]
    simp
  · -- The folder ends with a slash, so joining puts none behind it and one slash is lost.
    rw [same, List.append_assoc, List.singleton_append, List.append_assoc, List.singleton_append]
    by_cases solid : ∃ c ∈ front, c ≠ '/'
    · obtain ⟨c, inside, solid⟩ := solid
      have filled : front ≠ [] := List.ne_nil_of_mem inside
      have within : c ∈ join base front := (suffix_join base front).subset inside
      have mixed (slashes : Path) (only : ∀ d ∈ slashes, d = '/') : front ++ ['/'] ≠ slashes := by
        intro same
        exact solid (only c (same ▸ List.mem_append_left _ inside))
      rw [join_append filled, join_append filled, form_doubled_slash within solid]
      exact iff_of_true rfl ⟨by simp, mixed _ (by simp), mixed _ (by simp)⟩
    · have slashes : front = List.replicate front.length '/' := by
        rw [List.eq_replicate_iff]
        exact ⟨rfl, fun c inside => by_contra fun other => solid ⟨c, inside, other⟩⟩
      generalize front.length = count at slashes
      subst slashes
      rw [← slashes_append, ← slashes_append, ← slashes_append, form_one_slash_more_iff count legal]
      match count with
      | 0 => simp
      | 1 => simp
      | count + 2 => simp [List.replicate_succ]
  · rw [same, List.append_assoc, List.singleton_append]
    have last (slashes : Path) (slash : slashes.getLast? = some '/') : front ++ [c] ≠ slashes := by
      intro same
      exact solid (by simpa [← same] using slash)
    exact iff_of_true rfl ⟨by simp, last _ rfl, last _ rfl⟩

end Path

namespace Import

/-- A specifier without the blanks around it and with slashes for backslashes. -/
def slashed (specifier : List Char) : Path :=
  (Text.trim specifier).map fun c => if c = '\\' then '/' else c

/-- A path with the dialect's extension, unless it ends with that of the dialect or of an enabled one. -/
def completed (dialect : Dialect) (enabled : List Dialect) (path : Path) : Path :=
  if ∃ known ∈ dialect :: enabled, known.extension <:+ path then path else path ++ dialect.extension

/-- All slashes of the path are so many in front of a name. -/
def IsRootName (count : Nat) (path : Path) : Prop :=
  ∃ name, '/' ∉ name ∧ path = List.replicate count '/' ++ name

instance (count : Nat) (path : Path) : Decidable (IsRootName count path) :=
  decidable_of_iff ('/' ∉ path.drop count ∧ path = List.replicate count '/' ++ path.drop count) <| by
    constructor
    · intro parts
      exact ⟨_, parts⟩
    · intro rootName
      obtain ⟨name, unslashed, rfl⟩ := rootName
      simpa using unslashed

theorem withExtension_eq (dialect : Dialect) (enabled : List Dialect) (file : List Char) :
    withExtension dialect enabled file = completed dialect enabled file := by
  unfold withExtension completed
  split
  next found told =>
    have ends := (Dialect.ofPath?_eq_some_iff file found).mp told
    have known : (∃ known ∈ dialect :: enabled, known.extension <:+ file) ↔ found ∈ dialect :: enabled := by
      constructor
      · intro other
        obtain ⟨known, member, alsoEnds⟩ := other
        exact Dialect.extension_unique ends alsoEnds ▸ member
      · intro member
        exact ⟨found, member, ends⟩
    by_cases member : found ∈ dialect :: enabled
    · rw [if_pos (known.mpr member), if_pos (by simpa using member)]
    · rw [if_neg (mt known.mp member), if_neg (by simpa using member)]
  next untold =>
    refine (if_neg ?_).symm
    intro other
    obtain ⟨known, -, ends⟩ := other
    rw [(Dialect.ofPath?_eq_some_iff file known).mpr ends] at untold
    cases untold

theorem completed_append (dialect : Dialect) (enabled : List Dialect) (folder file : Path) :
    completed dialect enabled (folder ++ '/' :: file) = folder ++ '/' :: completed dialect enabled file := by
  have ends (known : Dialect) : known.extension <:+ folder ++ '/' :: file ↔ known.extension <:+ file :=
    Text.suffix_append_cons_iff known.slash_not_mem_extension folder file
  simp only [completed, ends]
  split
  next => rfl
  next => rw [List.append_assoc, List.cons_append]

theorem completed_legal (dialect : Dialect) (enabled : List Dialect) {file : Path} (unslashed : '/' ∉ file) :
    Path.Legal (completed dialect enabled file) := by
  obtain ⟨found, -, ends⟩ := withExtension_ending dialect enabled file
  rw [withExtension_eq] at ends
  apply found.legal_of_extension _ _ ends
  unfold completed
  split
  next => exact unslashed
  next => simp [unslashed, dialect.slash_not_mem_extension]

theorem splitLast_append {file : Path} (unslashed : '/' ∉ file) (folder : Path) :
    splitLast (folder ++ '/' :: file) = (some folder, file) := by
  have name : ((folder ++ '/' :: file).reverse.takeWhile (· ≠ '/')).reverse = file := by
    have kept : ∀ c ∈ file.reverse, decide (c ≠ '/') = true := by
      intro c member
      exact decide_eq_true fun slash => unslashed (slash ▸ List.mem_reverse.mp member)
    rw [List.reverse_append, List.reverse_cons, List.append_assoc, List.takeWhile_append_of_pos kept]
    simp
  have before : folder.length + (file.length + 1) - file.length - 1 = folder.length := by omega
  simp only [splitLast, name, List.length_append, List.length_cons, before, List.take_left]
  rw [if_neg (by omega)]

theorem splitLast_of_not_mem {text : Path} (unslashed : '/' ∉ text) : splitLast text = (none, text) := by
  have name : (text.reverse.takeWhile (· ≠ '/')).reverse = text := by
    rw [List.takeWhile_eq_self_iff.mpr, List.reverse_reverse]
    intro c member
    exact decide_eq_true fun slash => unslashed (slash ▸ List.mem_reverse.mp member)
  simp only [splitLast, name, ↓reduceIte]

theorem exists_last_slash {text : Path} (slash : '/' ∈ text) :
    ∃ folder file, text = folder ++ '/' :: file ∧ '/' ∉ file := by
  obtain ⟨back, front, reversed, unslashed⟩ := List.eq_append_cons_of_mem (List.mem_reverse.mpr slash)
  refine ⟨front.reverse, back.reverse, ?_, by simpa using unslashed⟩
  rw [← List.reverse_reverse text, reversed]
  simp

theorem isRootName_iff {file : Path} (unslashed : '/' ∉ file) (count : Nat) (folder : Path) :
    IsRootName (count + 1) (folder ++ '/' :: file) ↔ folder = List.replicate count '/' := by
  constructor
  · intro rootName
    obtain ⟨name, alsoUnslashed, same⟩ := rootName
    have cut := congrArg splitLast (same.trans (Path.slashes_append count name))
    rw [splitLast_append unslashed, splitLast_append alsoUnslashed] at cut
    exact Option.some.inj (Prod.mk.inj cut).1
  · intro slashes
    exact ⟨file, unslashed, by rw [slashes, Path.slashes_append]⟩

theorem not_isRootName {text : Path} (unslashed : '/' ∉ text) (count : Nat) :
    ¬ IsRootName (count + 1) text := by
  intro rootName
  obtain ⟨name, -, rfl⟩ := rootName
  simp [List.replicate_succ] at unslashed

/-- The directory that the part of a specifier before its last slash leads to. -/
def folderOf (directory : Path) (specifier : List Char) : Path :=
  (splitLast (slashed specifier)).1.elim directory (Path.join directory)

def fileOf (specifier : List Char) : Name :=
  (splitLast (slashed specifier)).2

/-- There are no candidates, or two: the completed name and the partial of it, in the specifier's folder. -/
theorem candidates_eq (cwd directory : Path) (dialect : Dialect) (enabled : List Dialect)
    (specifier : List Char) :
    candidates cwd dialect enabled directory specifier =
      if Text.trim specifier = [] ∨ isPlainCss (Text.trim specifier) = true ∨ fileOf specifier = [] then []
      else [completed dialect enabled (fileOf specifier), '_' :: completed dialect enabled (fileOf specifier)].map
        fun name => Path.normalize cwd (Path.join (folderOf directory specifier) name) := by
  have cut : splitLast ((Text.trim specifier).map fun c => if c = '\\' then '/' else c) =
      splitLast (slashed specifier) := rfl
  simp only [candidates, cut, folderOf, fileOf, withExtension_eq]
  by_cases empty : Text.trim specifier = []
  · simp [empty]
  by_cases plain : isPlainCss (Text.trim specifier) = true
  · simp [plain]
  by_cases bare : (splitLast (slashed specifier)).2 = []
  · simp [bare]
  simp only [empty, plain, bare, List.isEmpty_iff, Bool.or_eq_true, ↓reduceIte]
  cases (splitLast (slashed specifier)).1 <;> rfl

/-- The first candidate is made of the part before the last slash and the completed name behind it. -/
theorem first_candidate {cwd directory first : Path} {dialect : Dialect} {enabled : List Dialect}
    {specifier : List Char} {others : List Path}
    (named : candidates cwd dialect enabled directory specifier = first :: others) :
    first = Path.normalize cwd (Path.join
      ((splitLast (slashed specifier)).1.elim directory (Path.join directory))
      (completed dialect enabled (splitLast (slashed specifier)).2)) := by
  rw [candidates_eq] at named
  split at named
  next => cases named
  next => exact (List.cons.inj named).1.symm

/-- The first candidate is the specifier as one path, completed and seen from the importer's directory,
exactly if its slashes are not two or three in front of a name and nowhere else, and not a single one in
front of a name unless the directory is the root. -/
theorem first_candidate_iff (cwd directory : Path) (dialect : Dialect) (enabled : List Dialect)
    (specifier : List Char) (first : Path) (others : List Path)
    (named : candidates cwd dialect enabled directory specifier = first :: others) :
    first = Path.normalize cwd (Path.join directory (completed dialect enabled (slashed specifier))) ↔
      (IsRootName 1 (slashed specifier) → Path.normalize cwd directory = ['/']) ∧
        ¬ IsRootName 2 (slashed specifier) ∧ ¬ IsRootName 3 (slashed specifier) := by
  have candidate := first_candidate named
  by_cases slash : '/' ∈ slashed specifier
  · obtain ⟨folder, file, whole, unslashed⟩ := exists_last_slash slash
    have legal := completed_legal dialect enabled unslashed
    rw [whole, splitLast_append unslashed] at candidate
    simp only [Option.elim_some] at candidate
    have seen (path : Path) : Path.normalize cwd (Path.join directory path) =
        Path.form (Path.join (Path.join cwd directory) path) := by
      rw [Path.normalize_eq_form, Path.join_assoc]
    rw [candidate, whole, completed_append, isRootName_iff unslashed, isRootName_iff unslashed,
      isRootName_iff unslashed, Path.join_assoc, seen, seen, Path.normalize_eq_form]
    exact Path.form_rejoined_iff legal _ folder
  · rw [splitLast_of_not_mem slash] at candidate
    refine iff_of_true candidate ⟨?_, not_isRootName slash 1, not_isRootName slash 2⟩
    intro rootName
    exact absurd rootName (not_isRootName slash 0)

/-- Specifiers with dots, backslashes and doubled slashes, relative and absolute, and a name behind a slash
that is imported in the root. -/
theorem winding_first_candidate :
    (candidates "/w".toList .scss [.sass] "/w/sub".toList " ..\\.\\lib//x.sass ".toList =
        ["/w/lib/x.sass".toList, "/w/lib/_x.sass".toList] ∧
      "/w/lib/x.sass".toList = Path.normalize "/w".toList (Path.join "/w/sub".toList
        (completed .scss [.sass] (slashed " ..\\.\\lib//x.sass ".toList)))) ∧
    (candidates "/w".toList .scss [] "sub".toList "\\\\lib/x.sass".toList =
        ["//lib/x.sass.scss".toList, "//lib/_x.sass.scss".toList] ∧
      "//lib/x.sass.scss".toList = Path.normalize "/w".toList (Path.join "sub".toList
        (completed .scss [] (slashed "\\\\lib/x.sass".toList)))) ∧
    candidates "/".toList .sass [] "w/..".toList "/x".toList = ["/x.sass".toList, "/_x.sass".toList] ∧
      "/x.sass".toList = Path.normalize "/".toList (Path.join "w/..".toList
        (completed .sass [] (slashed "/x".toList))) := by
  have relative : candidates "/w".toList .scss [.sass] "/w/sub".toList " ..\\.\\lib//x.sass ".toList =
      ["/w/lib/x.sass".toList, "/w/lib/_x.sass".toList] := by decide +kernel
  have absolute : candidates "/w".toList .scss [] "sub".toList "\\\\lib/x.sass".toList =
      ["//lib/x.sass.scss".toList, "//lib/_x.sass.scss".toList] := by decide +kernel
  have rooted : candidates "/".toList .sass [] "w/..".toList "/x".toList =
      ["/x.sass".toList, "/_x.sass".toList] := by decide +kernel
  refine ⟨⟨relative, ?_⟩, ⟨absolute, ?_⟩, rooted, ?_⟩
  · exact (first_candidate_iff _ _ _ _ _ _ _ relative).mpr (by decide +kernel)
  · exact (first_candidate_iff _ _ _ _ _ _ _ absolute).mpr (by decide +kernel)
  · exact (first_candidate_iff _ _ _ _ _ _ _ rooted).mpr (by decide +kernel)

/-- A name behind one slash is looked for beside the importer and not in the root. Behind two slashes the
candidates begin with one slash where the whole path begins with two, and behind three it is the other way
round. -/
theorem root_names_misplaced :
    (candidates "/w".toList .scss [] "/w/sub".toList "/base".toList =
        ["/w/sub/base.scss".toList, "/w/sub/_base.scss".toList] ∧
      Path.normalize "/w".toList (Path.join "/w/sub".toList (completed .scss [] (slashed "/base".toList))) =
        "/base.scss".toList) ∧
    (candidates "/w".toList .scss [] "/w/sub".toList "\\\\base".toList =
        ["/base.scss".toList, "/_base.scss".toList] ∧
      Path.normalize "/w".toList (Path.join "/w/sub".toList (completed .scss [] (slashed "\\\\base".toList))) =
        "//base.scss".toList) ∧
    candidates "/w".toList .scss [] "/w/sub".toList "\\\\\\base".toList =
        ["//base.scss".toList, "//_base.scss".toList] ∧
      Path.normalize "/w".toList
          (Path.join "/w/sub".toList (completed .scss [] (slashed "\\\\\\base".toList))) =
        "/base.scss".toList := by
  decide +kernel

end Import

end SheetReach
