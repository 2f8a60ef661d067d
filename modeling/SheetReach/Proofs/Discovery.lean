import SheetReach.Proofs.FileEndings
import SheetReach.Proofs.SurveyOutcome

/-! Whether a survey that is told neither a dialect nor entry points finds any. The names of the files in its
directory are read twice: an extension anywhere in a name counts when the dialect is detected, and at the
end of a name when the entry points are looked for. -/
namespace SheetReach

namespace Dialect

/-- How many names an extension stands in, at any place. -/
def mentions (dialect : Dialect) (names : List Name) : Nat :=
  names.countP fun name => dialect.extension <:+: name

theorem length_filter_holds (dialect : Dialect) (names : List Name) :
    (names.filter (Text.holds dialect.extension)).length = dialect.mentions names := by
  rw [mentions, List.countP_eq_length_filter]
  congr 1
  apply List.filter_congr
  intro name _
  rw [Bool.eq_iff_iff, Text.holds_iff, decide_eq_true_iff]

theorem ofNames_eq (names : List Name) :
    ofNames names = if scss.mentions names < sass.mentions names then sass else scss := by
  simp only [ofNames, length_filter_holds]

/-- A dialect that any name ends with makes the detected one stand in a name. -/
theorem exists_mention {names : List Name} {name : Name} {dialect : Dialect} (member : name ∈ names)
    (ends : dialect.extension <:+ name) :
    ∃ other ∈ names, (ofNames names).extension <:+: other := by
  have counted : 0 < dialect.mentions names := by
    apply List.countP_pos_iff.mpr
    exact ⟨name, member, decide_eq_true ends.isInfix⟩
  have most : dialect.mentions names ≤ (ofNames names).mentions names := by
    rw [ofNames_eq]
    cases dialect <;> split <;> omega
  obtain ⟨other, inside, holds⟩ := List.countP_pos_iff.mp (Nat.lt_of_lt_of_le counted most)
  exact ⟨other, inside, of_decide_eq_true holds⟩

end Dialect

namespace Workspace

/-- A file stands in a directory itself under this name, or a link that leads to a file. -/
def TopFile (workspace : Workspace) (directory : Path) (name : Name) : Prop :=
  ∃ place entry, workspace.locate true directory = .ok ⟨place, .directory⟩ ∧
    workspace.tree.find? (name :: place) = some entry ∧
    ((∃ content, entry = .file content) ∨
      ∃ target content, entry = .link target ∧
        workspace.entryAt (Path.join directory name) = .ok (.file content))

theorem isFile_eq_true_iff (workspace : Workspace) (directory : Path) (name : Name) (entry : Entry) :
    workspace.isFile directory name entry = .ok true ↔
      (∃ content, entry = .file content) ∨
        ∃ target content, entry = .link target ∧
          workspace.entryAt (Path.join directory name) = .ok (.file content) := by
  cases entry with
  | file content => simp [isFile, settle]
  | directory => simp [isFile, settle]
  | link target =>
    unfold isFile settle
    cases found : workspace.entryAt (Path.join directory name) with
    | ok entry => cases entry <;> simp
    | error error =>
      cases error with
      | nullCharacter => simp
      | fault fault path => cases fault <;> simp

/-- The files of a directory itself are told, each once. -/
theorem mem_topFiles {workspace : Workspace} {directory : Path} {names : List Name}
    (told : workspace.topFiles directory = .ok names) :
    names.Nodup ∧ ∀ name, name ∈ names ↔ workspace.TopFile directory name := by
  obtain ⟨children, listed, rest⟩ := (Except.bind_eq_ok_iff _ _ _).mp told
  obtain ⟨kept, filtered, same⟩ := (Except.bind_eq_ok_iff _ _ _).mp rest
  obtain ⟨plain, place, leads, rfl⟩ := list_eq_ok listed
  obtain ⟨total, rfl⟩ := (filterM_eq_ok_iff _ _ _).mp filtered
  cases Except.ok.inj same
  have standing := (workspace.locate_eq_ok_iff true directory _).mpr ⟨plain, leads⟩
  constructor
  · exact (workspace.tree.children_nodup place).sublist (List.filter_sublist.map Prod.fst)
  · intro name
    constructor
    · intro member
      obtain ⟨⟨_, entry⟩, inside, rfl⟩ := List.mem_map.mp member
      obtain ⟨child, file⟩ := List.mem_filter.mp inside
      obtain ⟨answer, tested⟩ := total _ child
      have isTrue : answer = true := by simpa [tested, Except.toOption] using file
      rw [isTrue] at tested
      exact ⟨place, entry, standing, (workspace.tree.mem_children_iff place _ entry).mp child,
        (workspace.isFile_eq_true_iff directory _ entry).mp tested⟩
    · intro top
      obtain ⟨other, entry, alsoStanding, found, file⟩ := top
      cases standing.symm.trans alsoStanding
      have child := (workspace.tree.mem_children_iff place name entry).mpr found
      have tested := (workspace.isFile_eq_true_iff directory name entry).mpr file
      refine List.mem_map.mpr ⟨(name, entry), List.mem_filter.mpr ⟨child, ?_⟩, rfl⟩
      simp [tested, Except.toOption]

theorem entryPoints_ne_nil_iff {workspace : Workspace} {root : Path} {dialect : Dialect}
    {names : List Name} {entries : List Path} (told : workspace.topFiles root = .ok names)
    (discovered : workspace.entryPoints root dialect = .ok entries) :
    entries ≠ [] ↔ ∃ name ∈ names, dialect.extension <:+ name := by
  rw [entryPoints, told, Except.map_ok] at discovered
  cases discovered
  rw [ne_eq, ← List.length_eq_zero_iff, (Text.sort_perm _).length_eq, List.length_map,
    List.length_eq_zero_iff, List.filter_eq_nil_iff]
  simp only [Dialect.owns_iff, not_forall, not_not, exists_prop]

/-- A survey that is told neither a dialect nor entry points finds entry points exactly if a file of the
directory itself has the ending of the detected dialect, the one whose extension stands in more of their
names, at any place. So all it takes is a file with the ending of a dialect, if no name holds the detected
extension elsewhere than at its end. -/
theorem entry_points_found_iff (workspace : Workspace) (request : Request) (survey : Survey)
    (untold : request.entryPoints = none)
    (unchosen : request.choice = .detect ∨ request.choice = .named [])
    (returned : (workspace.survey request).result = .ok survey) :
    ∃ names : List Name, names.Nodup ∧ (∀ name, name ∈ names ↔ workspace.TopFile survey.root name) ∧
      (survey.dialect = .sass ↔ Dialect.scss.mentions names < Dialect.sass.mentions names) ∧
      (survey.entryPoints ≠ [] ↔ ∃ name ∈ names, survey.dialect.extension <:+ name) ∧
      ((∀ name ∈ names, survey.dialect.extension <:+: name → survey.dialect.extension <:+ name) →
        (survey.entryPoints ≠ [] ↔ ∃ name ∈ names, ∃ dialect : Dialect, dialect.extension <:+ name)) := by
  obtain ⟨exclusions, -, -, chosen, started, -⟩ := (survey_eq_ok_iff workspace request survey).mp returned
  have lacks : request.LacksDialect := ⟨unchosen, by simp [untold]⟩
  rw [chooseDialect_of_lacking workspace survey.root lacks, Except.mapError_eq_ok_iff] at chosen
  obtain ⟨names, told, detected⟩ := (Except.map_eq_ok_iff _ _ _).mp chosen
  simp only [startingPoints, untold] at started
  have found := entryPoints_ne_nil_iff told started
  obtain ⟨distinct, members⟩ := mem_topFiles told
  refine ⟨names, distinct, members, ?_, found, ?_⟩
  · rw [← detected, Dialect.ofNames_eq]
    split <;> simp_all
  · intro atEnd
    rw [found]
    constructor
    · intro some
      obtain ⟨name, member, ends⟩ := some
      exact ⟨name, member, survey.dialect, ends⟩
    · intro some
      obtain ⟨name, member, dialect, ends⟩ := some
      obtain ⟨other, inside, holds⟩ := Dialect.exists_mention member ends
      rw [detected] at holds
      exact ⟨other, inside, atEnd other inside holds⟩

/-- Files of both dialects, a link to one and a directory with an ending. -/
def mingled : Workspace where
  tree.entries :=
    [(["a.sass".toList], .file (.octets [])),
     (["b.scss".toList], .file (.octets [])),
     (["c.sass".toList], .link "a.sass".toList),
     (["d.scss".toList], .directory)]
  tree.distinct := by decide +kernel
  tree.named := by decide +kernel

def mingledSurvey : Survey where
  root := "/".toList
  dialect := .sass
  entryPoints := ["/a.sass".toList, "/c.sass".toList]
  reachable := ["/a.sass".toList, "/c.sass".toList]

theorem mingled_found :
    (mingled.survey {}).result = .ok mingledSurvey ∧
      ∃ name, mingled.TopFile "/".toList name ∧ Dialect.sass.extension <:+ name := by
  have returned : (mingled.survey {}).result = .ok mingledSurvey := by decide +kernel
  refine ⟨returned, ?_⟩
  obtain ⟨names, -, members, -, found, -⟩ :=
    entry_points_found_iff mingled {} mingledSurvey rfl (Or.inl rfl) returned
  obtain ⟨name, member, ends⟩ := found.mp (by decide)
  exact ⟨name, (members name).mp member, ends⟩

/-- A stylesheet beside a copy of one in the other dialect, which has another ending. -/
def outvoted : Workspace where
  tree.entries :=
    [(["main.sass".toList], .file (.octets [])), (["old.scss.bak".toList], .file (.octets []))]
  tree.distinct := by decide +kernel
  tree.named := by decide +kernel

/-- The copy speaks for its dialect, and there is no entry point in that one. -/
theorem outvoted_not_found :
    (outvoted.survey {}).result = .ok { root := "/".toList, dialect := .scss } ∧
      outvoted.TopFile "/".toList "main.sass".toList ∧ Dialect.sass.extension <:+ "main.sass".toList := by
  exact ⟨by decide +kernel, ⟨[], .file (.octets []), rfl, by decide +kernel, Or.inl ⟨_, rfl⟩⟩, by decide⟩

end Workspace

end SheetReach
