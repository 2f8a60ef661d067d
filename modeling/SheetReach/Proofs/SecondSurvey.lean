import SheetReach.Proofs.TopFiles

/-! Deleting what a survey calls unused and looking again finds the same, and nothing unused, as long as
there are no links and no file has two paths. -/
namespace SheetReach

namespace Workspace

/-- Everything found below a directory can be read. -/
def ReadableBelow (workspace : Workspace) (root : Path) : Prop :=
  ∀ way, workspace.FoundBelow root way →
    ∃ source, workspace.readText (Path.join root (Text.joinWith ['/'] way)) = .ok source

/-- A survey with entry points that it found itself, of a tree without links below a readable root, and
where that root is. -/
structure PlainSurvey (workspace : Workspace) (request : Request) (survey : Survey) (mark : Path)
    (names : List Name) (place : Location) : Prop where
  unlinked : workspace.tree.Unlinked
  readable : workspace.ReadableBelow survey.root
  discovered : request.entryPoints = none
  returned : (workspace.survey request).result = .ok survey
  entered : survey.entryPoints ≠ []
  marked : Path.IsMark mark
  legal : ∀ name ∈ names, Path.Legal name
  spelled : survey.root = Path.spell mark names
  unnull : '\x00' ∉ survey.root
  leads : workspace.tree.locate workspace.cwd true survey.root = .ok ⟨place, .directory⟩

theorem survey_root_leads {workspace : Workspace} {request : Request} {survey : Survey}
    (discovered : request.entryPoints = none) (returned : (workspace.survey request).result = .ok survey) :
    '\x00' ∉ survey.root ∧ ∃ place,
      workspace.tree.locate workspace.cwd true survey.root = .ok ⟨place, .directory⟩ := by
  obtain ⟨-, -, -, -, started, -⟩ := (survey_eq_ok_iff _ _ _).mp returned
  simp only [startingPoints, discovered, entryPoints, Except.map_eq_ok_iff] at started
  obtain ⟨files, top, -⟩ := started
  obtain ⟨children, listed, -⟩ := (Except.bind_eq_ok_iff _ _ _).mp top
  obtain ⟨unnull, place, leads, -⟩ := list_eq_ok listed
  exact ⟨unnull, place, leads⟩

namespace PlainSurvey

variable {workspace after : Workspace} {request : Request} {survey : Survey} {mark : Path}
  {names : List Name} {place : Location} (plain : PlainSurvey workspace request survey mark names place)

include plain

theorem reads_way {way : List Name} (found : workspace.FoundBelow (Path.spell mark names) way) :
    ∃ source, workspace.readText (Path.spell mark (names ++ way)) = .ok source := by
  have reads := plain.readable way (plain.spelled ▸ found)
  rw [plain.spelled, Path.join_joinWith mark names way plain.marked plain.legal
    (found.legal_way plain.marked plain.legal) found.ne_nil] at reads
  exact reads

theorem entryPoints_eq : survey.entryPoints =
    Text.sort (((workspace.tree.filesIn place).filter survey.dialect.owns).map fun name =>
      workspace.normalize (Path.join survey.root name)) := by
  obtain ⟨-, -, -, -, started, -⟩ := (survey_eq_ok_iff _ _ _).mp plain.returned
  simp only [startingPoints, plain.discovered, entryPoints, Except.map_eq_ok_iff] at started
  obtain ⟨files, top, same⟩ := started
  rw [topFiles_eq plain.unlinked plain.unnull plain.leads] at top
  cases top
  exact same.symm

theorem top_found {name : Name} (member : name ∈ workspace.tree.filesIn place) :
    workspace.FoundBelow (Path.spell mark names) [name] := by
  obtain ⟨entry, kind, found⟩ := (workspace.tree.mem_filesIn place name).mp member
  rw [← plain.spelled]
  refine .entry _ _ name entry (list_of_locate plain.unnull plain.leads)
    ((workspace.tree.mem_children_iff place name entry).mpr found) ?_
  cases entry with
  | file content => rfl
  | directory => exact absurd rfl kind
  | link target => exact absurd found (plain.unlinked.find?_ne _ target)

theorem top_path {name : Name} (member : name ∈ workspace.tree.filesIn place) :
    workspace.normalize (Path.join survey.root name) = Path.spell mark (names ++ [name]) := by
  have found := plain.top_found member
  have legalName : Path.Legal name :=
    found.legal_way plain.marked plain.legal name (List.mem_singleton_self name)
  rw [plain.spelled, Path.join_spell mark names name plain.marked plain.legal legalName]
  exact Path.normalize_spell _ mark _ plain.marked (found.legal_append plain.marked plain.legal)

/-- Files of the dialect in the root itself are entry points and are reached. -/
theorem owned_reached {name : Name} (member : name ∈ workspace.tree.filesIn place)
    (owned : survey.dialect.owns name = true) : Path.spell mark (names ++ [name]) ∈ survey.reachable := by
  have built := survey_builds plain.returned plain.entered
  have entry : Path.spell mark (names ++ [name]) ∈ survey.entryPoints := by
    rw [plain.entryPoints_eq, Text.mem_sort, List.mem_map]
    exact ⟨name, List.mem_filter.mpr ⟨member, owned⟩, plain.top_path member⟩
  have found := plain.top_found member
  obtain ⟨source, reads⟩ := plain.reads_way found
  have normal : Path.normalize (workspace.graphConfig request survey.dialect).cwd
      (Path.spell mark (names ++ [name])) = Path.spell mark (names ++ [name]) :=
    Path.normalize_spell _ mark _ plain.marked (found.legal_append plain.marked plain.legal)
  have reached := built.closed.entry _ entry source (by
    rw [normal]
    exact (ImportGraph.snapshot_eq_text_iff workspace _ source).mpr reads)
  rw [normal] at reached
  exact reached

/-- The root starts with one slash if no reachable path starts with two. -/
theorem single_slash (single : ∀ path ∈ survey.reachable, Path.rootMark path ≠ ['/', '/']) :
    mark = ['/'] := by
  rcases plain.marked with one | two
  · exact one
  obtain ⟨entry, member⟩ := List.exists_mem_of_ne_nil _ plain.entered
  rw [plain.entryPoints_eq, Text.mem_sort, List.mem_map] at member
  obtain ⟨name, listed, -⟩ := member
  obtain ⟨top, owned⟩ := List.mem_filter.mp listed
  have legalPath := (plain.top_found top).legal_append plain.marked plain.legal
  have mismatch := single _ (plain.owned_reached top owned)
  rw [Path.rootMark_spell mark _ plain.marked legalPath] at mismatch
  exact absurd two mismatch

section After

variable (loses : workspace.Loses survey.unused after)

include loses

theorem gone_unused {name : Name}
    (changed : after.tree.find? (name :: place) ≠ workspace.tree.find? (name :: place)) :
    Path.spell mark (names ++ [name]) ∈ survey.unused := by
  obtain ⟨other, member, entry, kind, ends⟩ := loses.named _ changed
  obtain ⟨⟨way, found, rfl⟩, -⟩ :=
    survey_unused_below plain.returned plain.marked plain.legal plain.spelled member
  rw [Path.tidy_spell mark _ plain.marked (found.legal_append plain.marked plain.legal)] at ends
  obtain ⟨top, rootLeads, below, -⟩ := found.ends_at plain.marked plain.legal ends
  rw [← plain.spelled, plain.leads] at rootLeads
  cases rootLeads
  have only : [name] = way.reverse := List.append_cancel_right (below : [name] ++ place = way.reverse ++ place)
  have same : way = [name] := by
    rw [← List.reverse_reverse way, ← only]
    rfl
  rw [← same]
  exact member

theorem owned_kept {name : Name} (member : name ∈ workspace.tree.filesIn place)
    (owned : survey.dialect.owns name = true) :
    after.tree.find? (name :: place) = workspace.tree.find? (name :: place) := by
  by_contra changed
  have unused := plain.gone_unused loses changed
  have unreached := (survey_unused_below plain.returned plain.marked plain.legal plain.spelled
    unused).2
  exact unreached (plain.owned_reached member owned)

/-- A file of the root itself that is gone has the ending of another dialect. -/
theorem gone_other {name : Name} (member : name ∈ workspace.tree.filesIn place)
    (changed : after.tree.find? (name :: place) ≠ workspace.tree.find? (name :: place)) :
    ∃ other, other ≠ survey.dialect ∧ Text.holds other.extension name = true := by
  obtain ⟨-, exclusions, -, members⟩ :=
    survey_unused plain.returned plain.entered plain.marked plain.legal plain.spelled
  obtain ⟨-, reportable⟩ := (members _).mp (plain.gone_unused loses changed)
  obtain ⟨extension, listed, ends⟩ := reportable.ending
  obtain ⟨other, -, rfl⟩ := List.mem_map.mp listed
  have ending := Path.suffix_name other.slash_not_mem_extension plain.marked ends
  refine ⟨other, ?_, (Text.holds_iff _ _).mpr ending.isInfix⟩
  rintro rfl
  exact changed (plain.owned_kept loses member ((Text.endsWith_iff _ _).mpr ending))

theorem entries_after : (after.tree.filesIn place).filter survey.dialect.owns =
    (workspace.tree.filesIn place).filter survey.dialect.owns := by
  obtain ⟨keep, same, gone⟩ := loses.filesIn place
  rw [same, List.filter_filter]
  apply List.filter_congr
  intro name member
  cases owned : survey.dialect.owns name with
  | false => rfl
  | true =>
    cases kept : keep name with
    | true => rfl
    | false => exact absurd (plain.owned_kept loses member owned) (gone name member kept)

theorem dialect_after (detected : Dialect.ofNames (workspace.tree.filesIn place) = survey.dialect) :
    Dialect.ofNames (after.tree.filesIn place) = survey.dialect := by
  obtain ⟨keep, same, gone⟩ := loses.filesIn place
  rw [same]
  apply Dialect.ofNames_filter _ _ _ detected
  intro name member dropped
  exact plain.gone_other loses member (gone name member dropped)

theorem leads_after : after.tree.locate after.cwd true survey.root = .ok ⟨place, .directory⟩ :=
  loses.locate_directory plain.unlinked plain.leads

theorem unlinked_after : after.tree.Unlinked :=
  plain.unlinked.thinned loses.filtered.thinned

theorem entryPoints_after : after.entryPoints survey.root survey.dialect = .ok survey.entryPoints := by
  rw [entryPoints, topFiles_eq (plain.unlinked_after loses) plain.unnull (plain.leads_after loses),
    plain.entryPoints_eq]
  simp only [Except.map_ok, plain.entries_after loses, normalize, loses.cwd]

theorem chooseDialect_after : after.chooseDialect survey.root request = .ok survey.dialect := by
  obtain ⟨-, -, -, chosen, -⟩ := (survey_eq_ok_iff _ _ _).mp plain.returned
  refine chooseDialect_of_detected ?_ chosen
  simp only [detectDialect, topFiles_eq plain.unlinked plain.unnull plain.leads,
    topFiles_eq (plain.unlinked_after loses) plain.unnull (plain.leads_after loses), Except.map_ok,
    Except.ok.injEq]
  exact plain.dialect_after loses

/-- Whatever was read still reads the same, and whatever was not is still no text. -/
theorem agree_after (single : ∀ path ∈ survey.reachable, Path.rootMark path ≠ ['/', '/']) :
    ImportGraph.Agree (ImportGraph.snapshot workspace) (ImportGraph.snapshot after) survey.reachable := by
  intro path known
  by_cases text : ∃ source, ImportGraph.snapshot workspace path = .text source
  · obtain ⟨source, reads⟩ := text
    have reached := known source reads
    have sameMark : Path.rootMark path = Path.rootMark survey.root := by
      rw [plain.spelled, Path.rootMark_spell mark names plain.marked plain.legal, plain.single_slash single]
      exact (Path.rootMark_isMark path).resolve_right (single path reached)
    have kept := survey_passed_kept plain.returned reached (plain.unlinked.linkFree _)
      (plain.unlinked.linkFree _) sameMark loses
    rw [reads, ImportGraph.snapshot_eq_text_iff]
    exact (loses.readText_iff ((ImportGraph.snapshot_eq_text_iff _ _ _).mp reads)).mpr kept
  · exact loses.snapshot_eq plain.unlinked path (not_exists.mp text)

/-- Once every unused file is gone, no file found below the root is left to report. -/
theorem unusedFiles_after {exclusions : List Exclusion}
    (parsed : Exclusion.parseAll request.exclude = .ok exclusions)
    (gone : ∀ others, (∀ name ∈ others, Path.Legal name) → Path.spell mark others ∈ survey.unused →
      after.tree.find? others.reverse = none) :
    (after.unusedFiles survey.root survey.reachable exclusions
      ((request.enabled survey.dialect).map Dialect.extension)).result = .ok [] := by
  have unlinked := plain.unlinked_after loses
  have unnull : survey.root.contains '\x00' = false := by simpa using plain.unnull
  obtain ⟨unused, listed⟩ : ∃ unused, (after.unusedFiles survey.root survey.reachable exclusions
      ((request.enabled survey.dialect).map Dialect.extension)).result = .ok unused := by
    simp only [unusedFiles, listAll, unnull, Traced.result_bind, Traced.result_ofExcept,
      Traced.result_emit, Traced.result_pure, Bool.false_eq_true, ↓reduceIte, Except.ok_bind]
    exact ⟨_, rfl⟩
  rw [listed, Except.ok.injEq, List.eq_nil_iff_forall_not_mem]
  intro path member
  rw [plain.spelled] at listed
  obtain ⟨⟨way, found, rfl⟩, reportable⟩ :=
    ((unusedFiles_spec plain.marked plain.legal listed).2 path).mp member
  -- It was found and reported before, so that its place is empty now, where the walk has found it.
  obtain ⟨-, others, alike, members⟩ :=
    survey_unused plain.returned plain.entered plain.marked plain.legal plain.spelled
  rw [parsed] at alike
  cases alike
  have reported := (members _).mpr ⟨⟨way, loses.foundBelow plain.unlinked found, rfl⟩, reportable⟩
  have missing := gone _ (found.legal_append plain.marked plain.legal) reported
  obtain ⟨top, above, name, entry, rfl, -, leads, -, standing, -, -⟩ :=
    found.located mark names plain.marked plain.legal rfl
  have topIs : top = names.reverse :=
    (FileTree.locate_place plain.marked plain.legal (unlinked.linkFree _) leads).1
  rw [topIs] at standing
  simp only [List.reverse_append, List.reverse_cons, List.reverse_nil, List.nil_append,
    List.cons_append] at missing
  rw [standing] at missing
  cases missing

end After

/-- Deleting the unused files succeeds and takes every one of them out. -/
theorem deletes_all : (workspace.deleteFiles survey.unused).error = none ∧
    ∀ others, (∀ name ∈ others, Path.Legal name) → Path.spell mark others ∈ survey.unused →
      (workspace.deleteFiles survey.unused).workspace.tree.find? others.reverse = none := by
  have increasing := (survey_unused plain.returned plain.entered plain.marked plain.legal
    plain.spelled).1
  have below := fun path (member : path ∈ survey.unused) =>
    (survey_unused_below plain.returned plain.marked plain.legal plain.spelled member).1
  apply deleteFiles_all plain.unlinked plain.marked survey.unused (increasing.imp ne_of_lt)
  · intro path member
    obtain ⟨way, found, rfl⟩ := below path member
    exact ⟨_, found.legal_append plain.marked plain.legal, rfl⟩
  · intro path member
    obtain ⟨way, found, rfl⟩ := below path member
    exact plain.reads_way found

end PlainSurvey

/-- In a readable tree without links, with entry points found by the survey itself and no reachable path
with two slashes in front, deleting the unused files succeeds, and the same request then finds the same
dialect, entry points, reachable files, dangling imports and failures, and nothing unused. -/
theorem survey_after_deletion (workspace : Workspace) (request : Request) (survey : Survey)
    (unlinked : workspace.tree.Unlinked)
    (readable : workspace.ReadableBelow survey.root) (discovered : request.entryPoints = none)
    (returned : (workspace.survey request).result = .ok survey)
    (single : ∀ path ∈ survey.reachable, Path.rootMark path ≠ ['/', '/']) :
    (workspace.deleteFiles survey.unused).error = none ∧
      ((workspace.deleteFiles survey.unused).workspace.survey request).result =
        .ok { survey with unused := [] } := by
  by_cases entered : survey.entryPoints = []
  · obtain ⟨-, unused⟩ := survey_without_entries returned entered
    have same : { survey with unused := [] } = survey := by
      rw [← unused]
    rw [unused, same]
    exact ⟨rfl, returned⟩
  obtain ⟨mark, names, marked, legal, spelled⟩ := survey_root_normal returned
  obtain ⟨unnull, place, leads⟩ := survey_root_leads discovered returned
  have plain : PlainSurvey workspace request survey mark names place :=
    ⟨unlinked, readable, discovered, returned, entered, marked, legal, spelled, unnull, leads⟩
  have loses := workspace.deleteFiles_loses survey.unused
  obtain ⟨done, gone⟩ := plain.deletes_all
  refine ⟨done, ?_⟩
  obtain ⟨exclusions, rooted, parsed, -⟩ := (survey_eq_ok_iff _ _ _).mp returned
  obtain ⟨root, rootUnnull, rootPlace, rootLeads⟩ := (checkRoot_eq_ok_iff _ _ _).mp rooted
  have built := (survey_builds returned entered).congr (plain.agree_after loses single)
  have sameConfig : (workspace.deleteFiles survey.unused).workspace.graphConfig request survey.dialect =
      workspace.graphConfig request survey.dialect := by
    simp only [graphConfig, loses.cwd]
  rw [survey_eq_ok_iff]
  refine ⟨exclusions, ?_, parsed, plain.chooseDialect_after loses, ?_, Or.inr ⟨entered, ?_, ?_⟩⟩
  · refine (checkRoot_eq_ok_iff _ _ _).mpr ⟨?_, rootUnnull, rootPlace, loses.locate_directory unlinked rootLeads⟩
    simpa only [normalize, loses.cwd] using root
  · simp only [startingPoints, discovered]
    exact plain.entryPoints_after loses
  · rw [sameConfig]
    exact (importGraph_eq_ok_iff _ _ _ _).mpr built
  · exact plain.unusedFiles_after loses parsed gone

/-- Stylesheets of both dialects, one of them with both endings in its name, and three that nothing
imports. -/
def mixedShelf : Workspace where
  tree.entries :=
    [(["main.scss".toList], .file (.octets "@import 'sub/a', 'gone';".toUTF8.toList)),
     (["x.scss.sass".toList], .file (.octets [])),
     (["y.sass".toList], .file (.octets [])),
     (["sub".toList], .directory),
     (["_a.scss".toList, "sub".toList], .file (.octets [])),
     (["_old.scss".toList, "sub".toList], .file (.octets []))]
  tree.distinct := by decide +kernel
  tree.named := by decide +kernel

def mixedSurvey : Survey where
  root := "/".toList
  dialect := .scss
  entryPoints := ["/main.scss".toList]
  reachable := ["/main.scss".toList, "/sub/_a.scss".toList]
  unused := ["/sub/_old.scss".toList, "/x.scss.sass".toList, "/y.sass".toList]
  dangling := [⟨some "/main.scss".toList, "gone".toList, ["/gone.scss".toList, "/_gone.scss".toList]⟩]

theorem mixedShelf_after_deletion :
    mixedShelf.tree.Unlinked ∧
      (mixedShelf.survey { allDialects := true }).result = .ok mixedSurvey ∧
      (mixedShelf.deleteFiles mixedSurvey.unused).error = none ∧
      ((mixedShelf.deleteFiles mixedSurvey.unused).workspace.survey { allDialects := true }).result =
        .ok { mixedSurvey with unused := [] } := by
  have unlinked : mixedShelf.tree.Unlinked := by decide +kernel
  have returned : (mixedShelf.survey { allDialects := true }).result = .ok mixedSurvey := by
    decide +kernel
  have readable : mixedShelf.ReadableBelow mixedSurvey.root := by
    intro way found
    have marked : Path.IsMark ['/'] := Or.inl rfl
    have legal : ∀ name ∈ ([] : List Name), Path.Legal name := by simp
    have listed := (file_mem_listBelow_spell marked legal mixedShelf.tree.depth _).mpr
      ⟨way, found, found.length_le marked legal, rfl⟩
    have all : ∀ item ∈ (mixedShelf.listBelow mixedShelf.tree.depth ['/']).filterMap Listed.file?,
        (mixedShelf.readText item).isOk = true := by
      decide +kernel
    have reads := all _ ((mem_filterMap_file _ _).mpr listed)
    rw [← Path.join_joinWith ['/'] [] way marked legal (found.legal_way marked legal) found.ne_nil]
      at reads
    change ∃ source, mixedShelf.readText (Path.join (Path.spell ['/'] []) (Text.joinWith ['/'] way)) = .ok source
    cases outcome : mixedShelf.readText (Path.join (Path.spell ['/'] []) (Text.joinWith ['/'] way)) with
    | ok source => exact ⟨source, rfl⟩
    | error error =>
      rw [outcome] at reads
      cases reads
  obtain ⟨done, again⟩ := survey_after_deletion mixedShelf { allDialects := true } mixedSurvey
    unlinked readable rfl returned (by decide +kernel)
  exact ⟨unlinked, returned, done, again⟩

end Workspace

end SheetReach
