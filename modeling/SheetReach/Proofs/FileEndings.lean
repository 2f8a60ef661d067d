import SheetReach.Proofs.ReadFailures
import SheetReach.Proofs.Unused

/-! What imports lead to has the ending of a dialect that is followed. A candidate gets such an ending when
it is named, and neither joining nor normalising takes it away, whatever dots, backslashes and endings the
specifier has. So a file that is no entry point is parsed in the dialect its ending tells, and from entry
points of one dialect no file of another is reached unless that one is followed too. -/
namespace SheetReach

namespace Dialect

theorem owns_iff (dialect : Dialect) (file : List Char) :
    dialect.owns file = true ↔ dialect.extension <:+ file :=
  Text.endsWith_iff dialect.extension file

theorem mem_all (dialect : Dialect) : dialect ∈ all := by
  cases dialect <;> decide

theorem length_extension (dialect : Dialect) : dialect.extension.length = 5 := by
  cases dialect <;> rfl

theorem extension_injective {first second : Dialect} (same : first.extension = second.extension) :
    first = second := by
  cases first <;> cases second <;> revert same <;> decide

/-- No text has two endings. -/
theorem extension_unique {first second : Dialect} {text : List Char} (ends : first.extension <:+ text)
    (alsoEnds : second.extension <:+ text) : first = second := by
  have lengths : first.extension.length = second.extension.length := by
    rw [length_extension, length_extension]
  apply extension_injective
  rcases List.suffix_or_suffix_of_suffix ends alsoEnds with inside | inside
  · exact inside.eq_of_length lengths
  · exact (inside.eq_of_length lengths.symm).symm

theorem extension_of_ofPath? {path : List Char} {dialect : Dialect} (told : ofPath? path = some dialect) :
    dialect.extension <:+ path := by
  have owned : dialect.owns path = true := by
    unfold ofPath? at told
    simpa using List.find?_some told
  exact (owns_iff dialect path).mp owned

theorem ofPath?_eq_some_iff (path : List Char) (dialect : Dialect) :
    ofPath? path = some dialect ↔ dialect.extension <:+ path := by
  refine ⟨extension_of_ofPath?, fun ends => ?_⟩
  cases told : ofPath? path with
  | none => exact absurd ((owns_iff dialect path).mpr ends) (List.find?_eq_none.mp told dialect dialect.mem_all)
  | some found => rw [extension_unique (extension_of_ofPath? told) ends]

/-- The ending makes a name: it is neither empty nor one of the names with dots alone. -/
theorem legal_of_extension (dialect : Dialect) (name : Name) (unslashed : '/' ∉ name)
    (ends : dialect.extension <:+ name) : Path.Legal name := by
  have long := ends.length_le
  rw [length_extension] at long
  refine ⟨?_, unslashed, ?_, ?_⟩ <;> rintro rfl <;> simp [Path.here, Path.up] at long

theorem extension_normalize (dialect : Dialect) {cwd path : Path} (ends : dialect.extension <:+ path) :
    dialect.extension <:+ Path.normalize cwd path :=
  Path.suffix_normalize dialect.slash_not_mem_extension dialect.legal_of_extension ends

end Dialect

namespace Import

theorem withExtension_ending (dialect : Dialect) (enabled : List Dialect) (file : List Char) :
    ∃ found, (found = dialect ∨ found ∈ enabled) ∧
      found.extension <:+ withExtension dialect enabled file := by
  unfold withExtension
  split
  next found told =>
    split
    next kept => exact ⟨found, by simpa using kept, (Dialect.ofPath?_eq_some_iff file found).mp told⟩
    next => exact ⟨dialect, Or.inl rfl, List.suffix_append file _⟩
  next => exact ⟨dialect, Or.inl rfl, List.suffix_append file _⟩

theorem candidates_ending {cwd : Path} {dialect : Dialect} {enabled : List Dialect}
    {importerDirectory : Path} {specifier : List Char} {path : Path}
    (member : path ∈ candidates cwd dialect enabled importerDirectory specifier) :
    ∃ found, (found = dialect ∨ found ∈ enabled) ∧ found.extension <:+ path := by
  unfold candidates at member
  simp only at member
  split at member
  next => cases member
  next =>
    split at member
    next => cases member
    next =>
      obtain ⟨name, named, rfl⟩ := List.mem_map.mp member
      generalize (splitLast _).2 = file at named
      obtain ⟨found, followed, ends⟩ := withExtension_ending dialect enabled file
      have nameEnds : found.extension <:+ name := by
        simp only [List.mem_cons, List.not_mem_nil, or_false] at named
        rcases named with rfl | rfl
        · exact ends
        · exact ends.trans (List.suffix_cons _ _)
      exact ⟨found, followed, found.extension_normalize (nameEnds.trans (Path.suffix_join _ name))⟩

end Import

namespace ImportGraph

theorem Config.dialect_mem (config : Config) : config.dialect ∈ config.dialects :=
  List.mem_cons_self

theorem Config.dialectOf_mem (config : Config) (path : Path) : config.dialectOf path ∈ config.dialects := by
  unfold Config.dialectOf
  split
  next found told =>
    split
    next followed => exact followed
    next => exact config.dialect_mem
  next => exact config.dialect_mem

/-- The ending of a dialect that is followed decides. -/
theorem Config.dialectOf_eq (config : Config) {dialect : Dialect} (followed : dialect ∈ config.dialects)
    {path : Path} (ends : dialect.extension <:+ path) : config.dialectOf path = dialect := by
  simp only [Config.dialectOf, (Dialect.ofPath?_eq_some_iff path dialect).mpr ends, if_pos followed]

theorem Config.candidates_ending (config : Config) {importer path : Path} {specifier : List Char}
    (member : path ∈ config.candidates importer specifier) :
    ∃ dialect ∈ config.dialects, dialect.extension <:+ path := by
  obtain ⟨found, rfl | followed, ends⟩ := Import.candidates_ending member
  · exact ⟨_, config.dialectOf_mem importer, ends⟩
  · exact ⟨found, followed, ends⟩

/-- What has to be entered is an entry point or has an ending. -/
theorem Asked.entry_or_ending {snapshot : Snapshot} {config : Config} {entryPoints : List Path}
    {read : Path → Prop} {path : Path} (asked : Asked snapshot config entryPoints read path) :
    path ∈ entryPoints.map (Path.normalize config.cwd) ∨
      ∃ dialect ∈ config.dialects, dialect.extension <:+ path := by
  cases asked with
  | entry given member => exact Or.inl (List.mem_map.mpr ⟨given, member, rfl⟩)
  | imported importer source specifier path known text member found =>
    exact Or.inr (config.candidates_ending (present?_spec snapshot _ path found).1)

theorem Builds.asked_entered {snapshot : Snapshot} {config : Config} {entryPoints : List Path}
    {graph : ImportGraph} (built : Builds snapshot config entryPoints graph) {path : Path}
    (entered : path ∈ graph.reachable ∨ path ∈ graph.failures.map ReadFailure.path) :
    Asked snapshot config entryPoints (· ∈ graph.reachable) path := by
  rcases entered with reached | failed
  · exact built.asked path reached
  · exact ((built.mem_failures_iff path).mp failed).2

end ImportGraph

namespace Workspace

theorem graphConfig_dialects {request : Request} (only : request.allDialects = false)
    (workspace : Workspace) (dialect : Dialect) :
    (workspace.graphConfig request dialect).dialects = [dialect] := by
  simp [graphConfig, Request.enabled, only, ImportGraph.Config.dialects]

theorem entryPoints_ending {workspace : Workspace} {root : Path} {dialect : Dialect} {entries : List Path}
    (discovered : workspace.entryPoints root dialect = .ok entries) :
    ∀ entry ∈ entries, dialect.extension <:+ entry := by
  obtain ⟨names, -, rfl⟩ := (Except.map_eq_ok_iff _ _ _).mp discovered
  intro entry member
  obtain ⟨name, owned, rfl⟩ := List.mem_map.mp ((Text.mem_sort _ _).mp member)
  have ends := (dialect.owns_iff name).mp (List.mem_filter.mp owned).2
  exact dialect.extension_normalize (ends.trans (Path.suffix_join root name))

/-- With one dialect and entry points found in the directory, everything entered has its ending. -/
theorem survey_entered_ending {workspace : Workspace} {request : Request} {survey : Survey}
    (returned : (workspace.survey request).result = .ok survey) (discovered : request.entryPoints = none)
    (only : request.allDialects = false) {path : Path}
    (entered : path ∈ survey.reachable ∨ path ∈ survey.failures.map ReadFailure.path) :
    survey.dialect.extension <:+ path := by
  obtain ⟨-, -, -, -, started, ⟨-, reachable, -, -, failures⟩ | ⟨-, graph, -⟩⟩ :=
    (survey_eq_ok_iff _ _ _).mp returned
  · simp [reachable, failures] at entered
  simp only [startingPoints, discovered] at started
  have built := (importGraph_eq_ok_iff _ _ _ _).mp graph
  rcases (built.asked_entered entered).entry_or_ending with entry | ⟨dialect, followed, ends⟩
  · obtain ⟨given, member, rfl⟩ := List.mem_map.mp entry
    exact survey.dialect.extension_normalize (entryPoints_ending started given member)
  · rw [graphConfig_dialects only, List.mem_singleton] at followed
    exact followed ▸ ends

end Workspace

/-- Whatever the snapshot and the dialects, everything that a finished run entered, readable or not, is a
normal entry point or has the ending of a followed dialect, and that dialect is the one it is parsed in. So
a survey with one dialect and entry points of its own finding enters files of that dialect only. -/
theorem entered_endings :
    (∀ (snapshot : Snapshot) (config : ImportGraph.Config) (entryPoints : List Path) (graph : ImportGraph),
      ImportGraph.Builds snapshot config entryPoints graph →
      ∀ path, path ∈ graph.reachable ∨ path ∈ graph.failures.map ReadFailure.path →
        path ∉ entryPoints.map (Path.normalize config.cwd) →
        ∃ dialect ∈ config.dialects, dialect.extension <:+ path ∧ config.dialectOf path = dialect ∧
          ∀ other : Dialect, other.extension <:+ path → other = dialect) ∧
    ∀ (workspace : Workspace) (request : Request) (survey : Survey),
      (workspace.survey request).result = .ok survey → request.entryPoints = none →
      request.allDialects = false →
      ∀ path, path ∈ survey.reachable ∨ path ∈ survey.failures.map ReadFailure.path →
        survey.dialect.extension <:+ path := by
  constructor
  · intro snapshot config entryPoints graph built path entered imported
    obtain ⟨dialect, followed, ends⟩ := (built.asked_entered entered).entry_or_ending.resolve_left imported
    exact ⟨dialect, followed, ends, config.dialectOf_eq followed ends,
      fun other otherEnds => Dialect.extension_unique otherEnds ends⟩
  · intro workspace request survey returned discovered only path entered
    exact Workspace.survey_entered_ending returned discovered only entered

/-- An entry point without an ending, imports of both dialects in either direction, with a backslash, with
a dot in the name and with two endings, and a file above that cannot be read. -/
def bilingual : Snapshot := fun path =>
  if path = "/w/m.txt".toList then .text "@import 'sub\\p.sass', '../x.css.scss', 'a.b';".toList
  else if path = "/w/sub/_p.sass".toList then .text "@import q".toList
  else if path = "/w/sub/q.sass".toList then .text "@import ../a.b.scss".toList
  else if path = "/w/_a.b.scss".toList then .text []
  else if path = "/x.css.scss".toList then .failing "refused"
  else .missing

def bilingualConfig : ImportGraph.Config where
  cwd := "/w".toList
  dialect := .scss
  others := [.sass]

def bilingualGraph : ImportGraph where
  reachable := ["/w/m.txt".toList, "/w/sub/_p.sass".toList, "/w/_a.b.scss".toList, "/w/sub/q.sass".toList]
  dangling := []
  failures := [⟨"/x.css.scss".toList, "refused"⟩]

theorem bilingual_entered_endings :
    ImportGraph.Builds bilingual bilingualConfig ["m.txt".toList] bilingualGraph ∧
      (∃ dialect ∈ bilingualConfig.dialects, dialect.extension <:+ "/w/sub/q.sass".toList ∧
        bilingualConfig.dialectOf "/w/sub/q.sass".toList = dialect) ∧
      (∃ dialect ∈ bilingualConfig.dialects, dialect.extension <:+ "/x.css.scss".toList) ∧
      (Workspace.shelf.survey { exclude := ["/kept/".toList] }).result = .ok Workspace.shelfSurvey ∧
      Workspace.shelfSurvey.dialect.extension <:+ "/sub/_a.scss".toList := by
  have built : ImportGraph.Builds bilingual bilingualConfig ["m.txt".toList] bilingualGraph :=
    ⟨4, by decide +kernel⟩
  have returned : (Workspace.shelf.survey { exclude := ["/kept/".toList] }).result =
      .ok Workspace.shelfSurvey := by decide +kernel
  obtain ⟨runs, surveys⟩ := entered_endings
  obtain ⟨dialect, followed, ends, parsed, -⟩ := runs _ _ _ _ built "/w/sub/q.sass".toList
    (Or.inl (by decide +kernel)) (by decide +kernel)
  obtain ⟨other, otherFollowed, otherEnds, -⟩ := runs _ _ _ _ built "/x.css.scss".toList
    (Or.inr (by decide +kernel)) (by decide +kernel)
  exact ⟨built, ⟨dialect, followed, ends, parsed⟩, ⟨other, otherFollowed, otherEnds⟩, returned,
    surveys _ _ _ returned rfl rfl _ (Or.inl (by decide +kernel))⟩

end SheetReach
