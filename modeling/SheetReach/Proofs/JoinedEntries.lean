import SheetReach.Proofs.SurveyOutcome

/-! Entry points add up. A run from two lists of them together marks files of the second list while it
follows imports of the first, and so enters less there than a run from the second list alone. What it ends
with does not show that: it reaches, records and fails to read what the two runs apart do, and it comes to
its end exactly if both of them do. -/
namespace SheetReach.ImportGraph

section Reached

variable {snapshot : Snapshot} {config : Config} {entryPoints first second : List Path}

theorem Reached.mono (more : first ⊆ second) {path : Path} (reached : Reached snapshot config first path) :
    Reached snapshot config second path := by
  induction reached with
  | entry given source member text => exact .entry given source (more member) text
  | imported importer path source specifier other _ text member found reads ih =>
    exact .imported importer path source specifier other ih text member found reads

theorem reached_append_iff (path : Path) :
    Reached snapshot config (first ++ second) path ↔
      Reached snapshot config first path ∨ Reached snapshot config second path := by
  constructor
  · intro reached
    induction reached with
    | entry given source member text =>
      rcases List.mem_append.mp member with early | late
      · exact Or.inl (.entry given source early text)
      · exact Or.inr (.entry given source late text)
    | imported importer path source specifier other _ text member found reads ih =>
      rcases ih with early | late
      · exact Or.inl (.imported importer path source specifier other early text member found reads)
      · exact Or.inr (.imported importer path source specifier other late text member found reads)
  · rintro (early | late)
    · exact early.mono (List.subset_append_left first second)
    · exact late.mono (List.subset_append_right first second)

/-- A path that has to be entered from some entry points. -/
def Wanted (snapshot : Snapshot) (config : Config) (entryPoints : List Path) (path : Path) : Prop :=
  Asked snapshot config entryPoints (Reached snapshot config entryPoints) path

theorem Wanted.mono (more : first ⊆ second) {path : Path} (wanted : Wanted snapshot config first path) :
    Wanted snapshot config second path := by
  cases wanted with
  | entry given member => exact .entry given (more member)
  | imported importer source specifier path known text member found =>
    exact .imported importer source specifier path (known.mono more) text member found

theorem wanted_append_iff (path : Path) :
    Wanted snapshot config (first ++ second) path ↔
      Wanted snapshot config first path ∨ Wanted snapshot config second path := by
  constructor
  · intro wanted
    cases wanted with
    | entry given member =>
      rcases List.mem_append.mp member with early | late
      · exact Or.inl (.entry given early)
      · exact Or.inr (.entry given late)
    | imported importer source specifier path known text member found =>
      rcases (reached_append_iff importer).mp known with early | late
      · exact Or.inl (.imported importer source specifier path early text member found)
      · exact Or.inr (.imported importer source specifier path late text member found)
  · rintro (early | late)
    · exact early.mono (List.subset_append_left first second)
    · exact late.mono (List.subset_append_right first second)

theorem trace_reached (steps : Nat) {path : Path}
    (reached : path ∈ (trace snapshot config steps entryPoints).reachable) :
    Reached snapshot config entryPoints path :=
  ((State.reached_stable snapshot config entryPoints).trace (fun _ _ _ _ kept => kept)
    ⟨(fun _ absurd => by cases absurd), (fun absurd => by cases absurd)⟩ steps).1 path reached

section Builds

variable {graph : ImportGraph} (built : Builds snapshot config entryPoints graph)

include built

theorem Builds.mem_reachable_iff (path : Path) :
    path ∈ graph.reachable ↔ Reached snapshot config entryPoints path := by
  constructor
  · intro member
    obtain ⟨steps, -, -, rfl⟩ := built
    exact trace_reached steps (List.mem_reverse.mp member)
  · intro reached
    exact reached.mem_of_closed built.closed

theorem Builds.failed_iff (path : Path) :
    path ∈ graph.failures.map ReadFailure.path ↔
      (∃ reason, snapshot path = .failing reason) ∧ Wanted snapshot config entryPoints path := by
  rw [built.mem_failures_iff]
  refine and_congr_right fun _ => ⟨fun asked => ?_, fun wanted => ?_⟩
  · exact asked.mono fun file member => (built.mem_reachable_iff file).mp member
  · exact Asked.mono wanted fun file reached => (built.mem_reachable_iff file).mpr reached

/-- The records of imports are those of the files reached, whatever the order they were taken in. -/
theorem Builds.imports_iff (record : DanglingImport) :
    record ∈ graph.dangling ∧ record.importer ≠ none ↔
      ∃ importer, Reached snapshot config entryPoints importer ∧
        record ∈ importRecords snapshot config importer := by
  obtain ⟨order, files, records⟩ := built.dangling_eq
  rw [records, List.mem_append, List.mem_filterMap, List.mem_flatMap]
  constructor
  · rintro ⟨⟨given, -, recorded⟩ | ⟨importer, taken, recorded⟩, imported⟩
    · exact absurd (entryRecord?_eq_some recorded).1 imported
    · exact ⟨importer, (built.mem_reachable_iff importer).mp (files.mem_iff.mp taken), recorded⟩
  · rintro ⟨importer, reached, recorded⟩
    have taken := files.mem_iff.mpr ((built.mem_reachable_iff importer).mpr reached)
    refine ⟨Or.inr ⟨importer, taken, recorded⟩, ?_⟩
    rw [(mem_importRecords recorded).1]
    exact Option.some_ne_none importer

end Builds

/-- A run comes to its end with a graph exactly if it has finitely many files to reach and no path to
enter that is none. -/
theorem exists_builds_iff :
    (∃ graph, Builds snapshot config entryPoints graph) ↔
      (∃ files : List Path, ∀ path, Reached snapshot config entryPoints path → path ∈ files) ∧
        ∀ path, Wanted snapshot config entryPoints path → snapshot path ≠ .unusable := by
  constructor
  · rintro ⟨graph, steps, finished, running, same⟩
    have built : Builds snapshot config entryPoints graph := ⟨steps, finished, running, same⟩
    have rests : (trace snapshot config steps entryPoints).settled = true := by
      simp [State.settled, finished]
    exact ⟨⟨graph.reachable, fun path => (built.mem_reachable_iff path).mpr⟩,
      (builds_iff rests).mp ⟨graph, built⟩⟩
  · rintro ⟨⟨files, inside⟩, usable⟩
    have bound : (trace snapshot config files.length entryPoints).reachable.length ≤ files.length :=
      (trace_faithful snapshot config files.length entryPoints).reachedOnce.length_le_of_subset
        fun path reached => inside path (trace_reached files.length reached)
    have rests := trace_settled_of_length_le snapshot config entryPoints files.length bound
    exact (builds_iff rests).mpr usable

theorem exists_builds_append_iff :
    (∃ graph, Builds snapshot config (first ++ second) graph) ↔
      (∃ graph, Builds snapshot config first graph) ∧ ∃ graph, Builds snapshot config second graph := by
  simp only [exists_builds_iff, reached_append_iff, wanted_append_iff]
  constructor
  · rintro ⟨⟨files, inside⟩, usable⟩
    refine ⟨⟨⟨files, fun path early => ?_⟩, fun path early => ?_⟩,
      ⟨files, fun path late => ?_⟩, fun path late => ?_⟩
    · exact inside path (Or.inl early)
    · exact usable path (Or.inl early)
    · exact inside path (Or.inr late)
    · exact usable path (Or.inr late)
  · rintro ⟨⟨⟨files, inside⟩, usable⟩, ⟨others, othersInside⟩, othersUsable⟩
    refine ⟨⟨files ++ others, fun path reached => List.mem_append.mpr ?_⟩, fun path wanted => ?_⟩
    · exact reached.imp (inside path) (othersInside path)
    · exact wanted.elim (usable path) (othersUsable path)

end Reached

/-- Two lists of entry points taken together. The run from both comes to its end exactly if the runs apart
do. It then reaches the files of both, fails to read the files of both and records the imports of both;
adding entry points takes no file away, and neither their order nor repeating one changes which files are
reached. -/
theorem builds_append (snapshot : Snapshot) (config : Config) (first second : List Path) :
    ((∃ joint, Builds snapshot config (first ++ second) joint) ↔
      (∃ left, Builds snapshot config first left) ∧ ∃ right, Builds snapshot config second right) ∧
    ∀ left right joint, Builds snapshot config first left → Builds snapshot config second right →
      Builds snapshot config (first ++ second) joint →
      {path | path ∈ joint.reachable} = {path | path ∈ left.reachable} ∪ {path | path ∈ right.reachable} ∧
      {path | path ∈ joint.failures.map ReadFailure.path} =
        {path | path ∈ left.failures.map ReadFailure.path} ∪
          {path | path ∈ right.failures.map ReadFailure.path} ∧
      {record | record ∈ joint.dangling ∧ record.importer ≠ none} =
        {record | record ∈ left.dangling ∧ record.importer ≠ none} ∪
          {record | record ∈ right.dangling ∧ record.importer ≠ none} ∧
      ∀ others graph, Builds snapshot config others graph →
        (others ⊆ first ++ second → graph.reachable ⊆ joint.reachable) ∧
        ((∀ given, given ∈ others ↔ given ∈ first ++ second) →
          graph.reachable.Perm joint.reachable) := by
  refine ⟨exists_builds_append_iff, fun left right joint builtLeft builtRight built => ⟨?_, ?_, ?_, ?_⟩⟩
  · ext path
    simp only [Set.mem_union, Set.mem_ofPred_eq, built.mem_reachable_iff, builtLeft.mem_reachable_iff,
      builtRight.mem_reachable_iff]
    exact reached_append_iff path
  · ext path
    simp only [Set.mem_union, Set.mem_ofPred_eq, built.failed_iff, builtLeft.failed_iff,
      builtRight.failed_iff, wanted_append_iff]
    exact and_or_left
  · ext record
    simp only [Set.mem_union, Set.mem_ofPred_eq, built.imports_iff, builtLeft.imports_iff,
      builtRight.imports_iff, reached_append_iff, or_and_right, exists_or]
  · intro others graph builtOthers
    have grows : others ⊆ first ++ second → graph.reachable ⊆ joint.reachable := by
      intro more path reached
      exact (built.mem_reachable_iff path).mpr (((builtOthers.mem_reachable_iff path).mp reached).mono more)
    refine ⟨grows, fun alike => ?_⟩
    have back : joint.reachable ⊆ graph.reachable := by
      intro path reached
      exact (builtOthers.mem_reachable_iff path).mpr
        (((built.mem_reachable_iff path).mp reached).mono fun given => (alike given).mpr)
    rw [List.perm_ext_iff_of_nodup builtOthers.reachable_nodup built.reachable_nodup]
    have forth := grows fun given => (alike given).mp
    exact fun path => ⟨fun reached => forth reached, fun reached => back reached⟩

/-- Two files that share a partial and a file that cannot be read. The partial imports itself. -/
def crossed : Snapshot := fun path =>
  if path = "/a.scss".toList then .text "@import 'p', 'x';".toList
  else if path = "/b.scss".toList then .text "@import 'x', 'p', 'lost', 'q';".toList
  else if path = "/_p.scss".toList then .text "@import 'p', 'gone';".toList
  else if path = "/_q.scss".toList then .failing "refused"
  else if path = "/x.scss".toList then .failing "refused"
  else .missing

def crossedConfig : Config where
  cwd := ['/']
  dialect := .scss

def crossedGraph (entryPoints : List Path) : ImportGraph :=
  (trace crossed crossedConfig 3 entryPoints).graph

theorem crossed_builds_append :
    Builds crossed crossedConfig ["a.scss".toList] (crossedGraph ["a.scss".toList]) ∧
      Builds crossed crossedConfig ["no.scss".toList, "b.scss".toList]
        (crossedGraph ["no.scss".toList, "b.scss".toList]) ∧
      Builds crossed crossedConfig ["a.scss".toList, "no.scss".toList, "b.scss".toList]
        (crossedGraph ["a.scss".toList, "no.scss".toList, "b.scss".toList]) ∧
      {path | path ∈ (crossedGraph ["a.scss".toList, "no.scss".toList, "b.scss".toList]).reachable} =
        {path | path ∈ (crossedGraph ["a.scss".toList]).reachable} ∪
          {path | path ∈ (crossedGraph ["no.scss".toList, "b.scss".toList]).reachable} ∧
      (crossedGraph ["b.scss".toList, "a.scss".toList, "no.scss".toList, "b.scss".toList]).reachable.Perm
        (crossedGraph ["a.scss".toList, "no.scss".toList, "b.scss".toList]).reachable := by
  have left : Builds crossed crossedConfig ["a.scss".toList] (crossedGraph ["a.scss".toList]) :=
    ⟨3, by decide +kernel⟩
  have right : Builds crossed crossedConfig ["no.scss".toList, "b.scss".toList]
      (crossedGraph ["no.scss".toList, "b.scss".toList]) := ⟨3, by decide +kernel⟩
  have joint : Builds crossed crossedConfig ["a.scss".toList, "no.scss".toList, "b.scss".toList]
      (crossedGraph ["a.scss".toList, "no.scss".toList, "b.scss".toList]) := ⟨3, by decide +kernel⟩
  have turned : Builds crossed crossedConfig
      ["b.scss".toList, "a.scss".toList, "no.scss".toList, "b.scss".toList]
      (crossedGraph ["b.scss".toList, "a.scss".toList, "no.scss".toList, "b.scss".toList]) :=
    ⟨3, by decide +kernel⟩
  obtain ⟨-, laws⟩ := builds_append crossed crossedConfig ["a.scss".toList]
    ["no.scss".toList, "b.scss".toList]
  obtain ⟨reachable, -, -, others⟩ := laws _ _ _ left right joint
  exact ⟨left, right, joint, reachable, (others _ _ turned).2 (by simp)⟩

end SheetReach.ImportGraph
