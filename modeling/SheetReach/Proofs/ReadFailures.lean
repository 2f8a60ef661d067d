import SheetReach.Proofs.DanglingRecords

/-! The files that are there and cannot be read. A finished run records each of them once. They are the
failing paths among those that an entry point or an import of a reachable file asks for, and neither they
nor the reachable files are a candidate of anything recorded as dangling. -/
namespace SheetReach.ImportGraph

theorem State.Faithful.mem_failures {snapshot : Snapshot} {state : State}
    (faithful : Faithful snapshot state) {path : Path} {reason : String} (known : state.knows path = true)
    (fails : snapshot path = .failing reason) : path ∈ state.failures.map ReadFailure.path := by
  rcases (state.knows_iff path).mp known with reached | failed
  · obtain ⟨source, text⟩ := faithful.reached path reached
    rw [text] at fails
    cases fails
  · exact failed

section Builds

variable {snapshot : Snapshot} {config : Config} {entryPoints : List Path} {graph : ImportGraph}
  (built : Builds snapshot config entryPoints graph)

include built

theorem Builds.fails : ∀ failure ∈ graph.failures, snapshot failure.path = .failing failure.reason := by
  obtain ⟨steps, -, -, rfl⟩ := built
  intro failure member
  exact (trace_faithful snapshot config steps entryPoints).failed failure (List.mem_reverse.mp member)

theorem Builds.failures_nodup : (graph.failures.map ReadFailure.path).Nodup := by
  obtain ⟨steps, -, -, rfl⟩ := built
  have once := (trace_faithful snapshot config steps entryPoints).failedOnce
  simp only [State.graph, List.map_reverse]
  exact (List.reverse_perm _).nodup_iff.mpr once

/-- The recorded failures are the paths that fail and were asked for: a run enters nothing else, and at its
end it has entered all of them. -/
theorem Builds.mem_failures_iff (path : Path) :
    path ∈ graph.failures.map ReadFailure.path ↔
      (∃ reason, snapshot path = .failing reason) ∧
        Asked snapshot config entryPoints (· ∈ graph.reachable) path := by
  constructor
  · intro member
    obtain ⟨failure, listed, rfl⟩ := List.mem_map.mp member
    refine ⟨⟨failure.reason, built.fails failure listed⟩, ?_⟩
    obtain ⟨steps, -, -, rfl⟩ := built
    have known : (trace snapshot config steps entryPoints).knows failure.path = true := by
      refine (State.knows_iff _ _).mpr (Or.inr (List.mem_map.mpr ⟨failure, ?_, rfl⟩))
      exact List.mem_reverse.mp listed
    simp only [State.graph, List.mem_reverse]
    exact trace_asked snapshot config steps entryPoints failure.path known
  · rintro ⟨⟨reason, fails⟩, asked⟩
    obtain ⟨steps, finished, running, rfl⟩ := built
    simp only [State.graph, List.mem_reverse] at asked
    have known := trace_knows snapshot config steps entryPoints finished running path asked (by simp [fails])
    have failed := (trace_faithful snapshot config steps entryPoints).mem_failures known fails
    simpa [State.graph] using failed

/-- What is reachable or failing is there. -/
theorem Builds.there {path : Path}
    (entered : path ∈ graph.reachable ∨ path ∈ graph.failures.map ReadFailure.path) :
    snapshot path ≠ .missing := by
  rcases entered with reached | failed
  · obtain ⟨source, text⟩ := built.reads path reached
    simp [text]
  · obtain ⟨⟨reason, fails⟩, -⟩ := (built.mem_failures_iff path).mp failed
    simp [fails]

end Builds

/-- The three collections of a finished run beside each other. Failures are recorded once each, with the
reason they fail for; they are not reachable; a path is among them exactly if it fails and is a normal
entry point or the first candidate that is there of an import of a reachable file; and no candidate of a
dangling record is reachable or failing. -/
theorem failures_exact (snapshot : Snapshot) (config : Config) (entryPoints : List Path)
    (graph : ImportGraph) (built : Builds snapshot config entryPoints graph) :
    (graph.failures.map ReadFailure.path).Nodup ∧
      (∀ failure ∈ graph.failures, snapshot failure.path = .failing failure.reason) ∧
      (graph.failures.map ReadFailure.path).Disjoint graph.reachable ∧
      (∀ path, path ∈ graph.failures.map ReadFailure.path ↔
        (∃ reason, snapshot path = .failing reason) ∧
          Asked snapshot config entryPoints (· ∈ graph.reachable) path) ∧
      ∀ record ∈ graph.dangling, ∀ path ∈ record.candidates,
        path ∉ graph.reachable ∧ path ∉ graph.failures.map ReadFailure.path := by
  refine ⟨built.failures_nodup, built.fails, ?_, built.mem_failures_iff, ?_⟩
  · intro path failed reached
    obtain ⟨⟨reason, fails⟩, -⟩ := (built.mem_failures_iff path).mp failed
    obtain ⟨source, text⟩ := built.reads path reached
    rw [text] at fails
    cases fails
  · intro record member path candidate
    have absent := built.dangling_missing member path candidate
    constructor
    · intro reached
      exact built.there (Or.inl reached) absent
    · intro failed
      exact built.there (Or.inr failed) absent

/-- A plain name that cannot be read, met as an entry point and from two files that import each other,
beside a partial that can be read. -/
def blocked : Snapshot := fun path =>
  if path = "/m.scss".toList then .text "@import 'x', 'p';".toList
  else if path = "/_p.scss".toList then .text "@import 'm', 'x', 'gone';".toList
  else if path = "/x.scss".toList then .failing "refused"
  else if path = "/_x.scss".toList then .text []
  else .missing

def blockedGraph : ImportGraph where
  reachable := ["/m.scss".toList, "/_p.scss".toList]
  dangling := [⟨some "/_p.scss".toList, "gone".toList, ["/gone.scss".toList, "/_gone.scss".toList]⟩]
  failures := [⟨"/x.scss".toList, "refused"⟩]

theorem blocked_failures_exact :
    Builds blocked { cwd := ['/'], dialect := .scss } ["x.scss".toList, "m.scss".toList] blockedGraph ∧
      (blockedGraph.failures.map ReadFailure.path).Disjoint blockedGraph.reachable ∧
      Asked blocked { cwd := ['/'], dialect := .scss } ["x.scss".toList, "m.scss".toList]
        (· ∈ blockedGraph.reachable) "/x.scss".toList := by
  have built : Builds blocked { cwd := ['/'], dialect := .scss } ["x.scss".toList, "m.scss".toList]
      blockedGraph := ⟨2, by decide +kernel⟩
  obtain ⟨-, -, disjoint, members, -⟩ := failures_exact _ _ _ _ built
  exact ⟨built, disjoint, ((members _).mp (List.mem_singleton_self _)).2⟩

end SheetReach.ImportGraph
