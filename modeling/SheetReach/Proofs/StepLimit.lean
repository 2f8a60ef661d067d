import Mathlib.Data.Nat.Digits.Defs
import Mathlib.Data.Finset.Card
import Mathlib.Data.Finset.Range
import SheetReach.Proofs.Reachability
import SheetReach.Survey

/-! The step limit of a run is never what ends it. Every step takes one file off the stack for good, a
file is put on the stack once, and only paths within the length limit can be read; as numbers to the
base of all characters they all lie below the step limit. -/
namespace SheetReach

theorem Text.length_le_byteLength (text : List Char) : text.length ≤ Text.byteLength text := by
  induction text with
  | nil => simp [Text.byteLength]
  | cons c rest ih =>
    have positive := c.utf8Size_pos
    simp only [Text.byteLength, List.map_cons, List.foldr_cons, List.length_cons] at ih ⊢
    omega

/-- A path read as a number whose digits are its characters. -/
def Path.toNumber (path : Path) : Nat :=
  Nat.ofDigits 0x110000 (path.map Char.toNat)

theorem Path.char_lt (c : Char) : c.toNat < 0x110000 := by
  have valid := c.valid
  simp only [UInt32.isValidChar, Nat.isValidChar] at valid
  change c.val.toNat < 0x110000
  omega

theorem Path.toNumber_lt (path : Path) (limit : Nat) (short : path.length ≤ limit) :
    path.toNumber < 0x110000 ^ limit := by
  have digits : ∀ digit ∈ path.map Char.toNat, digit < 0x110000 := by
    intro digit member
    obtain ⟨c, -, rfl⟩ := List.mem_map.mp member
    exact char_lt c
  calc
    path.toNumber < 0x110000 ^ (path.map Char.toNat).length :=
      Nat.ofDigits_lt_base_pow_length (by decide) digits
    _ ≤ 0x110000 ^ limit := Nat.pow_le_pow_right (by decide) (by simpa using short)

/-- Without a NUL no digit is zero, and the number tells the path. -/
theorem Path.toNumber_injective (first second : Path) (firstPlain : '\x00' ∉ first)
    (secondPlain : '\x00' ∉ second) (same : first.toNumber = second.toNumber) : first = second := by
  have readBack : ∀ path : Path, '\x00' ∉ path →
      Nat.digits 0x110000 path.toNumber = path.map Char.toNat := by
    intro path plain
    apply Nat.digits_ofDigits 0x110000 (by decide)
    · intro digit member
      obtain ⟨c, -, rfl⟩ := List.mem_map.mp member
      exact char_lt c
    · intro nonempty zero
      obtain ⟨c, member, code⟩ := List.mem_map.mp (List.getLast_mem nonempty)
      have null : c = '\x00' := Char.toNat_inj.mp (code.trans zero)
      exact plain (null ▸ member)
  have digits : first.map Char.toNat = second.map Char.toNat := by
    rw [← readBack first firstPlain, ← readBack second secondPlain, same]
  exact List.map_injective_iff.mpr (fun _ _ equal => Char.toNat_inj.mp equal) digits

theorem Path.nodup_length_le (paths : List Path) (distinct : paths.Nodup) (limit : Nat)
    (short : ∀ path ∈ paths, path.length ≤ limit) (plain : ∀ path ∈ paths, '\x00' ∉ path) :
    paths.length ≤ 0x110000 ^ limit := by
  have numbersDistinct : (paths.map toNumber).Nodup := by
    apply distinct.map_on
    intro first firstMember second secondMember same
    exact toNumber_injective first second (plain first firstMember) (plain second secondMember) same
  have below : paths.map toNumber ⊆ List.range (0x110000 ^ limit) := by
    intro number member
    obtain ⟨path, listed, rfl⟩ := List.mem_map.mp member
    exact List.mem_range.mpr (path.toNumber_lt limit (short path listed))
  simpa using numbersDistinct.length_le_of_subset below

namespace ImportGraph

theorem snapshot_eq_text_iff (workspace : Workspace) (path : Path) (source : List Char) :
    snapshot workspace path = .text source ↔ workspace.readText path = .ok source := by
  unfold snapshot
  split
  next text reads => simp [reads]
  next reads => simp [reads]
  next reads => simp [reads]
  next reads => simp [reads]
  next reads => simp [reads]

/-- Only a path without NUL that is shorter than the limit can be read. -/
theorem snapshot_text_short (workspace : Workspace) (path : Path) (source : List Char)
    (text : snapshot workspace path = .text source) :
    '\x00' ∉ path ∧ path.length < FileTree.pathLimit := by
  unfold snapshot Workspace.readText Workspace.entryAt Workspace.locate FileTree.locate at text
  by_cases null : path.contains '\x00'
  · rw [if_pos null] at text
    cases text
  · refine ⟨by simpa using null, ?_⟩
    by_contra long
    have bytes := Text.length_le_byteLength path
    have refused : FileTree.pathLimit ≤ Text.byteLength path := by omega
    have nonempty : path.isEmpty = false := by
      cases path with
      | nil => simp [FileTree.pathLimit] at long
      | cons => rfl
    rw [if_neg null, if_neg (by simp [nonempty]), if_pos refused] at text
    cases text

namespace State

/-- One step takes one file off the stack and puts on it what it reaches. -/
theorem Faithful.step_count {snapshot : Snapshot} {state : State} (faithful : Faithful snapshot state)
    (config : Config) (waiting : state.pending ≠ []) :
    (state.step snapshot config).reachable.length + state.pending.length =
      (state.step snapshot config).pending.length + state.reachable.length + 1 := by
  cases top : state.pending with
  | nil => exact absurd top waiting
  | cons item rest =>
    obtain ⟨added, reachable, pending⟩ := faithful.step_pushes config top
    have stack := congrArg List.length pending
    simp only [List.length_map, List.length_append] at stack
    simp only [reachable, List.length_append, List.length_cons]
    omega

/-- A run of so many steps has come to rest, or has taken that many files off the stack. -/
theorem Faithful.run_count {snapshot : Snapshot} {state : State} (faithful : Faithful snapshot state)
    (config : Config) (count : Nat) :
    (state.run snapshot config count).settled = true ∨
      (state.run snapshot config count).reachable.length + state.pending.length =
        (state.run snapshot config count).pending.length + state.reachable.length + count := by
  induction count generalizing state with
  | zero => exact Or.inr (by simp only [State.run]; omega)
  | succ count ih =>
    rw [State.run]
    split
    next settled => exact Or.inl settled
    next unsettled =>
      have waiting : state.pending ≠ [] := fun none => unsettled (by simp [settled, none])
      have next := (faithful.step config).1
      have first := faithful.step_count config waiting
      rcases ih next with rest | rest
      · exact Or.inl rest
      · exact Or.inr (by omega)

/-- More steps than a run needs change nothing. -/
theorem run_of_settled {snapshot : Snapshot} {config : Config} (state : State) (count more : Nat)
    (settled : (state.run snapshot config count).settled = true) :
    state.run snapshot config (count + more) = state.run snapshot config count := by
  induction count generalizing state with
  | zero =>
    rw [State.run] at settled ⊢
    cases more with
    | zero => rfl
    | succ more => rw [Nat.zero_add, State.run, if_pos settled]
  | succ count ih =>
    rw [Nat.succ_add, State.run, State.run]
    by_cases rest : state.settled = true
    · rw [if_pos rest, if_pos rest]
    · rw [State.run, if_neg rest] at settled
      rw [if_neg rest, if_neg rest]
      exact ih _ settled

end State

/-- A run rests once it was allowed a step for each file that it reaches. -/
theorem trace_settled_of_length_le (snapshot : Snapshot) (config : Config) (entryPoints : List Path)
    (limit : Nat) (bound : (trace snapshot config limit entryPoints).reachable.length ≤ limit) :
    (trace snapshot config limit entryPoints).settled = true := by
  obtain ⟨started, files⟩ := State.started_files snapshot config entryPoints
  rcases started.run_count config limit with settled | count
  · exact settled
  · change (trace snapshot config limit entryPoints).reachable.length + _ =
      (trace snapshot config limit entryPoints).pending.length + _ + _ at count
    have stack := congrArg List.length files
    rw [List.length_map] at stack
    have empty : (trace snapshot config limit entryPoints).pending.length = 0 := by omega
    simp [State.settled, List.length_eq_zero_iff.mp empty]

/-- In a workspace every run comes to rest within the step limit. The limit stays a variable here, since
nothing must try to write it out. -/
theorem trace_settled (workspace : Workspace) (config : Config) (entryPoints : List Path) (limit : Nat)
    (enough : 0x110000 ^ FileTree.pathLimit ≤ limit) :
    (trace (snapshot workspace) config limit entryPoints).settled = true := by
  have faithful := trace_faithful (snapshot workspace) config limit entryPoints
  have readable : ∀ path ∈ (trace (snapshot workspace) config limit entryPoints).reachable,
      '\x00' ∉ path ∧ path.length < FileTree.pathLimit := by
    intro path reached
    obtain ⟨source, text⟩ := faithful.reached path reached
    exact snapshot_text_short workspace path source text
  have bound := Path.nodup_length_le _ faithful.reachedOnce FileTree.pathLimit
    (fun path reached => (readable path reached).2.le) (fun path reached => (readable path reached).1)
  exact trace_settled_of_length_le _ config entryPoints limit (bound.trans enough)

theorem trace_ok_iff (snapshot : Snapshot) (config : Config) (entryPoints : List Path) (limit : Nat)
    (settled : (trace snapshot config limit entryPoints).settled = true) (graph : ImportGraph) :
    ((trace snapshot config limit entryPoints).stopped = false ∧
      (trace snapshot config limit entryPoints).graph = graph) ↔
      Builds snapshot config entryPoints graph := by
  constructor
  · rintro ⟨running, rfl⟩
    exact ⟨limit, by simpa [State.settled, running] using settled, running, rfl⟩
  · rintro ⟨steps, finished, running, rfl⟩
    have early : (trace snapshot config steps entryPoints).settled = true := by
      simp [State.settled, finished]
    have same : trace snapshot config limit entryPoints = trace snapshot config steps entryPoints := by
      have first := State.run_of_settled _ steps limit early
      have second := State.run_of_settled _ limit steps settled
      rw [Nat.add_comm] at second
      exact second.symm.trans first
    rw [same]
    exact ⟨running, rfl⟩

theorem State.outcome_eq_ok_iff (state : State) (graph : ImportGraph) :
    (if state.stopped then .error .nullCharacter else .ok state.graph : Except AccessError ImportGraph) =
      .ok graph ↔ state.stopped = false ∧ state.graph = graph := by
  cases stopped : state.stopped with
  | true => simp
  | false => simp

theorem stepLimit_enough : 0x110000 ^ FileTree.pathLimit ≤ stepLimit := by
  unfold stepLimit
  generalize FileTree.pathLimit = limit
  exact Nat.le_refl _

end ImportGraph

namespace Workspace

theorem importGraph_result (workspace : Workspace) (config : ImportGraph.Config)
    (entryPoints : List Path) (graph : ImportGraph) :
    (workspace.importGraph config entryPoints).result = .ok graph ↔
      (ImportGraph.traceIn workspace config entryPoints).stopped = false ∧
        (ImportGraph.traceIn workspace config entryPoints).graph = graph := by
  simp only [importGraph]
  exact ImportGraph.State.outcome_eq_ok_iff (ImportGraph.traceIn workspace config entryPoints) graph

/-- A workspace has just the import graphs that runs of any length come to their end with. -/
theorem importGraph_eq_ok_iff (workspace : Workspace) (config : ImportGraph.Config)
    (entryPoints : List Path) (graph : ImportGraph) :
    (workspace.importGraph config entryPoints).result = .ok graph ↔
      ImportGraph.Builds (ImportGraph.snapshot workspace) config entryPoints graph := by
  rw [importGraph_result, ImportGraph.traceIn]
  exact ImportGraph.trace_ok_iff (ImportGraph.snapshot workspace) config entryPoints
    ImportGraph.stepLimit (ImportGraph.trace_settled workspace config entryPoints ImportGraph.stepLimit
      ImportGraph.stepLimit_enough) graph

end Workspace

end SheetReach
