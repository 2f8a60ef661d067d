import SheetReach.Proofs.PlainTree

/-! How long following imports goes on. Every run comes to rest. Each step takes one file off the stack, no
file is put on it twice, and a run that gives a graph has taken as many steps as the graph has reachable
files. Without links the tree bounds that number. With links that lead back it is only the limits on the
length of a path and on the links followed that do, since a file behind such a link has a name for every
number of rounds. -/
namespace SheetReach

namespace FileTree

/-- Names that lead from a directory back to it, by real directories and then by one link. -/
inductive LeadsBack (tree : FileTree) (top : Location) : List Name → Prop where
  | link (way : List Name) (name : Name) (base : Location) (target : Path)
      (down : tree.chase true 0 top way = .ok ⟨base, .directory⟩) (legal : Path.Legal name)
      (short : Text.byteLength name ≤ nameLimit) (found : tree.find? (name :: base) = some (.link target))
      (back : tree.chase true 0 (origin base target) (steps target) = .ok ⟨top, .directory⟩) :
      LeadsBack tree top (way ++ [name])

/-- A look-up that needs no link goes on from its end with all its links left. -/
theorem chase_unlinked_append {tree : FileTree} (links : Nat) (base : Location) (names : List Name)
    (place : Location) (leads : tree.chase true 0 base names = .ok ⟨place, .directory⟩) (more : List Name) :
    tree.chase true links base (names ++ more) = tree.chase true links place more := by
  have general : ∀ onLink, tree.takeSteps true onLink base (names ++ more) =
      tree.takeSteps true onLink place more := by
    intro onLink
    rw [chase] at leads
    induction names generalizing base with
    | nil =>
      cases leads
      rfl
    | cons name rest ih =>
      simp only [List.cons_append]
      by_cases here : name = Path.here
      · simp only [takeSteps, if_pos here] at leads ⊢
        exact ih base leads
      by_cases up : name = Path.up
      · simp only [takeSteps, if_neg here, if_pos up] at leads ⊢
        exact ih base.tail leads
      by_cases long : nameLimit < Text.byteLength name
      · simp [takeSteps, if_neg here, if_neg up, if_pos long] at leads
      simp only [takeSteps, if_neg here, if_neg up, if_neg long] at leads ⊢
      cases entry : tree.find? (name :: base) with
      | none =>
        rw [entry] at leads
        cases leads
      | some kind =>
        cases kind with
        | file content =>
          simp only [entry] at leads
          split at leads <;> cases leads
        | directory =>
          simp only [entry] at leads ⊢
          exact ih (name :: base) leads
        | link target =>
          simp only [entry] at leads
          split at leads <;> cases leads
  cases links with
  | zero => exact general _
  | succ links => exact general _

theorem takeSteps_link {tree : FileTree} (onLink : Location → Path → List Name → Except Fault Place)
    (base : Location) (name : Name) (target : Path) (rest : List Name) (legal : Path.Legal name)
    (short : Text.byteLength name ≤ nameLimit) (found : tree.find? (name :: base) = some (.link target)) :
    tree.takeSteps true onLink base (name :: rest) = onLink base target rest := by
  simp [takeSteps, legal.notHere, legal.notUp, Nat.not_lt.mpr short, found]

/-- Going round costs one link and nothing else. -/
theorem LeadsBack.once {tree : FileTree} {top : Location} {round : List Name}
    (back : tree.LeadsBack top round) (rest : List Name) :
    tree.chase true 0 top (round ++ rest) = .error .linkLoop ∧
      ∀ links, tree.chase true (links + 1) top (round ++ rest) = tree.chase true links top rest := by
  obtain ⟨way, name, base, target, down, legal, short, found, again⟩ := back
  rw [List.append_assoc, List.singleton_append]
  constructor
  · rw [chase_unlinked_append 0 top way base down, chase]
    exact takeSteps_link _ base name target rest legal short found
  · intro links
    rw [chase_unlinked_append (links + 1) top way base down, chase,
      takeSteps_link _ base name target rest legal short found]
    exact chase_unlinked_append links _ _ top again rest

/-- Behind a link that leads back, everything has a name for each number of rounds up to the number of
links allowed, and none beyond it. -/
theorem LeadsBack.rounds {tree : FileTree} {top : Location} {round : List Name}
    (back : tree.LeadsBack top round) (count links : Nat) (rest : List Name) :
    tree.chase true links top ((List.replicate count round).flatten ++ rest) =
      if count ≤ links then tree.chase true (links - count) top rest else .error .linkLoop := by
  induction count generalizing links with
  | zero => simp
  | succ count ih =>
    rw [List.replicate_succ, List.flatten_cons, List.append_assoc]
    obtain ⟨refused, passed⟩ := back.once ((List.replicate count round).flatten ++ rest)
    cases links with
    | zero =>
      rw [refused, if_neg (by omega)]
    | succ links =>
      rw [passed links, ih links, Nat.add_sub_add_right]
      simp only [Nat.add_le_add_iff_right]

end FileTree

namespace ImportGraph

theorem State.run_succ (snapshot : Snapshot) (config : Config) (state : State) (count : Nat) :
    state.run snapshot config (count + 1) =
      if (state.run snapshot config count).settled then state.run snapshot config count
      else (state.run snapshot config count).step snapshot config := by
  induction count generalizing state with
  | zero => rfl
  | succ count ih =>
    have opened : ∀ more, state.run snapshot config (more + 1) =
        if state.settled then state else (state.step snapshot config).run snapshot config more :=
      fun _ => rfl
    by_cases rest : state.settled = true
    · rw [opened (count + 1), opened count, if_pos rest, if_pos rest, if_pos rest]
    · rw [opened (count + 1), opened count, if_neg rest, if_neg rest]
      exact ih _

section Length

variable (snapshot : Snapshot) (config : Config) (entryPoints : List Path)

/-- The files on the stack after a number of steps, the top first. -/
def stackAfter (steps : Nat) : List Path :=
  (trace snapshot config steps entryPoints).pending.map Prod.fst

/-- The run takes this number of steps: it is at rest after them, and not before. -/
structure TakesSteps (count : Nat) : Prop where
  rests : (trace snapshot config count entryPoints).settled = true
  works : ∀ fewer < count, (trace snapshot config fewer entryPoints).settled = false

/-- What a run puts on its stack: at first what the entry points put there, then in every step what comes
on top once the file that was there is taken away. -/
structure PutsOn (count : Nat) (pushed : Nat → List Path) : Prop where
  first : stackAfter snapshot config entryPoints 0 = pushed 0
  later : ∀ step < count, stackAfter snapshot config entryPoints (step + 1) =
    pushed (step + 1) ++ (stackAfter snapshot config entryPoints step).tail

end Length

section Steps

variable {snapshot : Snapshot} {config : Config} {entryPoints : List Path}

theorem trace_succ {steps : Nat} (works : (trace snapshot config steps entryPoints).settled = false) :
    trace snapshot config (steps + 1) entryPoints =
      (trace snapshot config steps entryPoints).step snapshot config := by
  have next := State.run_succ snapshot config (entryPoints.foldl (State.start snapshot config) {}) steps
  rw [if_neg (by simpa [trace] using works)] at next
  exact next

theorem pending_of_unsettled {state : State} (works : state.settled = false) :
    ∃ item rest, state.pending = item :: rest := by
  cases top : state.pending with
  | nil => simp [State.settled, top] at works
  | cons item rest => exact ⟨item, rest, rfl⟩

theorem trace_pushes {steps : Nat} (works : (trace snapshot config steps entryPoints).settled = false) :
    ∃ added, (trace snapshot config (steps + 1) entryPoints).reachable =
        added ++ (trace snapshot config steps entryPoints).reachable ∧
      stackAfter snapshot config entryPoints (steps + 1) =
        added ++ (stackAfter snapshot config entryPoints steps).tail := by
  obtain ⟨item, rest, top⟩ := pending_of_unsettled works
  obtain ⟨added, reachable, pending⟩ :=
    (trace_faithful snapshot config steps entryPoints).step_pushes config top
  refine ⟨added, ?_, ?_⟩
  · rw [trace_succ works, reachable]
  · rw [stackAfter, stackAfter, trace_succ works, pending, top]
    rfl

theorem trace_started : (trace snapshot config 0 entryPoints).reachable =
    stackAfter snapshot config entryPoints 0 :=
  (State.started_files snapshot config entryPoints).2

/-- All that is put on the stack, taken together, is what is reached. -/
theorem TakesSteps.puts_on {count : Nat} (takes : TakesSteps snapshot config entryPoints count) :
    ∃ pushed, PutsOn snapshot config entryPoints count pushed ∧
      ((List.range (count + 1)).flatMap pushed).Perm (trace snapshot config count entryPoints).reachable := by
  have grows : ∀ step, ∃ added, step < count →
      (trace snapshot config (step + 1) entryPoints).reachable =
          added ++ (trace snapshot config step entryPoints).reachable ∧
        stackAfter snapshot config entryPoints (step + 1) =
          added ++ (stackAfter snapshot config entryPoints step).tail := by
    intro step
    by_cases early : step < count
    · obtain ⟨added, both⟩ := trace_pushes (takes.works step early)
      exact ⟨added, fun _ => both⟩
    · exact ⟨[], fun early' => absurd early' early⟩
  choose added spec using grows
  let pushed : Nat → List Path := fun step =>
    step.casesOn (stackAfter snapshot config entryPoints 0) added
  refine ⟨pushed, ⟨rfl, fun step early => (spec step early).2⟩, ?_⟩
  have upTo : ∀ steps ≤ count, ((List.range (steps + 1)).flatMap pushed).Perm
      (trace snapshot config steps entryPoints).reachable := by
    intro steps
    induction steps with
    | zero =>
      intro _
      rw [trace_started]
      simp [pushed]
    | succ steps ih =>
      intro early
      rw [List.range_succ, List.flatMap_append, (spec steps early).1]
      simp only [List.flatMap_cons, List.flatMap_nil, List.append_nil]
      exact List.perm_append_comm.trans ((ih (Nat.le_of_succ_le early)).append_left _)
  exact upTo count (Nat.le_refl count)

/-- So many files have been taken off the stack, and the others that were reached are still on it. -/
theorem TakesSteps.count_eq {count : Nat} (takes : TakesSteps snapshot config entryPoints count) :
    (trace snapshot config count entryPoints).reachable.length =
      (stackAfter snapshot config entryPoints count).length + count := by
  have first : (trace snapshot config 0 entryPoints).reachable.length =
      (trace snapshot config 0 entryPoints).pending.length := by
    rw [trace_started, stackAfter, List.length_map]
  rw [stackAfter, List.length_map]
  cases count with
  | zero => exact first
  | succ count =>
    have works := takes.works count (Nat.lt_succ_self count)
    obtain ⟨item, rest, top⟩ := pending_of_unsettled works
    have last := (trace_faithful snapshot config count entryPoints).step_count config (by simp [top])
    rw [← trace_succ works] at last
    -- The last step but one was no rest, so that every step up to it took a file.
    rcases (trace_faithful snapshot config 0 entryPoints).run_count config count with rests | before
    · exact absurd rests (by simpa [trace, State.run] using works)
    · simp only [trace, State.run] at first last before ⊢
      omega

end Steps

section Workspace

variable {workspace : Workspace} {config : Config} {entryPoints : List Path}

theorem trace_takesSteps (workspace : Workspace) (config : Config) (entryPoints : List Path) :
    ∃ count, TakesSteps (snapshot workspace) config entryPoints count := by
  have rests : ∃ count, (trace (snapshot workspace) config count entryPoints).settled = true :=
    ⟨_, trace_settled workspace config entryPoints _ (Nat.le_refl _)⟩
  refine ⟨Nat.find rests, Nat.find_spec rests, fun fewer early => ?_⟩
  simpa using Nat.find_min rests early

theorem trace_reads {steps : Nat} {path : Path}
    (reached : path ∈ (trace (snapshot workspace) config steps entryPoints).reachable) :
    Path.Normal path ∧ ∃ source, workspace.readText path = .ok source := by
  obtain ⟨source, text⟩ := (trace_faithful (snapshot workspace) config steps entryPoints).reached path reached
  have asked := trace_asked (snapshot workspace) config steps entryPoints path
    ((State.knows_iff _ path).mpr (Or.inl reached))
  exact ⟨asked.normal, source, (snapshot_eq_text_iff workspace path source).mp text⟩

/-- Without links a run reaches at most two paths for each entry of the tree, with one leading slash and
with two. -/
theorem trace_reachable_le (unlinked : workspace.tree.Unlinked) (config : Config)
    (entryPoints : List Path) (steps : Nat) :
    (trace (snapshot workspace) config steps entryPoints).reachable.length ≤
      2 * workspace.tree.entries.length := by
  have inside : (trace (snapshot workspace) config steps entryPoints).reachable ⊆
      workspace.tree.entries.map (fun item => Path.spell ['/'] item.1.reverse) ++
        workspace.tree.entries.map (fun item => Path.spell ['/', '/'] item.1.reverse) := by
    intro path reached
    obtain ⟨⟨mark, names, marked, legal, rfl⟩, source, reads⟩ := trace_reads reached
    obtain ⟨content, found, -⟩ := Workspace.file_of_readText unlinked marked legal reads
    have listed : ∃ entry, (names.reverse, entry) ∈ workspace.tree.entries := by
      cases place : names.reverse with
      | nil =>
        rw [place] at found
        cases found
      | cons name parent =>
        rw [place] at found
        exact ⟨_, (workspace.tree.find?_cons_eq_some_iff name parent _).mp found⟩
    obtain ⟨entry, member⟩ := listed
    rcases marked with rfl | rfl
    · exact List.mem_append_left _ (List.mem_map.mpr ⟨_, member, by simp⟩)
    · exact List.mem_append_right _ (List.mem_map.mpr ⟨_, member, by simp⟩)
  have bound := (trace_faithful (snapshot workspace) config steps
    entryPoints).reachedOnce.length_le_of_subset inside
  simp only [List.length_append, List.length_map] at bound
  omega

end Workspace

/-- Following imports in a workspace takes some number of steps and is then at rest, whatever the imports
and links are like. No path is put on the stack twice. Those that are lead to something and are shorter
than the limit; without links there are at most two for each entry of the tree, and behind a link that
leads back there is one more for every round until the links allowed are used up. If a graph comes out,
the steps were as many as its reachable files. -/
theorem import_run_length (workspace : Workspace) (config : Config) (entryPoints : List Path) :
    ∃ count pushed, TakesSteps (snapshot workspace) config entryPoints count ∧
      PutsOn (snapshot workspace) config entryPoints count pushed ∧
      ((List.range (count + 1)).flatMap pushed).Nodup ∧
      (∀ path ∈ (List.range (count + 1)).flatMap pushed, Text.byteLength path < FileTree.pathLimit ∧
        ∃ place, workspace.tree.locate workspace.cwd true path = .ok place) ∧
      (workspace.tree.Unlinked → count ≤ 2 * workspace.tree.entries.length) ∧
      (∀ top round, workspace.tree.LeadsBack top round → ∀ rounds links rest,
        workspace.tree.chase true links top ((List.replicate rounds round).flatten ++ rest) =
          if rounds ≤ links then workspace.tree.chase true (links - rounds) top rest
          else .error .linkLoop) ∧
      ∀ graph, (workspace.importGraph config entryPoints).result = .ok graph →
        graph.reachable.Nodup ∧ count = graph.reachable.length := by
  obtain ⟨count, takes⟩ := trace_takesSteps workspace config entryPoints
  obtain ⟨pushed, puts, together⟩ := takes.puts_on
  have faithful := trace_faithful (snapshot workspace) config count entryPoints
  have counted := takes.count_eq
  refine ⟨count, pushed, takes, puts, together.nodup_iff.mpr faithful.reachedOnce, ?_, ?_, ?_, ?_⟩
  · intro path member
    obtain ⟨-, source, reads⟩ := trace_reads (together.mem_iff.mp member)
    obtain ⟨-, place, content, leads, -⟩ := Workspace.readText_eq_ok reads
    exact ⟨FileTree.locate_short leads, _, leads⟩
  · intro unlinked
    have bound := trace_reachable_le unlinked config entryPoints count
    omega
  · intro top round back rounds links rest
    exact back.rounds rounds links rest
  · intro graph returned
    have built := (workspace.importGraph_eq_ok_iff config entryPoints graph).mp returned
    obtain ⟨running, rfl⟩ := (trace_ok_iff _ config entryPoints count takes.rests graph).mpr built
    refine ⟨(List.reverse_perm _).nodup_iff.mpr faithful.reachedOnce, ?_⟩
    have finished : (trace (snapshot workspace) config count entryPoints).pending = [] := by
      simpa [State.settled, running] using takes.rests
    simp only [stackAfter, finished, List.map_nil, List.length_nil, Nat.zero_add] at counted
    simpa [State.graph] using counted.symm

/-- A stylesheet that imports itself by way of a link to its own directory. -/
def echo : Workspace where
  tree.entries :=
    [(["m.scss".toList], .file (.octets "@import 'l/m';".toUTF8.toList)),
     (["l".toList], .link ".".toList)]
  tree.distinct := by decide +kernel
  tree.named := by decide +kernel

def echoConfig : Config where
  cwd := ['/']
  dialect := .scss

/-- One step for each number of rounds from none to forty, and no path twice. -/
theorem echo_run_length :
    echo.tree.LeadsBack [] ["l".toList] ∧
      Builds (snapshot echo) echoConfig ["m.scss".toList]
        (trace (snapshot echo) echoConfig 41 ["m.scss".toList]).graph ∧
      (∃ pushed, TakesSteps (snapshot echo) echoConfig ["m.scss".toList] 41 ∧
        PutsOn (snapshot echo) echoConfig ["m.scss".toList] 41 pushed ∧
        ((List.range 42).flatMap pushed).Nodup) ∧
      echo.tree.chase true FileTree.linkLimit []
          ((List.replicate 41 ["l".toList]).flatten ++ ["m.scss".toList]) = .error .linkLoop := by
  have back : echo.tree.LeadsBack [] ["l".toList] :=
    .link [] "l".toList [] ".".toList rfl (by decide) (by decide) (by decide) rfl
  have ends : (trace (snapshot echo) echoConfig 41 ["m.scss".toList]).pending = [] ∧
      (trace (snapshot echo) echoConfig 41 ["m.scss".toList]).stopped = false ∧
      (trace (snapshot echo) echoConfig 41 ["m.scss".toList]).graph.reachable.length = 41 := by
    decide +kernel
  have built : Builds (snapshot echo) echoConfig ["m.scss".toList]
      (trace (snapshot echo) echoConfig 41 ["m.scss".toList]).graph := ⟨41, ends.1, ends.2.1, rfl⟩
  obtain ⟨count, pushed, takes, puts, distinct, -, -, rounds, counted⟩ :=
    import_run_length echo echoConfig ["m.scss".toList]
  have size := (counted _ ((echo.importGraph_eq_ok_iff _ _ _).mpr built)).2
  rw [ends.2.2] at size
  subst size
  exact ⟨back, built, ⟨pushed, takes, puts, distinct⟩, rounds [] _ back 41 FileTree.linkLimit _⟩

end ImportGraph

end SheetReach
