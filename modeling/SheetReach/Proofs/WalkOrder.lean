import SheetReach.Proofs.NormalPath
import SheetReach.Proofs.Walk
import SheetReach.Survey

/-! The walk below a directory, however the directory is spelled. It goes down real directories alone, so that
it ends whatever links there are. It yields the entries behind them that are no directories, links followed,
once each: a directory's own files first, then its subdirectories one after the other. A directory whose path
has become too long is reported and passed over. No two of the paths have the same normal form. -/
namespace SheetReach

theorem Text.byteLength_append (front back : List Char) :
    byteLength (front ++ back) = byteLength front + byteLength back := by
  induction front with
  | nil => exact (Nat.zero_add _).symm
  | cons c rest ih =>
    change c.utf8Size + byteLength (rest ++ back) = c.utf8Size + byteLength rest + byteLength back
    omega

namespace Path

theorem byteLength_join_ge {name : Name} (legal : Legal name) (base : Path) :
    Text.byteLength base + Text.byteLength name ≤ Text.byteLength (join base name) := by
  have kept : Text.byteLength base ≤ Text.byteLength (joint base) := by
    unfold joint
    split
    next => exact Nat.le_refl _
    next =>
      rw [Text.byteLength_append]
      omega
  rw [join_relative legal.relative, Text.byteLength_append]
  omega

theorem byteLength_le_under {way : List Name} (legal : ∀ name ∈ way, Legal name) (base : Path) :
    Text.byteLength base ≤ Text.byteLength (under base way) := by
  induction way generalizing base with
  | nil => exact Nat.le_refl _
  | cons name rest ih =>
    obtain ⟨legalName, legalRest⟩ := List.forall_mem_cons.mp legal
    have first := byteLength_join_ge legalName base
    calc
      Text.byteLength base ≤ Text.byteLength (join base name) := by omega
      _ ≤ Text.byteLength (under (join base name) rest) := ih legalRest (join base name)

theorem join_under (base root : Path) (way : List Name) :
    join base (under root way) = under (join base root) way := by
  induction way generalizing root with
  | nil => rfl
  | cons name rest ih =>
    calc
      join base (under (join root name) rest) = under (join base (join root name)) rest := ih (join root name)
      _ = under (join (join base root) name) rest := by rw [join_assoc]

theorem form_under {way : List Name} (legal : ∀ name ∈ way, Legal name) (base : Path) :
    form (under base way) = spell (rootMark base) (collapse base ++ way) := by
  induction way generalizing base with
  | nil =>
    rw [List.append_nil]
    rfl
  | cons name rest ih =>
    obtain ⟨legalName, legalRest⟩ := List.forall_mem_cons.mp legal
    have mark : rootMark (join base name) = rootMark base := by
      rw [join_relative legalName.relative, rootMark_joint_append legalName.head?]
    calc
      form (under (join base name) rest) = spell (rootMark (join base name)) (collapse (join base name) ++ rest) :=
        ih legalRest (join base name)
      _ = spell (rootMark base) (collapse base ++ name :: rest) := by
        rw [mark, collapse_join legalName, List.append_assoc, List.singleton_append]

/-- Ways that differ stay apart after normalising, whatever dots and links the root is spelled with. -/
theorem normalize_under_injective {first second : List Name} (firstLegal : ∀ name ∈ first, Legal name)
    (secondLegal : ∀ name ∈ second, Legal name) (cwd root : Path)
    (same : normalize cwd (under root first) = normalize cwd (under root second)) : first = second := by
  have collapsed := collapse_legal (join cwd root)
  rw [normalize_eq_form, normalize_eq_form, join_under, join_under, form_under firstLegal,
    form_under secondLegal] at same
  have names := (spell_injective _ _ _ _ (rootMark_isMark _) (rootMark_isMark _)
    (legal_append collapsed firstLegal) (legal_append collapsed secondLegal) same).2
  exact List.append_cancel_left names

/-- What stands behind a way can be asked for: neither its path nor a name on the way is too long. -/
def Askable (root : Path) (way : List Name) : Prop :=
  Text.byteLength (under root way) < FileTree.pathLimit ∧
    ∀ name ∈ way, Text.byteLength name ≤ FileTree.nameLimit

theorem askable_cons_iff {way : List Name} (legal : ∀ name ∈ way, Legal name) (root : Path) (name : Name) :
    Askable root (name :: way) ↔ Askable root [name] ∧ Askable (join root name) way := by
  unfold Askable
  rw [List.forall_mem_cons, List.forall_mem_singleton]
  have longer := byteLength_le_under legal (join root name)
  constructor
  · intro both
    obtain ⟨whole, brief, briefRest⟩ := both
    exact ⟨⟨Nat.lt_of_le_of_lt longer whole, brief⟩, whole, briefRest⟩
  · intro both
    obtain ⟨⟨-, brief⟩, whole, briefRest⟩ := both
    exact ⟨whole, brief, briefRest⟩

theorem not_askable_of_long {root : Path} {name : Name} (legal : Legal name)
    (long : FileTree.pathLimit ≤ Text.byteLength root + Text.byteLength name) : ¬ Askable root [name] := by
  intro askable
  obtain ⟨short, -⟩ := askable
  have joined := byteLength_join_ge legal root
  change Text.byteLength (join root name) < FileTree.pathLimit at short
  omega

end Path

namespace FileTree

/-- A way below a location through real directories alone, with the entry at its end. -/
inductive Way (tree : FileTree) : Location → List Name → Entry → Prop where
  | entry (place : Location) (name : Name) (entry : Entry) (found : tree.find? (name :: place) = some entry) :
      Way tree place [name] entry
  | inside (place : Location) (name : Name) (way : List Name) (entry : Entry)
      (real : tree.find? (name :: place) = some .directory) (below : Way tree (name :: place) way entry) :
      Way tree place (name :: way) entry

theorem Way.ne_nil {tree : FileTree} {place : Location} {way : List Name} {entry : Entry}
    (leads : tree.Way place way entry) : way ≠ [] := by
  cases leads <;> exact List.cons_ne_nil _ _

theorem Way.legal {tree : FileTree} {place : Location} {way : List Name} {entry : Entry}
    (leads : tree.Way place way entry) : ∀ name ∈ way, Path.Legal name := by
  induction leads with
  | entry place name entry found => exact List.forall_mem_singleton.mpr (legal_of_find? found).1
  | inside place name way entry real below ih => exact List.forall_mem_cons.mpr ⟨(legal_of_find? real).1, ih⟩

theorem length_lt_depth {tree : FileTree} {name : Name} {place : Location} {entry : Entry}
    (found : tree.find? (name :: place) = some entry) : place.length < tree.depth :=
  tree.length_le_depth _ entry ((tree.find?_cons_eq_some_iff name place entry).mp found)

/-- No way is longer than the tree is deep. -/
theorem Way.length_le {tree : FileTree} {place : Location} {way : List Name} {entry : Entry}
    (leads : tree.Way place way entry) : way.length + place.length ≤ tree.depth := by
  induction leads with
  | entry place name entry found =>
    have bound := length_lt_depth found
    rw [List.length_singleton]
    omega
  | inside place name way entry real below ih =>
    rw [List.length_cons] at ih ⊢
    omega

/-- Where a way is put behind a name, the directory above its end can be asked for if the one of that name can,
and the one above from there. -/
theorem Way.askable_above_iff {tree : FileTree} {place : Location} {way : List Name}
    {entry : Entry} (leads : tree.Way place way entry) (root : Path) (name : Name) :
    Path.Askable root (name :: way).dropLast ↔
      Path.Askable root [name] ∧ Path.Askable (Path.join root name) way.dropLast := by
  rw [List.dropLast_cons_of_ne_nil leads.ne_nil]
  apply Path.askable_cons_iff
  intro other member
  exact leads.legal other (List.mem_of_mem_dropLast member)

end FileTree

namespace Workspace

theorem leadsToDirectory_iff (workspace : Workspace) (directory : Path) (name : Name) (entry : Entry) :
    workspace.leadsToDirectory directory name entry = true ↔
      entry = .directory ∨ ∃ target place, entry = .link target ∧
        workspace.locate true (Path.join directory name) = .ok ⟨place, .directory⟩ := by
  cases entry with
  | file content => simp [leadsToDirectory, settle]
  | directory => simp [leadsToDirectory, settle]
  | link target =>
    cases leads : workspace.locate true (Path.join directory name) with
    | ok place =>
      obtain ⟨location, kind⟩ := place
      cases kind <;> simp [leadsToDirectory, settle, entryAt, leads]
    | error error =>
      cases error with
      | nullCharacter => simp [leadsToDirectory, settle, entryAt, leads]
      | fault reason path => cases reason <;> simp [leadsToDirectory, settle, entryAt, leads]

/-- What a walk yields: the end of a way through real directories that is neither a directory nor a link to
one, where the directory it stands in can be asked for. -/
def Yields (workspace : Workspace) (root : Path) (top : Location) (way : List Name) : Prop :=
  ∃ entry, workspace.tree.Way top way entry ∧ entry ≠ .directory ∧
    (∀ target place, entry = .link target →
      workspace.locate true (Path.under root way) ≠ .ok ⟨place, .directory⟩) ∧
    Path.Askable root way.dropLast

/-- What a walk passes over: a real directory that cannot be asked for, though the one above it can. -/
def PassesOver (workspace : Workspace) (root : Path) (top : Location) (way : List Name) : Prop :=
  workspace.tree.Way top way .directory ∧ Path.Askable root way.dropLast ∧ ¬ Path.Askable root way

theorem FoundBelow.listed {workspace : Workspace} {directory : Path} {way : List Name}
    (found : workspace.FoundBelow directory way) : ∃ children, workspace.list directory = .ok children := by
  cases found with
  | entry _ children name entry listed => exact ⟨children, listed⟩
  | inside _ children name way listed => exact ⟨children, listed⟩

section Directory

variable {workspace : Workspace} {root : Path} {top : Location}
  (leads : workspace.locate true root = .ok ⟨top, .directory⟩)

include leads

theorem list_root : workspace.list root = .ok (workspace.tree.children top) := by
  obtain ⟨unnull, ends⟩ := (workspace.locate_eq_ok_iff _ _ _).mp leads
  exact list_of_locate unnull ends

theorem askable_root : Path.Askable root [] := by
  obtain ⟨-, ends⟩ := (workspace.locate_eq_ok_iff _ _ _).mp leads
  refine ⟨FileTree.locate_short ends, ?_⟩
  intro name member
  cases member

theorem listBelow_succ (levels : Nat) : workspace.listBelow (levels + 1) root =
    (Text.sort (workspace.fileNames root (workspace.tree.children top))).map
        (fun name => .file (Path.join root name)) ++
      (Text.sort (directoryNames (workspace.tree.children top))).flatMap fun name =>
        workspace.listBelow levels (Path.join root name) := by
  rw [listBelow, list_root leads]

variable {name : Name}
  (real : workspace.tree.find? (name :: top) = some .directory)

include real

theorem unnull_subdirectory : '\x00' ∉ Path.join root name := by
  obtain ⟨unnull, -⟩ := (workspace.locate_eq_ok_iff _ _ _).mp leads
  intro null
  rcases Path.mem_join null with slash | old | new
  · cases slash
  · exact unnull old
  · exact (FileTree.legal_of_find? real).2 new

theorem locate_subdirectory (askable : Path.Askable root [name]) :
    workspace.locate true (Path.join root name) = .ok ⟨name :: top, .directory⟩ := by
  obtain ⟨-, ends⟩ := (workspace.locate_eq_ok_iff _ _ _).mp leads
  rw [locate_eq_ok_iff, FileTree.locate_child_eq ends (FileTree.legal_of_find? real).1 real (Or.inr (by simp)),
    if_pos ⟨askable.1, askable.2 name List.mem_cons_self⟩]
  exact ⟨unnull_subdirectory leads real, rfl⟩

theorem list_subdirectory (askable : ¬ Path.Askable root [name]) :
    workspace.list (Path.join root name) = .error (.fault .nameTooLong (Path.join root name)) := by
  obtain ⟨-, ends⟩ := (workspace.locate_eq_ok_iff _ _ _).mp leads
  have refused : workspace.tree.locate workspace.cwd true (Path.join root name) = .error .nameTooLong := by
    rw [FileTree.locate_child_eq ends (FileTree.legal_of_find? real).1 real (Or.inr (by simp)), if_neg]
    intro limits
    obtain ⟨short, brief⟩ := limits
    exact askable ⟨short, List.forall_mem_singleton.mpr brief⟩
  simp [list, locate, refused, unnull_subdirectory leads real]

/-- A subdirectory that cannot be asked for is all that is listed of it. -/
theorem listBelow_subdirectory (askable : ¬ Path.Askable root [name]) {levels : Nat}
    (deep : workspace.tree.depth < top.length + (levels + 1)) :
    workspace.listBelow levels (Path.join root name) =
      [.unlistable (Path.join root name) (.fault .nameTooLong (Path.join root name))] := by
  have bound := FileTree.length_lt_depth real
  cases levels with
  | zero => omega
  | succ levels => rw [listBelow, list_subdirectory leads real askable]

end Directory

theorem foundBelow_iff {workspace : Workspace} {root : Path} {top : Location}
    (leads : workspace.locate true root = .ok ⟨top, .directory⟩) (way : List Name) :
    workspace.FoundBelow root way ↔ workspace.Yields root top way := by
  constructor
  · intro found
    induction found generalizing top with
    | entry directory children name entry listed member plain =>
      cases listed.symm.trans (list_root leads)
      have standing := (workspace.tree.mem_children_iff top name entry).mp member
      have neither := mt (workspace.leadsToDirectory_iff directory name entry).mpr (Bool.eq_false_iff.mp plain)
      rw [not_or] at neither
      refine ⟨entry, .entry top name entry standing, neither.1, ?_, askable_root leads⟩
      intro target place link ends
      exact neither.2 ⟨target, place, link, ends⟩
    | inside directory children name way listed member below ih =>
      cases listed.symm.trans (list_root leads)
      have real := (workspace.tree.mem_children_iff top name .directory).mp member
      by_cases askable : Path.Askable directory [name]
      · obtain ⟨entry, walked, kind, plain, askableWay⟩ := ih (locate_subdirectory leads real askable)
        have above := (walked.askable_above_iff directory name).mpr ⟨askable, askableWay⟩
        exact ⟨entry, .inside top name way entry real walked, kind, plain, above⟩
      · -- Nothing is found below a directory that cannot be listed.
        obtain ⟨others, listedBelow⟩ := below.listed
        cases listedBelow.symm.trans (list_subdirectory leads real askable)
  · intro yields
    obtain ⟨entry, walked, kind, plain, askable⟩ := yields
    induction walked generalizing root with
    | entry top name entry found =>
      have member := (workspace.tree.mem_children_iff top name entry).mpr found
      refine .entry root _ name entry (list_root leads) member (Bool.eq_false_iff.mpr ?_)
      intro directory
      rcases (workspace.leadsToDirectory_iff root name entry).mp directory with same | ⟨target, place, link, ends⟩
      · exact kind same
      · exact plain target place link ends
    | inside top name way entry real walked ih =>
      obtain ⟨askableName, askableWay⟩ := (walked.askable_above_iff root name).mp askable
      have member := (workspace.tree.mem_children_iff top name .directory).mpr real
      exact .inside root _ name way (list_root leads) member
        (ih (locate_subdirectory leads real askableName) kind plain askableWay)

/-- More levels than the tree is deep add nothing to a listing. -/
theorem listBelow_step {workspace : Workspace} (levels : Nat) {root : Path}
    {top : Location} (leads : workspace.locate true root = .ok ⟨top, .directory⟩)
    (deep : workspace.tree.depth < top.length + levels) :
    workspace.listBelow (levels + 1) root = workspace.listBelow levels root := by
  -- Each level takes the walk one name deeper, and where the levels end there is no entry left.
  induction levels generalizing root top with
  | zero =>
    have bare : workspace.tree.children top = [] := by
      rw [List.eq_nil_iff_forall_not_mem]
      intro child member
      obtain ⟨name, entry⟩ := child
      have bound := FileTree.length_lt_depth ((workspace.tree.mem_children_iff top name entry).mp member)
      omega
    rw [listBelow_succ leads, bare]
    rfl
  | succ levels ih =>
    rw [listBelow_succ leads, listBelow_succ leads]
    congr 1
    apply List.flatMap_congr
    intro name member
    have real := (workspace.tree.mem_children_iff top name .directory).mp
      ((mem_directoryNames _ name).mp ((Text.mem_sort _ name).mp member))
    by_cases askable : Path.Askable root [name]
    · apply ih (locate_subdirectory leads real askable)
      rw [List.length_cons]
      omega
    · rw [listBelow_subdirectory leads real askable deep,
        listBelow_subdirectory leads real askable (Nat.lt_succ_of_lt deep)]

theorem listBelow_levels {workspace : Workspace} {root : Path} {top : Location}
    (leads : workspace.locate true root = .ok ⟨top, .directory⟩) {levels : Nat}
    (deep : workspace.tree.depth < levels) :
    workspace.listBelow levels root = workspace.listBelow (workspace.tree.depth + 1) root := by
  induction levels, deep using Nat.le_induction with
  | base => rfl
  | succ levels deep ih =>
    rw [listBelow_step levels leads (Nat.lt_add_left _ deep)]
    exact ih

theorem unlistable_mem_listBelow {workspace : Workspace} (levels : Nat)
    {root : Path} {top : Location} (leads : workspace.locate true root = .ok ⟨top, .directory⟩)
    (deep : workspace.tree.depth < top.length + levels) (path : Path) (reason : AccessError) :
    .unlistable path reason ∈ workspace.listBelow levels root ↔
      ∃ way, workspace.PassesOver root top way ∧ path = Path.under root way ∧ reason = .fault .nameTooLong path := by
  induction levels generalizing root top with
  | zero =>
    constructor
    · intro member
      cases member
    · intro passed
      obtain ⟨way, ⟨walked, -⟩, -⟩ := passed
      have bound := walked.length_le
      omega
  | succ levels ih =>
    have deeper : ∀ name : Name, workspace.tree.depth < (name :: top).length + levels := by
      intro name
      rw [List.length_cons]
      omega
    rw [listBelow_succ leads]
    simp only [List.mem_append, List.mem_map, reduceCtorEq, and_false, exists_false, false_or, List.mem_flatMap,
      Text.mem_sort, mem_directoryNames, FileTree.mem_children_iff]
    constructor
    · intro listed
      obtain ⟨name, real, member⟩ := listed
      by_cases askable : Path.Askable root [name]
      · have further := locate_subdirectory leads real askable
        obtain ⟨way, ⟨walked, above, beyond⟩, same, told⟩ := (ih further (deeper name)).mp member
        have aboveIt := (walked.askable_above_iff root name).mpr ⟨askable, above⟩
        refine ⟨name :: way, ⟨.inside top name way _ real walked, aboveIt, ?_⟩, same, told⟩
        intro whole
        exact beyond ((Path.askable_cons_iff walked.legal root name).mp whole).2
      · rw [listBelow_subdirectory leads real askable deep, List.mem_singleton] at member
        cases member
        exact ⟨[name], ⟨.entry top name _ real, askable_root leads, askable⟩, rfl, rfl⟩
    · intro passed
      obtain ⟨way, ⟨walked, above, beyond⟩, same, told⟩ := passed
      cases walked with
      | entry _ name _ real =>
        refine ⟨name, real, ?_⟩
        rw [listBelow_subdirectory leads real beyond deep, List.mem_singleton, told, same]
        rfl
      | inside _ name way _ real walked =>
        obtain ⟨askable, aboveIt⟩ := (walked.askable_above_iff root name).mp above
        have further := locate_subdirectory leads real askable
        refine ⟨name, real, (ih further (deeper name)).mpr ⟨way, ⟨walked, aboveIt, ?_⟩, same, told⟩⟩
        intro whole
        exact beyond ((Path.askable_cons_iff walked.legal root name).mpr ⟨askable, whole⟩)

/-- The report of a directory that cannot be listed. -/
def reported? : Listed → Option Event
  | .file _ => none
  | .unlistable path reason => some (.unlistable path reason.message)

/-- Only below a path that leads to a directory is anything found. -/
theorem foundBelow_iff_yields {workspace : Workspace} {root : Path} {way : List Name} :
    workspace.FoundBelow root way ↔
      ∃ top, workspace.locate true root = .ok ⟨top, .directory⟩ ∧ workspace.Yields root top way := by
  constructor
  · intro found
    obtain ⟨children, listed⟩ := found.listed
    obtain ⟨unnull, top, ends, -⟩ := list_eq_ok listed
    have leads : workspace.locate true root = .ok ⟨top, .directory⟩ :=
      (workspace.locate_eq_ok_iff _ _ _).mpr ⟨unnull, ends⟩
    exact ⟨top, leads, (foundBelow_iff leads way).mp found⟩
  · intro yielded
    obtain ⟨top, leads, yields⟩ := yielded
    exact (foundBelow_iff leads way).mpr yields

theorem mem_filterMap_reported (listed : List Listed) (event : Event) :
    event ∈ listed.filterMap reported? ↔
      ∃ path reason, .unlistable path reason ∈ listed ∧ event = .unlistable path reason.message := by
  rw [List.mem_filterMap]
  constructor
  · intro found
    obtain ⟨item, member, told⟩ := found
    cases item with
    | file path => cases told
    | unlistable path reason => exact ⟨path, reason, member, (Option.some.inj told).symm⟩
  · intro found
    obtain ⟨path, reason, member, told⟩ := found
    exact ⟨.unlistable path reason, member, congrArg some told.symm⟩

theorem files_eq {workspace : Workspace} {root : Path} {top : Location}
    (leads : workspace.locate true root = .ok ⟨top, .directory⟩) :
    (workspace.files root).result =
        .ok ((workspace.waysBelow (workspace.tree.depth + 1) root).map (Path.under root)) ∧
      (workspace.files root).events =
        (workspace.listBelow (workspace.tree.depth + 1) root).filterMap reported? := by
  obtain ⟨unnull, -⟩ := (workspace.locate_eq_ok_iff _ _ _).mp leads
  have lists : workspace.listAll root = .ok (workspace.listBelow (workspace.tree.depth + 1) root) := by
    rw [listAll, if_neg (by simpa using unnull)]
  constructor
  · rw [← files_listBelow]
    simp only [files, Traced.result_bind, Traced.result_ofExcept, Traced.result_emit, Traced.result_pure, lists]
    rfl
  · simp only [files, Traced.ofExcept, Traced.emit, lists]
    exact List.append_nil _

/-- Below a directory, whatever path leads there, the walk yields every entry that lies behind real directories,
is neither a directory nor a link to one and stands in a directory that can be asked for, and nothing else. Each
comes once and under the given spelling of the root, the own files of a directory by name before those in its
subdirectories, and these by name one after the other. No two have the same normal path. Exactly the real
directories whose paths have become too long are reported, and no entry lies deeper than the walk goes. -/
theorem files_in_walk_order (workspace : Workspace) (root : Path) (top : Location)
    (leads : workspace.locate true root = .ok ⟨top, .directory⟩) :
    ∃ ways : List (List Name), (workspace.files root).result = .ok (ways.map (Path.under root)) ∧
      (∀ way, way ∈ ways ↔ workspace.Yields root top way) ∧
      ways.Pairwise Before ∧
      (ways.map fun way => workspace.normalize (Path.under root way)).Nodup ∧
      (∀ event, event ∈ (workspace.files root).events ↔ ∃ way, workspace.PassesOver root top way ∧
        event = .unlistable (Path.under root way) (AccessError.message (.fault .nameTooLong (Path.under root way)))) ∧
      ∀ levels, workspace.tree.depth < levels →
        workspace.listBelow levels root = workspace.listBelow (workspace.tree.depth + 1) root := by
  obtain ⟨yielded, reported⟩ := files_eq leads
  have members : ∀ way,
      way ∈ workspace.waysBelow (workspace.tree.depth + 1) root ↔ workspace.Yields root top way := by
    intro way
    rw [mem_waysBelow, foundBelow_iff leads]
    constructor
    · exact And.left
    · intro yields
      obtain ⟨entry, walked, rest⟩ := yields
      have bound := walked.length_le
      exact ⟨⟨entry, walked, rest⟩, by omega⟩
  refine ⟨_, yielded, members, workspace.waysBelow_ordered _ root, ?_, ?_,
    fun _ => listBelow_levels leads⟩
  · apply List.Nodup.map_on _ (workspace.waysBelow_nodup _ root)
    intro first firstMember second secondMember same
    obtain ⟨_, firstWalked, -⟩ := (members first).mp firstMember
    obtain ⟨_, secondWalked, -⟩ := (members second).mp secondMember
    exact Path.normalize_under_injective firstWalked.legal secondWalked.legal _ root same
  · intro event
    rw [reported, mem_filterMap_reported]
    have deep : workspace.tree.depth < top.length + (workspace.tree.depth + 1) := by omega
    constructor
    · intro found
      obtain ⟨path, reason, member, told⟩ := found
      obtain ⟨way, beyond, same, why⟩ := (unlistable_mem_listBelow _ leads deep path reason).mp member
      refine ⟨way, beyond, ?_⟩
      rw [told, why, same]
    · intro passed
      obtain ⟨way, beyond, told⟩ := passed
      exact ⟨_, _, (unlistable_mem_listBelow _ leads deep _ _).mpr ⟨way, beyond, rfl, rfl⟩, told⟩

/-- Directories in one another, with links up, across, to themselves and to nothing. -/
def warren : Workspace where
  tree.entries :=
    [(["w".toList], .directory),
     (["to-b".toList, "w".toList], .link "b".toList),
     (["b".toList, "w".toList], .directory),
     (["y.scss".toList, "b".toList, "w".toList], .file (.octets [])),
     (["loop".toList, "w".toList], .link "loop".toList),
     (["a".toList, "w".toList], .directory),
     (["deep".toList, "a".toList, "w".toList], .directory),
     (["z.scss".toList, "deep".toList, "a".toList, "w".toList], .file (.octets [])),
     (["back".toList, "a".toList, "w".toList], .link "..".toList),
     (["x.scss".toList, "a".toList, "w".toList], .file (.octets [])),
     (["gone".toList, "w".toList], .link "nowhere".toList),
     (["a.scss".toList, "w".toList], .file (.octets []))]
  tree.distinct := by decide +kernel
  tree.named := by decide +kernel
  cwd := ["w".toList]

/-- What the walk through it yields, seen from a root with dots and a doubled slash. -/
def warrenPaths : List Path :=
  ["b/..//a.scss".toList, "b/..//gone".toList, "b/..//loop".toList, "b/..//a/x.scss".toList,
    "b/..//a/deep/z.scss".toList, "b/..//b/y.scss".toList]

theorem warren_files : (warren.files "b/..//".toList).result = .ok warrenPaths := by decide +kernel

/-- Links to directories form cycles, and are neither entered nor yielded. -/
theorem warren_files_in_walk_order :
    warren.locate true "b/..//".toList = .ok ⟨["w".toList], .directory⟩ ∧
      (warren.files "b/..//".toList).result = .ok warrenPaths ∧ (warrenPaths.map warren.normalize).Nodup ∧
      ∀ way, warren.Yields "b/..//".toList ["w".toList] way → Path.under "b/..//".toList way ∈ warrenPaths := by
  have leads : warren.locate true "b/..//".toList = .ok ⟨["w".toList], .directory⟩ := by rfl
  obtain ⟨ways, yielded, members, -, apart, -⟩ := files_in_walk_order warren _ _ leads
  have paths : warrenPaths = ways.map (Path.under "b/..//".toList) := Except.ok.inj (warren_files.symm.trans yielded)
  refine ⟨leads, warren_files, ?_, ?_⟩
  · rw [paths, List.map_map]
    exact apart
  · intro way yields
    rw [paths]
    exact List.mem_map.mpr ⟨way, (members way).mpr yields, rfl⟩

/-- One file in a directory. -/
def remote : Workspace where
  tree.entries :=
    [(["subdirectory".toList], .directory), (["x.scss".toList, "subdirectory".toList], .file (.octets []))]
  tree.distinct := by decide +kernel
  tree.named := by decide +kernel

theorem byteLength_slashes (count : Nat) : Text.byteLength (List.replicate count '/') = count := by
  induction count with
  | zero => rfl
  | succ count ih =>
    change '/'.utf8Size + Text.byteLength (List.replicate count '/') = count + 1
    have single : '/'.utf8Size = 1 := by decide
    omega

/-- Slashes alone lead to the root, as long as they are no path too long. -/
theorem locate_slashes (workspace : Workspace) {count : Nat} (short : count + 1 < FileTree.pathLimit) :
    workspace.locate true (List.replicate (count + 1) '/') = .ok ⟨[], .directory⟩ := by
  have steps : FileTree.steps (List.replicate (count + 1) '/') = [Path.here] := by
    have unnamed := Path.names_slashes_append (count + 1) []
    rw [List.append_nil] at unnamed
    rw [FileTree.steps, unnamed, List.getLast?_replicate]
    rfl
  have start : FileTree.origin workspace.cwd (List.replicate (count + 1) '/') = [] := rfl
  rw [locate_eq_ok_iff, FileTree.locate_eq_ok_iff, steps, start, byteLength_slashes]
  exact ⟨by simp [List.mem_replicate], by simp, short, rfl⟩

/-- The file is out of reach from a root with a path so long that the directory cannot be asked for. -/
theorem remote_files {root : Path} (leads : remote.locate true root = .ok ⟨[], .directory⟩)
    (long : FileTree.pathLimit ≤ Text.byteLength root + 12) : (remote.files root).result = .ok [] := by
  have real : remote.tree.find? ["subdirectory".toList] = some .directory := by decide +kernel
  have askable : ¬ Path.Askable root ["subdirectory".toList] :=
    Path.not_askable_of_long (FileTree.legal_of_find? real).1 long
  have depth : remote.tree.depth = 2 := by decide +kernel
  have children : remote.tree.children [] = [("subdirectory".toList, .directory)] := by decide +kernel
  have whole : remote.waysBelow 3 root =
      (remote.waysBelow 2 (Path.join root "subdirectory".toList)).map ("subdirectory".toList :: ·) := by
    rw [waysBelow, list_root leads, children]
    exact List.append_nil _
  have inner : remote.waysBelow 2 (Path.join root "subdirectory".toList) = [] := by
    rw [waysBelow, list_subdirectory leads real askable]
  rw [(files_eq leads).1, depth, whole, inner]
  rfl

/-- Not all that lies behind real directories is yielded: no file in a directory whose path is too long, and no
link to a directory. -/
theorem remote_file_not_yielded :
    remote.locate true (List.replicate 4090 '/') = .ok ⟨[], .directory⟩ ∧
    remote.tree.Way [] ["subdirectory".toList, "x.scss".toList] (.file (.octets [])) ∧
    (remote.files (List.replicate 4090 '/')).result = .ok [] ∧
    warren.tree.Way ["w".toList] ["to-b".toList] (.link "b".toList) ∧
    (warren.files "b/..//".toList).result = .ok warrenPaths ∧ "b/..//to-b".toList ∉ warrenPaths := by
  have leads := remote.locate_slashes (show 4089 + 1 < FileTree.pathLimit by decide)
  refine ⟨leads, ?_, ?_, ?_, warren_files, by decide +kernel⟩
  · exact .inside _ _ _ _ (by decide +kernel) (.entry _ _ _ (by decide +kernel))
  · apply remote_files leads
    rw [byteLength_slashes]
    decide
  · exact .entry _ _ _ (by decide +kernel)

end Workspace

end SheetReach
