import Mathlib.Data.List.Nodup
import SheetReach.Listing
import SheetReach.Proofs.CodePointOrder
import SheetReach.Proofs.LookupTrail
import SheetReach.Proofs.Outcome

/-! A listing meets every entry below its root that is no directory, by the real directories alone, and
meets it once. -/
namespace SheetReach

namespace FileTree

theorem lookup_eq_some_iff (entries : List (Location × Entry)) (distinct : (entries.map Prod.fst).Nodup)
    (location : Location) (entry : Entry) :
    entries.lookup location = some entry ↔ (location, entry) ∈ entries := by
  induction entries with
  | nil => simp
  | cons item rest ih =>
    obtain ⟨place, kind⟩ := item
    rw [List.map_cons, List.nodup_cons] at distinct
    by_cases same : location = place
    · subst same
      simp only [List.lookup_cons, beq_self_eq_true, Option.some.injEq, List.mem_cons, Prod.mk.injEq,
        true_and]
      constructor
      · exact fun equal => Or.inl equal.symm
      · rintro (equal | later)
        · exact equal.symm
        · exact absurd (List.mem_map.mpr ⟨_, later, rfl⟩) distinct.1
    · have differs : (location == place) = false := by simpa using same
      simp only [List.lookup_cons, differs, ih distinct.2, List.mem_cons, Prod.mk.injEq, same, false_and,
        false_or]

theorem find?_cons_eq_some_iff (tree : FileTree) (name : Name) (parent : Location) (entry : Entry) :
    tree.find? (name :: parent) = some entry ↔ (name :: parent, entry) ∈ tree.entries := by
  rw [find?, if_neg (List.cons_ne_nil _ _)]
  exact lookup_eq_some_iff tree.entries tree.distinct _ _

theorem mem_children_iff (tree : FileTree) (location : Location) (name : Name) (entry : Entry) :
    (name, entry) ∈ tree.children location ↔ tree.find? (name :: location) = some entry := by
  rw [find?_cons_eq_some_iff]
  unfold children
  rw [List.mem_filterMap]
  constructor
  · rintro ⟨⟨place, kind⟩, member, listed⟩
    cases place with
    | nil => cases listed
    | cons first parent =>
      simp only [Option.ite_none_right_eq_some, Option.some.injEq, Prod.mk.injEq] at listed
      obtain ⟨rfl, rfl, rfl⟩ := listed
      exact member
  · exact fun member => ⟨_, member, by simp⟩

theorem children_nodup (tree : FileTree) (location : Location) :
    ((tree.children location).map Prod.fst).Nodup := by
  have distinct := tree.distinct
  unfold children
  generalize tree.entries = entries at distinct ⊢
  induction entries with
  | nil => simp
  | cons item rest ih =>
    obtain ⟨place, kind⟩ := item
    rw [List.map_cons, List.nodup_cons] at distinct
    cases place with
    | nil => simpa using ih distinct.2
    | cons name parent =>
      by_cases inside : parent = location
      · subst inside
        simp only [List.filterMap_cons, ↓reduceIte, List.map_cons, List.nodup_cons]
        refine ⟨fun again => distinct.1 ?_, ih distinct.2⟩
        obtain ⟨⟨other, entry⟩, member, rfl⟩ := List.mem_map.mp again
        obtain ⟨⟨place, found⟩, listed, same⟩ := List.mem_filterMap.mp member
        cases place with
        | nil => cases same
        | cons first above =>
          simp only [Option.ite_none_right_eq_some, Option.some.injEq, Prod.mk.injEq] at same
          obtain ⟨rfl, rfl, rfl⟩ := same
          exact List.mem_map.mpr ⟨_, listed, rfl⟩
      · simpa [inside] using ih distinct.2

theorem legal_of_find? {tree : FileTree} {name : Name} {parent : Location} {entry : Entry}
    (found : tree.find? (name :: parent) = some entry) : Path.Legal name ∧ '\x00' ∉ name :=
  tree.named _ ((tree.find?_cons_eq_some_iff name parent entry).mp found) name List.mem_cons_self

theorem depth_le_iff (tree : FileTree) (bound : Nat) :
    tree.depth ≤ bound ↔ ∀ item ∈ tree.entries, item.1.length ≤ bound := by
  have general : ∀ (lengths : List Nat) (start : Nat),
      lengths.foldl max start ≤ bound ↔ start ≤ bound ∧ ∀ length ∈ lengths, length ≤ bound := by
    intro lengths
    induction lengths with
    | nil => simp
    | cons first rest ih =>
      intro start
      rw [List.foldl_cons, ih, Nat.max_le, List.forall_mem_cons, and_assoc]
  unfold depth
  rw [general, List.forall_mem_map]
  exact and_iff_right (Nat.zero_le bound)

theorem length_le_depth (tree : FileTree) (location : Location) (entry : Entry)
    (member : (location, entry) ∈ tree.entries) : location.length ≤ tree.depth :=
  (tree.depth_le_iff tree.depth).mp (Nat.le_refl _) (location, entry) member

end FileTree

def Listed.file? : Listed → Option Path
  | .file path => some path
  | .unlistable _ _ => none

namespace Workspace

/-- A way below a directory to something that is no directory: an entry of the directory itself, or a
way below one of its real subdirectories. Links to directories count as directories and are not entered. -/
inductive FoundBelow (workspace : Workspace) : Path → List Name → Prop where
  | entry (directory : Path) (children : List (Name × Entry)) (name : Name) (entry : Entry)
      (listed : workspace.list directory = .ok children) (member : (name, entry) ∈ children)
      (plain : workspace.leadsToDirectory directory name entry = false) :
      FoundBelow workspace directory [name]
  | inside (directory : Path) (children : List (Name × Entry)) (name : Name) (way : List Name)
      (listed : workspace.list directory = .ok children) (member : (name, .directory) ∈ children)
      (below : FoundBelow workspace (Path.join directory name) way) :
      FoundBelow workspace directory (name :: way)

theorem FoundBelow.ne_nil {workspace : Workspace} {directory : Path} {way : List Name}
    (found : workspace.FoundBelow directory way) : way ≠ [] := by
  cases found <;> exact List.cons_ne_nil _ _

theorem mem_fileNames (workspace : Workspace) (directory : Path) (children : List (Name × Entry))
    (name : Name) : name ∈ workspace.fileNames directory children ↔
      ∃ entry, (name, entry) ∈ children ∧ workspace.leadsToDirectory directory name entry = false := by
  simp [fileNames]

theorem mem_directoryNames (children : List (Name × Entry)) (name : Name) :
    name ∈ directoryNames children ↔ (name, .directory) ∈ children := by
  simp [directoryNames]

/-- The ways to the files that a listing has, down to a number of levels and in its order. -/
def waysBelow (workspace : Workspace) : Nat → Path → List (List Name)
  | 0, _ => []
  | levels + 1, directory =>
    match workspace.list directory with
    | .error _ => []
    | .ok children =>
      (Text.sort (workspace.fileNames directory children)).map (fun name => [name])
        ++ (Text.sort (directoryNames children)).flatMap fun name =>
            (workspace.waysBelow levels (Path.join directory name)).map (name :: ·)

theorem files_listBelow (workspace : Workspace) (levels : Nat) (directory : Path) :
    (workspace.listBelow levels directory).filterMap Listed.file? =
      (workspace.waysBelow levels directory).map (Path.under directory) := by
  induction levels generalizing directory with
  | zero => rfl
  | succ levels ih =>
    unfold listBelow waysBelow
    cases workspace.list directory with
    | error reason => rfl
    | ok children =>
      simp only [List.filterMap_append, List.filterMap_map, List.filterMap_flatMap, List.map_append, List.map_map,
        List.map_flatMap, ih]
      congr 1
      rw [← List.filterMap_eq_map]
      rfl

/-- Down to a number of levels a listing has the files found on ways of at most that length. -/
theorem mem_waysBelow (workspace : Workspace) (levels : Nat) (directory : Path) (way : List Name) :
    way ∈ workspace.waysBelow levels directory ↔ workspace.FoundBelow directory way ∧ way.length ≤ levels := by
  induction levels generalizing directory way with
  | zero =>
    simp only [waysBelow, List.not_mem_nil, Nat.le_zero, List.length_eq_zero_iff, false_iff]
    intro both
    exact both.1.ne_nil both.2
  | succ levels ih =>
    unfold waysBelow
    cases listing : workspace.list directory with
    | error reason =>
      simp only [List.not_mem_nil, false_iff]
      intro both
      cases both.1 with
      | entry _ children name entry listed => cases listing.symm.trans listed
      | inside _ children name way listed => cases listing.symm.trans listed
    | ok children =>
      simp only [List.mem_append, List.mem_map, List.mem_flatMap, Text.mem_sort, mem_fileNames,
        mem_directoryNames, ih]
      constructor
      · rintro (⟨name, ⟨entry, member, plain⟩, rfl⟩ | ⟨name, member, rest, ⟨found, short⟩, rfl⟩)
        · exact ⟨.entry directory children name entry listing member plain, by simp⟩
        · exact ⟨.inside directory children name rest listing member found, by simpa using short⟩
      · rintro ⟨found, short⟩
        cases found with
        | entry _ others name entry listed member plain =>
          cases listing.symm.trans listed
          exact Or.inl ⟨name, ⟨entry, member, plain⟩, rfl⟩
        | inside _ others name rest listed member below =>
          cases listing.symm.trans listed
          exact Or.inr ⟨name, member, rest, ⟨below, by simpa using short⟩, rfl⟩

theorem mem_filterMap_file (listed : List Listed) (path : Path) :
    path ∈ listed.filterMap Listed.file? ↔ .file path ∈ listed := by
  rw [List.mem_filterMap]
  constructor
  · rintro ⟨item, member, same⟩
    cases item with
    | file other => cases same; exact member
    | unlistable other reason => cases same
  · exact fun member => ⟨_, member, rfl⟩

theorem file_mem_listBelow (workspace : Workspace) (levels : Nat) (directory path : Path) :
    .file path ∈ workspace.listBelow levels directory ↔
      ∃ way, workspace.FoundBelow directory way ∧ way.length ≤ levels ∧ path = Path.under directory way := by
  simp only [← mem_filterMap_file, files_listBelow, List.mem_map, mem_waysBelow, and_assoc, eq_comm (a := path)]

theorem locate_eq_ok_iff (workspace : Workspace) (follow : Bool) (path : Path) (place : FileTree.Place) :
    workspace.locate follow path = .ok place ↔
      '\x00' ∉ path ∧ workspace.tree.locate workspace.cwd follow path = .ok place := by
  unfold locate
  by_cases null : '\x00' ∈ path
  · simp [null]
  · simp [null, Except.mapError_eq_ok_iff]

theorem list_eq_ok {workspace : Workspace} {directory : Path} {children : List (Name × Entry)}
    (listed : workspace.list directory = .ok children) :
    '\x00' ∉ directory ∧ ∃ place,
      workspace.tree.locate workspace.cwd true directory = .ok ⟨place, .directory⟩ ∧
        children = workspace.tree.children place := by
  unfold list at listed
  split at listed
  next => cases listed
  next place leads =>
    obtain ⟨unnull, ends⟩ := (workspace.locate_eq_ok_iff true directory _).mp leads
    exact ⟨unnull, place, ends, (Except.ok.inj listed).symm⟩
  next => cases listed

theorem list_of_locate {workspace : Workspace} {directory : Path} {place : Location}
    (unnull : '\x00' ∉ directory)
    (leads : workspace.tree.locate workspace.cwd true directory = .ok ⟨place, .directory⟩) :
    workspace.list directory = .ok (workspace.tree.children place) := by
  simp only [list, (workspace.locate_eq_ok_iff true directory _).mpr ⟨unnull, leads⟩]

/-- Where a way ends in the tree: behind real directories that look-ups of the way's parts lead to. -/
theorem FoundBelow.located {workspace : Workspace} {directory : Path}
    {way : List Name} (found : workspace.FoundBelow directory way) (mark : Path) (names : List Name)
    (marked : Path.IsMark mark) (legal : ∀ name ∈ names, Path.Legal name)
    (spelled : directory = Path.spell mark names) :
    ∃ top above name entry, way = above ++ [name] ∧
      (∀ other ∈ way, Path.Legal other ∧ '\x00' ∉ other) ∧
      workspace.tree.locate workspace.cwd true directory = .ok ⟨top, .directory⟩ ∧
      workspace.tree.locate workspace.cwd true (Path.spell mark (names ++ above)) =
        .ok ⟨above.reverse ++ top, .directory⟩ ∧
      workspace.tree.find? (name :: (above.reverse ++ top)) = some entry ∧ entry ≠ .directory ∧
      workspace.leadsToDirectory (Path.spell mark (names ++ above)) name entry = false := by
  induction found generalizing names with
  | entry directory children name entry listed member plain =>
    obtain ⟨-, top, leads, rfl⟩ := list_eq_ok listed
    have standing := (workspace.tree.mem_children_iff top name entry).mp member
    refine ⟨top, [], name, entry, rfl, ?_, leads, ?_, standing, ?_, ?_⟩
    · simpa using FileTree.legal_of_find? standing
    · simpa [← spelled] using leads
    · rintro rfl
      cases plain
    · simpa [← spelled] using plain
  | inside directory children name way listed member below ih =>
    obtain ⟨-, top, leads, rfl⟩ := list_eq_ok listed
    have standing := (workspace.tree.mem_children_iff top name .directory).mp member
    have legalName := FileTree.legal_of_find? standing
    have joined : Path.join directory name = Path.spell mark (names ++ [name]) := by
      rw [spelled]
      exact Path.join_spell mark names name marked legal legalName.1
    obtain ⟨deeper, above, last, entry, rfl, legalWay, nextLeads, parentLeads, found, kind, plain⟩ :=
      ih (names ++ [name]) (Path.legal_concat legal legalName.1) joined
    -- The subdirectory is found at its own name, since the look-up of its path goes on from here.
    have descended : deeper = name :: top := by
      have same := FileTree.locate_child leads legalName.1 standing (Or.inr (by simp)) nextLeads
      exact congrArg FileTree.Place.location same
    subst descended
    refine ⟨top, name :: above, last, entry, rfl, ?_, leads, ?_, ?_, kind, ?_⟩
    · intro other inside
      rcases List.mem_cons.mp inside with rfl | later
      · exact legalName
      · exact legalWay other later
    · simpa using parentLeads
    · simpa using found
    · simpa using plain

section Root

variable {workspace : Workspace} {mark : Path} {names : List Name}
  (marked : Path.IsMark mark) (legal : ∀ name ∈ names, Path.Legal name)

include marked legal

theorem FoundBelow.legal_way {way : List Name} (found : workspace.FoundBelow (Path.spell mark names) way) :
    ∀ name ∈ way, Path.Legal name := by
  obtain ⟨_, _, _, _, -, legalWay, -⟩ := found.located mark names marked legal rfl
  exact fun name member => (legalWay name member).1

theorem FoundBelow.under_eq {way : List Name} (found : workspace.FoundBelow (Path.spell mark names) way) :
    Path.under (Path.spell mark names) way = Path.spell mark (names ++ way) :=
  Path.under_spell mark names way marked legal (found.legal_way marked legal)

theorem FoundBelow.legal_append {way : List Name}
    (found : workspace.FoundBelow (Path.spell mark names) way) :
    ∀ name ∈ names ++ way, Path.Legal name :=
  Path.legal_append legal (found.legal_way marked legal)

/-- Where the path of a way ends, links left alone. -/
theorem FoundBelow.ends_at {way : List Name} (found : workspace.FoundBelow (Path.spell mark names) way)
    {place : FileTree.Place}
    (ends : workspace.tree.locate workspace.cwd false (Path.spell mark (names ++ way)) = .ok place) :
    ∃ top, workspace.tree.locate workspace.cwd true (Path.spell mark names) = .ok ⟨top, .directory⟩ ∧
      place.location = way.reverse ++ top ∧ place.entry ≠ .directory := by
  obtain ⟨top, above, name, entry, rfl, legalWay, leads, parentLeads, standing, kind, -⟩ :=
    found.located mark names marked legal rfl
  have legalAbove := Path.legal_append legal
    (fun other member => (legalWay other (List.mem_append_left [name] member)).1)
  have legalName := (legalWay name (by simp)).1
  rw [← List.append_assoc, ← Path.join_spell mark _ name marked legalAbove legalName] at ends
  obtain rfl := FileTree.locate_child parentLeads legalName standing (Or.inl rfl) ends
  exact ⟨top, leads, by simp, kind⟩

/-- No way is longer than the tree is deep. -/
theorem FoundBelow.length_le {way : List Name} (found : workspace.FoundBelow (Path.spell mark names) way) :
    way.length ≤ workspace.tree.depth := by
  obtain ⟨top, above, name, entry, rfl, -, -, -, standing, -⟩ :=
    found.located mark names marked legal rfl
  have bound := workspace.tree.length_le_depth _ entry
    ((workspace.tree.find?_cons_eq_some_iff name _ entry).mp standing)
  simp only [List.length_cons, List.length_append, List.length_reverse, List.length_nil] at bound ⊢
  omega

theorem file_mem_listBelow_spell (levels : Nat) (path : Path) :
    .file path ∈ workspace.listBelow levels (Path.spell mark names) ↔
      ∃ way, workspace.FoundBelow (Path.spell mark names) way ∧ way.length ≤ levels ∧
        path = Path.spell mark (names ++ way) := by
  rw [file_mem_listBelow]
  constructor
  · rintro ⟨way, found, short, rfl⟩
    exact ⟨way, found, short, found.under_eq marked legal⟩
  · rintro ⟨way, found, short, rfl⟩
    exact ⟨way, found, short, (found.under_eq marked legal).symm⟩

/-- Two ways that end at one path are one way. -/
theorem FoundBelow.way_unique {first second : List Name}
    (firstFound : workspace.FoundBelow (Path.spell mark names) first)
    (secondFound : workspace.FoundBelow (Path.spell mark names) second)
    (same : Path.spell mark (names ++ first) = Path.spell mark (names ++ second)) : first = second := by
  have equal := (Path.spell_injective mark mark _ _ marked marked
    (firstFound.legal_append marked legal) (secondFound.legal_append marked legal) same).2
  exact List.append_cancel_left equal

end Root

theorem fileNames_nodup (workspace : Workspace) (directory : Path) (place : Location) :
    (workspace.fileNames directory (workspace.tree.children place)).Nodup :=
  (workspace.tree.children_nodup place).sublist (List.filter_sublist.map Prod.fst)

theorem directoryNames_nodup (workspace : Workspace) (place : Location) :
    (directoryNames (workspace.tree.children place)).Nodup :=
  (workspace.tree.children_nodup place).sublist (List.filter_sublist.map Prod.fst)

/-- The order of a listing: a directory's own files by name, before all that is deeper, then its subdirectories
by name, each of them whole. -/
inductive Before : List Name → List Name → Prop where
  | own (first second : Name) (less : first < second) : Before [first] [second]
  | deeper (first second : Name) (way : List Name) (filled : way ≠ []) : Before [first] (second :: way)
  | apart (first second : Name) (firstWay secondWay : List Name) (less : first < second)
      (firstFilled : firstWay ≠ []) (secondFilled : secondWay ≠ []) :
      Before (first :: firstWay) (second :: secondWay)
  | within (name : Name) (firstWay secondWay : List Name) (before : Before firstWay secondWay) :
      Before (name :: firstWay) (name :: secondWay)

theorem Before.irrefl (way : List Name) : ¬ Before way way := by
  induction way with
  | nil =>
    intro before
    cases before
  | cons name rest ih =>
    intro before
    cases before with
    | own _ _ less => exact lt_irrefl name less
    | deeper _ _ _ filled => exact filled rfl
    | apart _ _ _ _ less => exact lt_irrefl name less
    | within _ _ _ inner => exact ih inner

theorem waysBelow_ordered (workspace : Workspace) (levels : Nat) (directory : Path) :
    (workspace.waysBelow levels directory).Pairwise Before := by
  induction levels generalizing directory with
  | zero => exact List.Pairwise.nil
  | succ levels ih =>
    unfold waysBelow
    cases listing : workspace.list directory with
    | error reason => exact List.Pairwise.nil
    | ok children =>
      obtain ⟨-, place, -, rfl⟩ := list_eq_ok listing
      have filled : ∀ {name way}, way ∈ workspace.waysBelow levels (Path.join directory name) → way ≠ [] :=
        fun member => ((workspace.mem_waysBelow _ _ _).mp member).1.ne_nil
      rw [List.pairwise_append, List.pairwise_flatMap]
      refine ⟨?_, ⟨?_, ?_⟩, ?_⟩
      · exact (Text.sort_strict _ (workspace.fileNames_nodup directory place)).map _ (fun _ _ => .own _ _)
      · exact fun name _ => (ih (Path.join directory name)).map _ (.within name)
      · apply (Text.sort_strict _ (workspace.directoryNames_nodup place)).imp
        intro first second less firstWay firstMember secondWay secondMember
        obtain ⟨firstRest, firstInside, rfl⟩ := List.mem_map.mp firstMember
        obtain ⟨secondRest, secondInside, rfl⟩ := List.mem_map.mp secondMember
        exact .apart _ _ _ _ less (filled firstInside) (filled secondInside)
      · intro own ownMember deep deepMember
        obtain ⟨first, -, rfl⟩ := List.mem_map.mp ownMember
        obtain ⟨second, -, inside⟩ := List.mem_flatMap.mp deepMember
        obtain ⟨rest, member, rfl⟩ := List.mem_map.mp inside
        exact .deeper _ _ _ (filled member)

theorem waysBelow_nodup (workspace : Workspace) (levels : Nat) (directory : Path) :
    (workspace.waysBelow levels directory).Nodup := by
  apply (workspace.waysBelow_ordered levels directory).imp
  intro first second before same
  exact Before.irrefl second (same ▸ before)

/-- No file is listed twice. -/
theorem listBelow_nodup {workspace : Workspace} {mark : Path}
    (marked : Path.IsMark mark) (levels : Nat) (names : List Name)
    (legal : ∀ name ∈ names, Path.Legal name) :
    ((workspace.listBelow levels (Path.spell mark names)).filterMap Listed.file?).Nodup := by
  rw [files_listBelow]
  apply List.Nodup.map_on _ (workspace.waysBelow_nodup levels _)
  intro first firstMember second secondMember same
  have firstFound := ((workspace.mem_waysBelow _ _ _).mp firstMember).1
  have secondFound := ((workspace.mem_waysBelow _ _ _).mp secondMember).1
  rw [firstFound.under_eq marked legal, secondFound.under_eq marked legal] at same
  exact firstFound.way_unique marked legal secondFound same

/-- The whole listing: every file found below the root, once. -/
theorem listAll_files {workspace : Workspace} {mark : Path}
    {names : List Name} (marked : Path.IsMark mark) (legal : ∀ name ∈ names, Path.Legal name)
    {listed : List Listed} (lists : workspace.listAll (Path.spell mark names) = .ok listed) :
    (listed.filterMap Listed.file?).Nodup ∧
      ∀ path, path ∈ listed.filterMap Listed.file? ↔
        ∃ way, workspace.FoundBelow (Path.spell mark names) way ∧ path = Path.spell mark (names ++ way) := by
  unfold listAll at lists
  split at lists
  next => cases lists
  next =>
    cases lists
    refine ⟨listBelow_nodup marked _ names legal, fun path => ?_⟩
    rw [mem_filterMap_file, file_mem_listBelow_spell marked legal]
    constructor
    · rintro ⟨way, found, -, same⟩
      exact ⟨way, found, same⟩
    · rintro ⟨way, found, same⟩
      exact ⟨way, found, (found.length_le marked legal).trans (Nat.le_succ _), same⟩

end Workspace

end SheetReach
