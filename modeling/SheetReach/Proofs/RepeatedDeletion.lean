import SheetReach.Proofs.Deletion

/-! Deleting takes out one entry for each path it counts, and a second deletion of the same paths takes out
nothing. A path that was passed over or whose entry is gone leads nowhere, and it leads nowhere in every
thinner tree; so all paths up to the one that was refused are passed over the second time, and that one is
refused again. -/
namespace SheetReach.Workspace

/-- The entries that are gone once paths are deleted: each stood in the tree, is no directory and was named
by one of the paths, and all other entries are as they were. -/
structure Taken (before : Workspace) (paths : List Path) (gone : List (Location × Entry))
    (after : Workspace) : Prop where
  cwd : after.cwd = before.cwd
  distinct : gone.Nodup
  stood : ∀ item ∈ gone, item ∈ before.tree.entries
  left : after.tree.entries = before.tree.entries.filter (· ∉ gone)
  named : ∀ item ∈ gone, item.2 ≠ .directory ∧ ∃ path ∈ paths,
    before.tree.locate before.cwd false (Path.tidy path) = .ok ⟨item.1, item.2⟩

theorem Taken.refl (workspace : Workspace) (paths : List Path) : workspace.Taken paths [] workspace where
  cwd := rfl
  distinct := List.nodup_nil
  stood := by simp
  left := by simp
  named := by simp

theorem Taken.mono {before after : Workspace} {paths more : List Path} {gone : List (Location × Entry)}
    (taken : before.Taken paths gone after) (grows : paths ⊆ more) : before.Taken more gone after where
  cwd := taken.cwd
  distinct := taken.distinct
  stood := taken.stood
  left := taken.left
  named := by
    intro item member
    obtain ⟨kind, path, listed, ends⟩ := taken.named item member
    exact ⟨kind, path, grows listed, ends⟩

/-- A location holds one entry, so erasing it takes out that entry alone. -/
theorem entries_erase {tree : FileTree} {location : Location} {entry : Entry}
    (member : (location, entry) ∈ tree.entries) :
    (tree.erase location).entries = tree.entries.filter (· ∉ [(location, entry)]) := by
  apply List.filter_congr
  intro item inside
  have same : item.1 = location ↔ item = (location, entry) := by
    constructor
    · intro here
      exact List.inj_on_of_nodup_map tree.distinct inside member here
    · intro equal
      rw [equal]
  simp [same]

/-- One entry is taken out first and others later. -/
theorem Taken.after_unlink {before next after : Workspace} {path : Path} {others : List Path}
    {gone : List (Location × Entry)} (unlinked : before.unlink (Path.tidy path) = .ok next)
    (later : next.Taken others gone after) : ∃ item, before.Taken (path :: others) (item :: gone) after := by
  have thinned := (unlink_loses unlinked).filtered.thinned
  obtain ⟨location, entry, kind, ends, rfl⟩ := unlink_eq_ok unlinked
  have stands := (FileTree.locate_find? ends).resolve_left kind
  have member : (location, entry) ∈ before.tree.entries := by
    cases location with
    | nil => exact absurd (Option.some.inj stands).symm kind
    | cons name parent => exact (before.tree.find?_cons_eq_some_iff name parent entry).mp stands
  have remaining := entries_erase member
  refine ⟨(location, entry), later.cwd, ?_, ?_, ?_, ?_⟩
  · refine List.nodup_cons.mpr ⟨fun again => ?_, later.distinct⟩
    have kept := later.stood _ again
    rw [remaining] at kept
    simp at kept
  · intro item inside
    rcases List.mem_cons.mp inside with rfl | old
    · exact member
    · exact List.mem_of_mem_filter (later.stood item old)
  · rw [later.left, remaining, List.filter_filter]
    apply List.filter_congr
    intro item _
    simp only [List.mem_cons, List.not_mem_nil, or_false, not_or, Bool.decide_and]
    exact Bool.and_comm _ _
  · intro item inside
    rcases List.mem_cons.mp inside with rfl | old
    · exact ⟨kind, path, List.mem_cons_self, ends⟩
    · obtain ⟨otherKind, other, listed, otherEnds⟩ := later.named item old
      exact ⟨otherKind, other, List.mem_cons_of_mem path listed, thinned.locate_eq otherEnds⟩

/-- Deleting stops at this path: it cannot be told whether something stands there, or what stands there
cannot be taken out. -/
def RefusesDeletion (workspace : Workspace) (path : Path) (error : AccessError) : Prop :=
  workspace.exists? path = .error error ∨
    workspace.exists? path = .ok true ∧ workspace.unlink (Path.tidy path) = .error error

theorem RefusesDeletion.deleteFiles_eq {workspace : Workspace} {path : Path} {error : AccessError}
    (refuses : workspace.RefusesDeletion path error) (others : List Path) :
    workspace.deleteFiles (path :: others) = { workspace, error := some error } := by
  rcases refuses with untold | ⟨there, kept⟩
  · simp only [deleteFiles, untold]
  · simp only [deleteFiles, there, kept]

/-- The deletion with the entry of one more path taken out before. -/
def Deletion.counting (deletion : Deletion) (path : Path) : Deletion :=
  { deletion with count := deletion.count + 1, events := .deleted path :: deletion.events }

/-- What a path comes to, whatever paths follow: it is refused, passed over, or taken out. -/
theorem deleteFiles_cons_cases (workspace : Workspace) (path : Path) :
    (∃ error, workspace.RefusesDeletion path error) ∨
    (workspace.exists? path = .ok false ∧
      ∀ others, workspace.deleteFiles (path :: others) = workspace.deleteFiles others) ∨
    ∃ next, workspace.unlink (Path.tidy path) = .ok next ∧
      ∀ others, workspace.deleteFiles (path :: others) =
        (next.deleteFiles others).counting (Path.tidy path) := by
  cases there : workspace.exists? path with
  | error error => exact Or.inl ⟨error, Or.inl there⟩
  | ok found =>
    cases found with
    | false =>
      refine Or.inr (Or.inl ⟨rfl, fun others => ?_⟩)
      simp only [deleteFiles, there]
    | true =>
      cases unlinked : workspace.unlink (Path.tidy path) with
      | error error => exact Or.inl ⟨error, Or.inr ⟨there, unlinked⟩⟩
      | ok next =>
        refine Or.inr (Or.inr ⟨next, rfl, fun others => ?_⟩)
        simp only [deleteFiles, there, unlinked, Deletion.counting]

/-- As many entries are gone as were counted, also when deleting was stopped. -/
theorem deleteFiles_taken (workspace : Workspace) (paths : List Path) :
    ∃ gone, workspace.Taken paths gone (workspace.deleteFiles paths).workspace ∧
      gone.length = (workspace.deleteFiles paths).count := by
  induction paths generalizing workspace with
  | nil => exact ⟨[], .refl workspace [], rfl⟩
  | cons path others ih =>
    rcases workspace.deleteFiles_cons_cases path with ⟨error, refuses⟩ | ⟨-, same⟩ | ⟨next, unlinked, same⟩
    · rw [refuses.deleteFiles_eq]
      exact ⟨[], .refl workspace _, rfl⟩
    · rw [same]
      obtain ⟨gone, taken, counted⟩ := ih workspace
      exact ⟨gone, taken.mono (List.subset_cons_self path others), counted⟩
    · rw [same]
      obtain ⟨gone, taken, counted⟩ := ih next
      obtain ⟨item, whole⟩ := taken.after_unlink unlinked
      exact ⟨item :: gone, whole, congrArg Nat.succ counted⟩

/-! A path that leads nowhere leads nowhere in thinner trees. -/

theorem exists?_of_missing {workspace : Workspace} {path : Path}
    (missing : workspace.tree.locate workspace.cwd true (Path.tidy path) = .error .missing) :
    workspace.exists? path = .ok false := by
  by_cases null : '\x00' ∈ Path.tidy path
  · simp [exists?, probe, entryAt, locate, null]
  · simp [exists?, probe, entryAt, locate, null, missing]

theorem Loses.absent {before after : Workspace} {paths : List Path} (loses : before.Loses paths after)
    {path : Path} (absent : before.exists? path = .ok false) : after.exists? path = .ok false := by
  rcases FileTree.locate_thinned loses.filtered.thinned before.cwd true (Path.tidy path) with
    ⟨same, -⟩ | ⟨missing, -⟩
  · rw [← absent]
    simp only [exists?, probe, entryAt, locate, loses.cwd, same]
  · rw [← loses.cwd] at missing
    exact exists?_of_missing missing

theorem unlink_absent {workspace next : Workspace} {path : Path}
    (unlinked : workspace.unlink (Path.tidy path) = .ok next) : next.exists? path = .ok false := by
  have thinned := (unlink_loses unlinked).filtered.thinned
  obtain ⟨location, entry, kind, ends, rfl⟩ := unlink_eq_ok unlinked
  have erased : (workspace.tree.erase location).find? location ≠ some entry := by
    intro found
    cases location with
    | nil => exact kind (Option.some.inj found).symm
    | cons name parent =>
      rw [FileTree.find?_erase _ _ _ (List.cons_ne_nil name parent), if_pos rfl] at found
      cases found
  -- The path itself does not end at the entry any more, so there is no link left to follow at its end.
  have unnamed : (workspace.tree.erase location).locate workspace.cwd false (Path.tidy path) =
      .error .missing := by
    rcases FileTree.locate_thinned thinned workspace.cwd false (Path.tidy path) with ⟨same, -⟩ | ⟨missing, -⟩
    · exact absurd ((FileTree.locate_find? (same.trans ends)).resolve_left kind) erased
    · exact missing
  apply exists?_of_missing
  rcases (workspace.tree.erase location).locate_follow_cases workspace.cwd (Path.tidy path) with
    ⟨other, target, link⟩ | same
  · rw [unnamed] at link
    cases link
  · exact same.trans unnamed

/-- Once paths are deleted, none of them leads anywhere. -/
theorem deleteFiles_absent {workspace : Workspace} {paths : List Path}
    (done : (workspace.deleteFiles paths).error = none) :
    ∀ path ∈ paths, (workspace.deleteFiles paths).workspace.exists? path = .ok false := by
  induction paths generalizing workspace with
  | nil => exact fun path member => absurd member List.not_mem_nil
  | cons first others ih =>
    rcases workspace.deleteFiles_cons_cases first with ⟨error, refuses⟩ | ⟨absent, same⟩ | ⟨next, unlinked, same⟩
    · rw [refuses.deleteFiles_eq] at done
      cases done
    · rw [same] at done ⊢
      have still := (workspace.deleteFiles_loses others).absent absent
      exact List.forall_mem_cons.mpr ⟨still, ih done⟩
    · rw [same] at done ⊢
      have still := (next.deleteFiles_loses others).absent (unlink_absent unlinked)
      exact List.forall_mem_cons.mpr ⟨still, ih done⟩

/-- Paths that lead nowhere are passed over. -/
theorem deleteFiles_append_of_absent {workspace : Workspace} {front : List Path}
    (absent : ∀ path ∈ front, workspace.exists? path = .ok false) (back : List Path) :
    workspace.deleteFiles (front ++ back) = workspace.deleteFiles back := by
  induction front with
  | nil => rfl
  | cons path others ih =>
    obtain ⟨here, later⟩ := List.forall_mem_cons.mp absent
    rw [List.cons_append, ← ih later]
    simp only [deleteFiles, here]

/-- Where a deletion was stopped: all paths before were dealt with, and what is left is what they left. -/
theorem deleteFiles_stopped {workspace : Workspace} {paths : List Path} {error : AccessError}
    (stopped : (workspace.deleteFiles paths).error = some error) :
    ∃ front path back, paths = front ++ path :: back ∧ (workspace.deleteFiles front).error = none ∧
      (workspace.deleteFiles paths).workspace = (workspace.deleteFiles front).workspace ∧
      (workspace.deleteFiles front).workspace.RefusesDeletion path error := by
  induction paths generalizing workspace with
  | nil => cases stopped
  | cons first others ih =>
    rcases workspace.deleteFiles_cons_cases first with ⟨other, refuses⟩ | ⟨-, same⟩ | ⟨next, -, same⟩
    · rw [refuses.deleteFiles_eq] at stopped ⊢
      cases stopped
      exact ⟨[], first, others, rfl, rfl, rfl, refuses⟩
    · rw [same] at stopped ⊢
      obtain ⟨front, path, back, rfl, rest⟩ := ih stopped
      refine ⟨first :: front, path, back, rfl, ?_⟩
      rw [same]
      exact rest
    · rw [same] at stopped ⊢
      obtain ⟨front, path, back, rfl, rest⟩ := ih stopped
      refine ⟨first :: front, path, back, rfl, ?_⟩
      rw [same]
      exact rest

/-- What deleting does, whatever the tree and the paths. Only entries that paths name go, no directory among
them, as many as are counted, and all others stay. Once it is done, a second deletion finds nothing to
delete. If it was stopped, then at a path before which all went well and left the tree as it is now, and a
second deletion is stopped in the same way and changes nothing. -/
theorem deletion_repeats (workspace : Workspace) (paths : List Path) :
    (∃ gone, workspace.Taken paths gone (workspace.deleteFiles paths).workspace ∧
      gone.length = (workspace.deleteFiles paths).count) ∧
    ((workspace.deleteFiles paths).error = none →
      (workspace.deleteFiles paths).workspace.deleteFiles paths =
        { workspace := (workspace.deleteFiles paths).workspace, count := 0, events := [], error := none }) ∧
    ∀ error, (workspace.deleteFiles paths).error = some error →
      (∃ front path back, paths = front ++ path :: back ∧ (workspace.deleteFiles front).error = none ∧
        (workspace.deleteFiles paths).workspace = (workspace.deleteFiles front).workspace ∧
        (workspace.deleteFiles front).workspace.RefusesDeletion path error) ∧
      (workspace.deleteFiles paths).workspace.deleteFiles paths =
        { workspace := (workspace.deleteFiles paths).workspace, count := 0, events := [], error := some error } := by
  refine ⟨workspace.deleteFiles_taken paths, fun done => ?_, fun error stopped => ?_⟩
  · have again := deleteFiles_append_of_absent (deleteFiles_absent done) []
    rw [List.append_nil] at again
    exact again
  · obtain ⟨front, path, back, whole, done, left, refuses⟩ := deleteFiles_stopped stopped
    refine ⟨⟨front, path, back, whole, done, left, refuses⟩, ?_⟩
    rw [left, whole, deleteFiles_append_of_absent (deleteFiles_absent done), refuses.deleteFiles_eq]

/-- Two files, a link to each of them, and a directory. -/
def muddle : Workspace where
  tree.entries :=
    [(["a".toList], .file (.octets [])),
     (["to-a".toList], .link "a".toList),
     (["sub".toList], .directory),
     (["b".toList, "sub".toList], .file (.octets [])),
     (["to-b".toList, "sub".toList], .link "./b".toList)]
  tree.distinct := by decide +kernel
  tree.named := by decide +kernel

/-- A link before its target and one behind it, and a file under two spellings. -/
def muddlePaths : List Path :=
  ["to-a".toList, "./a".toList, "sub/../a/".toList, "sub//b".toList, "sub/to-b".toList]

/-- A directory stands between two files. -/
def snaggedPaths : List Path :=
  ["a".toList, "to-a".toList, "sub/.".toList, "sub/b".toList]

theorem muddle_deletion_repeats :
    (muddle.deleteFiles muddlePaths).error = none ∧ (muddle.deleteFiles muddlePaths).count = 3 ∧
    ((muddle.deleteFiles muddlePaths).workspace.deleteFiles muddlePaths).count = 0 ∧
    (muddle.deleteFiles snaggedPaths).error = some (.fault .isDirectory "sub".toList) ∧
    ((muddle.deleteFiles snaggedPaths).workspace.deleteFiles snaggedPaths).error =
      some (.fault .isDirectory "sub".toList) := by
  have done : (muddle.deleteFiles muddlePaths).error = none := by decide +kernel
  have stopped : (muddle.deleteFiles snaggedPaths).error = some (.fault .isDirectory "sub".toList) := by
    decide +kernel
  refine ⟨done, by decide +kernel, ?_, stopped, ?_⟩
  · rw [(deletion_repeats muddle muddlePaths).2.1 done]
  · rw [((deletion_repeats muddle snaggedPaths).2.2 _ stopped).2]

end SheetReach.Workspace
