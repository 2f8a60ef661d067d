import SheetReach.Proofs.PlainTree

/-! The files of one directory, which decide the dialect and are the entry points. A directory that loses
only files of the dialects it does not speak still speaks for the same one. -/
namespace SheetReach

namespace Dialect

theorem length_filter_keep_le (files : List (List Char)) (keep meets : List Char → Bool) :
    (files.filter meets).length + (files.filter keep).length ≤
      ((files.filter keep).filter meets).length + files.length := by
  induction files with
  | nil => simp
  | cons file rest ih =>
    cases kept : keep file <;> cases met : meets file <;>
      simp only [List.filter_cons, kept, met, Bool.false_eq_true, ↓reduceIte, List.length_cons] <;> omega

theorem length_filter_keep_eq (files : List (List Char)) (keep meets : List Char → Bool)
    (dropped : ∀ file ∈ files, keep file = false → meets file = true) :
    (files.filter meets).length + (files.filter keep).length =
      ((files.filter keep).filter meets).length + files.length := by
  induction files with
  | nil => simp
  | cons file rest ih =>
    have later := ih (fun other member => dropped other (List.mem_cons_of_mem _ member))
    have here := dropped file List.mem_cons_self
    cases kept : keep file with
    | true =>
      cases met : meets file <;>
        simp only [List.filter_cons, kept, met, Bool.false_eq_true, ↓reduceIte, List.length_cons] <;> omega
    | false =>
      simp only [List.filter_cons, kept, here kept, Bool.false_eq_true, ↓reduceIte, List.length_cons]
      omega

/-- The majority does not turn when names go that stand for another dialect: each of them counted for
that one and at most also for the winner. -/
theorem ofNames_filter (files : List (List Char)) (keep : List Char → Bool) (dialect : Dialect)
    (chosen : ofNames files = dialect)
    (dropped : ∀ file ∈ files, keep file = false →
      ∃ other, other ≠ dialect ∧ Text.holds other.extension file = true) :
    ofNames (files.filter keep) = dialect := by
  have winner := length_filter_keep_le files keep (Text.holds dialect.extension)
  have loser := fun (rival : Dialect) (only : ∀ other, other ≠ dialect → other = rival) =>
    length_filter_keep_eq files keep (Text.holds rival.extension) (by
      intro file member gone
      obtain ⟨other, apart, holds⟩ := dropped file member gone
      rw [← only other apart]
      exact holds)
  unfold ofNames at chosen ⊢
  simp only at chosen ⊢
  cases dialect with
  | scss =>
    have others := loser sass (by rintro (_ | _) <;> simp)
    split at chosen
    next => cases chosen
    next => exact if_neg (by omega)
  | sass =>
    have others := loser scss (by rintro (_ | _) <;> simp)
    split at chosen
    next => exact if_pos (by omega)
    next => cases chosen

end Dialect

/-- The names of the files in a directory of a tree without links. -/
def FileTree.filesIn (tree : FileTree) (place : Location) : List Name :=
  ((tree.children place).filter (·.2 ≠ .directory)).map Prod.fst

namespace FileTree

theorem mem_filesIn (tree : FileTree) (place : Location) (name : Name) :
    name ∈ tree.filesIn place ↔ ∃ entry, entry ≠ .directory ∧ tree.find? (name :: place) = some entry := by
  simp only [filesIn, List.mem_map, List.mem_filter, decide_eq_true_eq, Prod.exists, exists_and_right,
    exists_eq_right, mem_children_iff]
  exact exists_congr fun entry => and_comm

theorem children_filter {before after : FileTree} (keep : Location → Bool)
    (kept : after.entries = before.entries.filter fun item => keep item.1) (place : Location) :
    after.children place = (before.children place).filter fun child => keep (child.1 :: place) := by
  unfold children
  rw [kept]
  generalize before.entries = entries
  induction entries with
  | nil => rfl
  | cons item rest ih =>
    obtain ⟨location, entry⟩ := item
    cases location with
    | nil => cases stays : keep [] <;> simpa [stays] using ih
    | cons name parent =>
      by_cases inside : parent = place
      · subst inside
        cases stays : keep (name :: parent) <;> simp [stays, ih]
      · cases stays : keep (name :: parent) <;> simpa [stays, inside] using ih

theorem filesIn_filter {before after : FileTree} (keep : Location → Bool)
    (kept : after.entries = before.entries.filter fun item => keep item.1) (place : Location) :
    after.filesIn place = (before.filesIn place).filter fun name => keep (name :: place) := by
  unfold filesIn
  rw [children_filter keep kept, List.filter_map, List.filter_filter, List.filter_filter]
  congr 1
  apply List.filter_congr
  intro child _
  exact Bool.and_comm _ _

end FileTree

namespace Workspace

theorem filterM_eq_ok {α ε : Type} (items : List α) (test : α → Except ε Bool) (keep : α → Bool)
    (total : ∀ item ∈ items, test item = .ok (keep item)) : items.filterM test = .ok (items.filter keep) := by
  have general : ∀ (items taken : List α), (∀ item ∈ items, test item = .ok (keep item)) →
      items.filterAuxM test taken = .ok ((items.filter keep).reverse ++ taken) := by
    intro items
    induction items with
    | nil => exact fun _ _ => rfl
    | cons item rest ih =>
      intro taken total
      have later := fun other member => total other (List.mem_cons_of_mem _ member)
      simp only [List.filterAuxM, total item List.mem_cons_self, Except.ok_bind]
      cases kept : keep item <;> simp [ih _ later, kept]
  simp [List.filterM, general items [] total, Except.ok_bind, pure, Except.pure]

theorem topFiles_eq {workspace : Workspace} (unlinked : workspace.tree.Unlinked) {directory : Path}
    {place : Location} (plain : '\x00' ∉ directory)
    (leads : workspace.tree.locate workspace.cwd true directory = .ok ⟨place, .directory⟩) :
    workspace.topFiles directory = .ok (workspace.tree.filesIn place) := by
  have files := filterM_eq_ok (workspace.tree.children place)
    (fun child => workspace.isFile directory child.1 child.2) (fun child => child.2 ≠ .directory) (by
      rintro ⟨name, entry⟩ member
      have found := (workspace.tree.mem_children_iff place name entry).mp member
      cases entry with
      | file content => rfl
      | directory => rfl
      | link target => exact absurd found (unlinked.find?_ne _ target))
  simp only [topFiles, list_of_locate plain leads, Except.ok_bind]
  rw [files]
  rfl

theorem filterM_eq_ok_iff {α ε : Type} (items kept : List α) (test : α → Except ε Bool) :
    items.filterM test = .ok kept ↔ (∀ item ∈ items, ∃ answer, test item = .ok answer) ∧
      kept = items.filter fun item => (test item).toOption.getD false := by
  have passes : (∀ item ∈ items, ∃ answer, test item = .ok answer) →
      items.filterM test = .ok (items.filter fun item => (test item).toOption.getD false) := by
    intro total
    apply filterM_eq_ok
    intro item member
    obtain ⟨answer, tested⟩ := total item member
    simp [tested, Except.toOption]
  constructor
  · intro filtered
    have general : ∀ (items taken kept : List α), items.filterAuxM test taken = .ok kept →
        ∀ item ∈ items, ∃ answer, test item = .ok answer := by
      intro items
      induction items with
      | nil => exact fun _ _ _ item member => by cases member
      | cons first rest ih =>
        intro taken kept filtered item member
        obtain ⟨answer, tested, later⟩ := (Except.bind_eq_ok_iff _ _ _).mp filtered
        rcases List.mem_cons.mp member with rfl | old
        · exact ⟨answer, tested⟩
        · exact ih _ _ later item old
    obtain ⟨reversed, inner, -⟩ := (Except.bind_eq_ok_iff _ _ _).mp filtered
    have total := general items [] reversed inner
    exact ⟨total, Except.ok.inj (filtered.symm.trans (passes total))⟩
  · rintro ⟨total, rfl⟩
    exact passes total

theorem isFile_ok_iff (workspace : Workspace) {directory : Path} {name : Name} (entry : Entry)
    (plain : '\x00' ∉ Path.join directory name) :
    (∃ answer, workspace.isFile directory name entry = .ok answer) ↔
      ∀ target, entry = .link target → ∀ fault,
        workspace.tree.locate workspace.cwd true (Path.join directory name) = .error fault →
        fault = .missing := by
  cases entry with
  | file content => simp [isFile, settle]
  | directory => simp [isFile, settle]
  | link target =>
    unfold isFile settle entryAt locate
    cases workspace.tree.locate workspace.cwd true (Path.join directory name) with
    | error fault => cases fault <;> simp [plain]
    | ok place => simp [plain]

theorem topFiles_eq_ok {workspace : Workspace} {directory : Path} {names : List Name}
    (told : workspace.topFiles directory = .ok names) :
    ∃ place, workspace.tree.locate workspace.cwd true directory = .ok ⟨place, .directory⟩ ∧
      (∀ child ∈ workspace.tree.children place,
        ∃ answer, workspace.isFile directory child.1 child.2 = .ok answer) ∧
      ∀ name ∈ names, ∃ entry, workspace.tree.find? (name :: place) = some entry := by
  obtain ⟨children, listed, rest⟩ := (Except.bind_eq_ok_iff _ _ _).mp told
  obtain ⟨kept, filtered, same⟩ := (Except.bind_eq_ok_iff _ _ _).mp rest
  obtain ⟨-, place, leads, rfl⟩ := list_eq_ok listed
  obtain ⟨total, rfl⟩ := (filterM_eq_ok_iff _ _ _).mp filtered
  cases Except.ok.inj same
  refine ⟨place, leads, total, ?_⟩
  intro name member
  obtain ⟨⟨_, entry⟩, inside, rfl⟩ := List.mem_map.mp member
  exact ⟨entry, (workspace.tree.mem_children_iff place _ entry).mp (List.mem_of_mem_filter inside)⟩

/-- What is left of the files in a directory. -/
theorem Loses.filesIn {before after : Workspace} {paths : List Path} (loses : before.Loses paths after)
    (place : Location) : ∃ keep : Name → Bool,
      after.tree.filesIn place = (before.tree.filesIn place).filter keep ∧
        ∀ name ∈ before.tree.filesIn place, keep name = false →
          after.tree.find? (name :: place) ≠ before.tree.find? (name :: place) := by
  obtain ⟨keep, kept⟩ := loses.filtered
  refine ⟨fun name => keep (name :: place), FileTree.filesIn_filter keep kept place, ?_⟩
  intro name member gone
  simp only at gone
  obtain ⟨entry, -, found⟩ := (before.tree.mem_filesIn place name).mp member
  rw [FileTree.find?_filter keep kept (name :: place) (List.cons_ne_nil _ _), gone, found]
  simp

end Workspace

end SheetReach
