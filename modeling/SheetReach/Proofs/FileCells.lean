import SheetReach.Proofs.BoxedConsole
import SheetReach.Proofs.Unused

/-! What the table of unused files shows on a console that keeps to its manual. There is a table exactly if
every path leads somewhere and the console can show its text, and the cells of the file column are the paths
exactly if the console shows every path as it is. -/
namespace SheetReach

namespace Workspace

theorem fileSizes_eq_ok_iff (workspace : Workspace) (files : List Path) (sizes : List (Path × Kilobytes)) :
    workspace.fileSizes files = .ok sizes ↔
      List.Forall₂ (fun path item => item.1 = path ∧
        ∃ bytes, workspace.sizeAt path = .ok bytes ∧ item.2 = Kilobytes.ofBytes bytes) files sizes := by
  rw [fileSizes, Except.mapM_eq_ok_iff]
  refine iff_of_eq (congrArg (List.Forall₂ · files sizes) ?_)
  funext path ⟨file, size⟩
  apply propext
  rw [Except.bind_eq_ok_iff]
  constructor
  · rintro ⟨bytes, measured, same⟩
    cases same
    exact ⟨rfl, bytes, measured, rfl⟩
  · rintro ⟨rfl, bytes, measured, rfl⟩
    exact ⟨bytes, measured, rfl⟩

theorem fileSizes_paths {workspace : Workspace} {files : List Path} {sizes : List (Path × Kilobytes)}
    (measured : workspace.fileSizes files = .ok sizes) : sizes.map (·.1) = files := by
  rw [fileSizes_eq_ok_iff] at measured
  induction measured with
  | nil => rfl
  | cons first _ ih => rw [List.map_cons, first.1, ih]

theorem exists_fileSizes_iff (workspace : Workspace) (files : List Path) :
    (∃ sizes, workspace.fileSizes files = .ok sizes) ↔
      ∀ path ∈ files, ∃ entry, workspace.entryAt path = .ok entry := by
  rw [fileSizes, Except.exists_mapM_iff]
  refine forall₂_congr fun path _ => ?_
  unfold sizeAt
  cases workspace.entryAt path <;> simp [Bind.bind, Except.bind, pure, Except.pure]

theorem sizeTable_eq_ok_iff (workspace : Workspace) (console : Report.Console) {files : List Path}
    (filled : files ≠ []) (columns : Nat) (output : List Char) :
    workspace.sizeTable console columns files = .ok output ↔
      ∃ sizes, workspace.fileSizes files = .ok sizes ∧ console.draw columns (.ofSizes sizes) = .ok output := by
  unfold sizeTable
  split
  next error failed => simp [failed]
  next measured => exact absurd (fileSizes_paths measured).symm filled
  next sizes _ measured =>
    simp only [Except.mapError_eq_ok_iff, measured, Except.ok.injEq, exists_eq_left']

/-- The texts that a console shows for some paths, in their order. -/
def ShownAs (manual : Report.Manual) (files : List Path) (texts : List (List Char)) : Prop :=
  List.Forall₂ (fun path text => manual.text path = .ok text) files texts

theorem ShownAs.eq_iff {manual : Report.Manual} {files : List Path} {texts : List (List Char)}
    (shown : ShownAs manual files texts) : texts = files ↔ ∀ path ∈ files, manual.text path = .ok path := by
  induction shown with
  | nil => simp
  | cons first _ ih => rw [List.cons.injEq, List.forall_mem_cons, ih, first, Except.ok.injEq]

theorem exists_shownAs_iff (manual : Report.Manual) (files : List Path) :
    (∃ texts, ShownAs manual files texts) ↔ ∀ path ∈ files, ∃ shown, manual.text path = .ok shown := by
  simp only [ShownAs, ← Except.mapM_eq_ok_iff, Except.exists_mapM_iff]

section Console

variable {console : Report.Console} {manual : Report.Manual} (follows : console.Follows manual)
  {workspace : Workspace} {files : List Path} (filled : files ≠ [])

include follows filled

theorem exists_sizeTable_iff {columns : Nat} (positive : 0 < columns) :
    (∃ output, workspace.sizeTable console columns files = .ok output) ↔
      ∀ path ∈ files, (∃ entry, workspace.entryAt path = .ok entry) ∧
        ∃ shown, manual.text path = .ok shown := by
  have parts : (∃ output, workspace.sizeTable console columns files = .ok output) ↔
      ∃ sizes, workspace.fileSizes files = .ok sizes ∧
        ∃ output, console.draw columns (.ofSizes sizes) = .ok output := by
    simp only [workspace.sizeTable_eq_ok_iff console filled]
    grind
  rw [parts, forall₂_and, ← workspace.exists_fileSizes_iff files]
  constructor
  · rintro ⟨sizes, measured, drawn⟩
    rw [follows.drawn_iff columns sizes positive,
      ← List.forall_mem_map (P := fun path => ∃ shown, manual.text path = .ok shown),
      fileSizes_paths measured] at drawn
    exact ⟨⟨sizes, measured⟩, drawn⟩
  · rintro ⟨⟨sizes, measured⟩, shown⟩
    rw [← fileSizes_paths measured, List.forall_mem_map] at shown
    exact ⟨sizes, measured, (follows.drawn_iff columns sizes positive).mpr shown⟩

theorem sizeTable_cells (endings : ∀ path ∈ files, Report.EndsInLetter path) {columns : Nat}
    (positive : 0 < columns) {output : List Char} (drawn : workspace.sizeTable console columns files = .ok output) :
    ∃ sizes texts, workspace.fileSizes files = .ok sizes ∧ ShownAs manual files texts ∧
      (manual.roomy columns (.ofSizes sizes) → Report.Ruled (.ofSizes sizes) texts output) := by
  obtain ⟨texts, shown⟩ := (exists_shownAs_iff manual files).mpr fun path member =>
    ((exists_sizeTable_iff follows filled positive).mp ⟨output, drawn⟩ path member).2
  obtain ⟨sizes, measured, drawn⟩ := (workspace.sizeTable_eq_ok_iff console filled columns output).mp drawn
  have paths := fileSizes_paths measured
  refine ⟨sizes, texts, measured, shown, fun roomy => follows.lined columns sizes texts output ?_ ?_ roomy drawn⟩
  · rwa [← List.forall_mem_map (P := Report.EndsInLetter), paths]
  · rwa [← List.forall₂_map_left_iff (R := fun path text => manual.text path = .ok text), paths]

theorem sizeTable_of_ordinary (endings : ∀ path ∈ files, Report.EndsInLetter path)
    (plain : ∀ path ∈ files, (∃ entry, workspace.entryAt path = .ok entry) ∧ ∀ c ∈ path, Report.Ordinary c) :
    ∃ sizes enough, workspace.fileSizes files = .ok sizes ∧
      ∀ columns ≥ enough, ∃ output, workspace.sizeTable console columns files = .ok output ∧
        Report.Ruled (.ofSizes sizes) files output := by
  have verbatim : ∀ path ∈ files, manual.text path = .ok path := fun path member =>
    follows.ordinary path (plain path member).2
  obtain ⟨sizes, measured⟩ := (workspace.exists_fileSizes_iff files).mpr
    fun path member => (plain path member).1
  obtain ⟨enough, room⟩ := follows.room sizes fun item listed => by
    have member : item.1 ∈ files := fileSizes_paths measured ▸ List.mem_map_of_mem listed
    exact ⟨endings item.1 member, (plain item.1 member).2⟩
  refine ⟨sizes, enough + 1, measured, fun columns wide => ?_⟩
  have positive : 0 < columns := Nat.lt_of_lt_of_le (Nat.succ_pos enough) wide
  obtain ⟨output, drawn⟩ := (exists_sizeTable_iff follows filled positive).mpr fun path member =>
    ⟨(plain path member).1, path, verbatim path member⟩
  obtain ⟨others, texts, again, shown, ruled⟩ := sizeTable_cells follows filled endings positive drawn
  obtain rfl : sizes = others := Except.ok.inj (measured.symm.trans again)
  rw [shown.eq_iff.mpr verbatim] at ruled
  exact ⟨output, drawn, ruled (room columns (Nat.le_of_succ_le wide))⟩

end Console

theorem survey_unused_last {workspace : Workspace} {request : Request} {survey : Survey}
    (returned : (workspace.survey request).result = .ok survey) :
    ∀ path ∈ survey.unused, ∃ front, path = front ++ ['s'] := by
  intro path member
  obtain ⟨-, -, -, ⟨extension, enabled, front, rfl⟩, -, -⟩ := survey_unused_listed returned member
  obtain ⟨dialect, -, rfl⟩ := List.mem_map.mp enabled
  have last : ∃ middle, dialect.extension = middle ++ ['s'] := by
    cases dialect
    · exact ⟨".scs".toList, by decide⟩
    · exact ⟨".sas".toList, by decide⟩
  obtain ⟨middle, same⟩ := last
  exact ⟨front ++ middle, by rw [same, List.append_assoc]⟩

/-- What the table of unused files shows, on a console that keeps to its manual. There is one exactly if every
unused path leads somewhere and can be shown. Where no file cell wraps, the cells are the shown texts of the
paths, and these are the paths themselves exactly if each is shown as it is. That is so for paths of ordinary
characters, which from some number of columns on stand in the table as they are. A style in square brackets
is lost, and for a closing tag that closes nothing there is no table. -/
theorem unused_table_cells (console : Report.Console) (manual : Report.Manual) (follows : console.Follows manual)
    (workspace : Workspace) (request : Request) (survey : Survey)
    (returned : (workspace.survey request).result = .ok survey) (filled : survey.unused ≠ []) :
    (∀ columns > 0, (∃ output, workspace.sizeTable console columns survey.unused = .ok output) ↔
      ∀ path ∈ survey.unused, (∃ entry, workspace.entryAt path = .ok entry) ∧
        ∃ shown, manual.text path = .ok shown) ∧
    (∀ columns > 0, ∀ output, workspace.sizeTable console columns survey.unused = .ok output →
      ∃ sizes texts, workspace.fileSizes survey.unused = .ok sizes ∧ ShownAs manual survey.unused texts ∧
        (manual.roomy columns (.ofSizes sizes) → Report.Ruled (.ofSizes sizes) texts output) ∧
        (texts = survey.unused ↔ ∀ path ∈ survey.unused, manual.text path = .ok path)) ∧
    ((∀ path ∈ survey.unused, (∃ entry, workspace.entryAt path = .ok entry) ∧ ∀ c ∈ path, Report.Ordinary c) →
      ∃ sizes enough, workspace.fileSizes survey.unused = .ok sizes ∧
        ∀ columns ≥ enough, ∃ output, workspace.sizeTable console columns survey.unused = .ok output ∧
          Report.Ruled (.ofSizes sizes) survey.unused output) ∧
    (∀ front back, (∀ c ∈ front ++ back, Report.Ordinary c) → front.getLast? ≠ some '\\' →
      (∀ word ∈ Report.styleWords, front ++ '[' :: (word.toList ++ ']' :: back) ∈ survey.unused →
        ∀ texts, ShownAs manual survey.unused texts → texts ≠ survey.unused) ∧
      (∀ word ∈ "" :: Report.styleWords, front ++ '[' :: '/' :: (word.toList ++ ']' :: back) ∈ survey.unused →
        ∀ columns > 0, ∀ output, workspace.sizeTable console columns survey.unused ≠ .ok output)) := by
  have endings : ∀ path ∈ survey.unused, Report.EndsInLetter path := fun path member =>
    let ⟨front, ends⟩ := survey_unused_last returned path member
    ⟨front, 's', ends, by decide⟩
  refine ⟨fun _ => exists_sizeTable_iff follows filled, fun columns positive output drawn => ?_,
    sizeTable_of_ordinary follows filled endings, fun front back ordinary unescaped =>
      ⟨fun word listed member texts shown same => ?_, fun word listed member columns positive output drawn => ?_⟩⟩
  · obtain ⟨sizes, texts, measured, shown, ruled⟩ := sizeTable_cells follows filled endings positive drawn
    exact ⟨sizes, texts, measured, shown, ruled, shown.eq_iff⟩
  · have kept := shown.eq_iff.mp same _ member
    rw [follows.tag front back word listed ordinary unescaped, Except.ok.injEq] at kept
    have shorter := congrArg List.length kept
    simp only [List.length_append, List.length_cons] at shorter
    omega
  · obtain ⟨-, text, shown⟩ := (exists_sizeTable_iff follows filled positive).mp ⟨output, drawn⟩ _ member
    obtain ⟨message, fails⟩ := follows.closing front back word listed ordinary unescaped
    cases fails.symm.trans shown

/-- An entry point that imports nothing, and one more entry in a directory below it. -/
def spare (name : Name) (entry : Entry)
    (legal : Path.Legal name ∧ '\x00' ∉ name := by decide +kernel) : Workspace where
  tree.entries :=
    [(["main.scss".toList], .file (.octets [])),
     (["sub".toList], .directory),
     ([name, "sub".toList], entry)]
  tree.distinct := by simp
  tree.named := by
    have plain : Location.Legal ["main.scss".toList] ∧ Location.Legal ["sub".toList] := by decide +kernel
    simpa using ⟨plain.1, plain.2, List.forall_mem_cons.mpr ⟨legal, plain.2⟩⟩

def spareSurvey (path : Path) : Survey where
  root := "/".toList
  dialect := .scss
  entryPoints := ["/main.scss".toList]
  reachable := ["/main.scss".toList]
  unused := [path]

/-- A number in brackets is no tag. -/
theorem numbered_table_cells :
    ((spare "x[1].scss".toList (.file (.zeros 1500))).survey {}).result =
        .ok (spareSurvey "/sub/x[1].scss".toList) ∧
      ∃ output, (spare "x[1].scss".toList (.file (.zeros 1500))).sizeTable .boxed 80
          ["/sub/x[1].scss".toList] = .ok output ∧
        Report.Ruled (.ofSizes [("/sub/x[1].scss".toList, .ofBytes 1500)]) ["/sub/x[1].scss".toList] output := by
  have returned : ((spare "x[1].scss".toList (.file (.zeros 1500))).survey {}).result =
      .ok (spareSurvey "/sub/x[1].scss".toList) := by decide +kernel
  have kept : Report.boxedManual.text "/sub/x[1].scss".toList = .ok "/sub/x[1].scss".toList := by decide +kernel
  obtain ⟨exists_iff, cells, -⟩ := unused_table_cells .boxed Report.boxedManual Report.boxed_follows _ _ _
    returned (List.cons_ne_nil _ _)
  obtain ⟨output, drawn⟩ := (exists_iff 80 (by decide)).mpr (List.forall_mem_singleton.mpr ⟨by decide +kernel, _, kept⟩)
  obtain ⟨sizes, texts, measured, -, ruled, same⟩ := cells 80 (by decide) output drawn
  obtain rfl : [("/sub/x[1].scss".toList, Kilobytes.ofBytes 1500)] = sizes :=
    Except.ok.inj (Eq.trans (by decide +kernel) measured)
  obtain rfl := same.mpr (List.forall_mem_singleton.mpr kept)
  refine ⟨returned, output, drawn, ruled fun rows made => ?_⟩
  obtain rfl : [⟨"/sub/x[1].scss".toList, "1.5".toList⟩] = rows :=
    Except.ok.inj (Eq.trans (by decide +kernel) made)
  decide +kernel

/-- A name with a tag in it is shown without the tag, and for a link to nothing there is no table. -/
theorem spare_table_garbled :
    ((spare "x[b].scss".toList (.file (.octets []))).survey {}).result =
        .ok (spareSurvey "/sub/x[b].scss".toList) ∧
      (spare "x[b].scss".toList (.file (.octets []))).sizeTable .boxed 80 ["/sub/x[b].scss".toList] =
        .ok (["┏━━━━━━━━━━━━━━━━━┳━━━━━━━━━━━━┓\n",
              "┃ File            ┃  Size (kb) ┃\n",
              "┡━━━━━━━━━━━━━━━━━╇━━━━━━━━━━━━┩\n",
              "│ /sub/x.scss     │          0 │\n",
              "├─────────────────┼────────────┤\n",
              "│ Total file size │       0.00 │\n",
              "└─────────────────┴────────────┘\n"].flatMap String.toList) ∧
      ((spare "_x.scss".toList (.link "nowhere".toList)).survey {}).result =
        .ok (spareSurvey "/sub/_x.scss".toList) ∧
      (spare "_x.scss".toList (.link "nowhere".toList)).sizeTable .boxed 80 ["/sub/_x.scss".toList] =
        .error (.access (.fault .missing "/sub/_x.scss".toList)) :=
  ⟨by decide +kernel, by decide +kernel, by decide +kernel, by decide +kernel⟩

end Workspace

end SheetReach
