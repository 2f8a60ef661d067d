import SheetReach.Pattern.Match
import SheetReach.Proofs.NormalPath
import SheetReach.Proofs.SpecifierPath

/-! What a specifier may name: nothing, or a file and the partial of that name in one directory. Which
specifiers name nothing is said by how they begin and end, without regard to case over all scripts. -/
namespace SheetReach

namespace Path

theorem directory_append {name : Name} (unslashed : '/' ∉ name) (front : Path) :
    directory (front ++ '/' :: name) =
      if Text.trimEndBy (· = '/') front = [] then front ++ ['/'] else Text.trimEndBy (· = '/') front := by
  have dropped : ∀ c ∈ name.reverse, decide (c ≠ '/') = true := by
    intro c member
    exact decide_eq_true fun slash => unslashed (slash ▸ List.mem_reverse.mp member)
  have head : ((front ++ '/' :: name).reverse.dropWhile (· ≠ '/')).reverse = front ++ ['/'] := by
    rw [List.reverse_append, List.reverse_cons, List.append_assoc, List.dropWhile_append_of_pos dropped]
    simp
  have bare : ((front ++ ['/']).reverse.dropWhile (· = '/')).reverse = Text.trimEndBy (· = '/') front :=
    Text.trimEndBy_append_of_dropped front (by simp)
  simp only [directory, head, bare, List.isEmpty_iff]

/-- The directory of a normal path is the normal path without the last name. -/
theorem directory_spell {mark : Path} {names : List Name} {name : Name} (marked : IsMark mark)
    (legal : ∀ name ∈ names, Legal name) (unslashed : '/' ∉ name) :
    directory (spell mark (names ++ [name])) = spell mark names := by
  by_cases top : names = []
  · subst top
    rcases marked with rfl | rfl
    · exact directory_append unslashed []
    · exact directory_append unslashed ['/']
  · have behind : spell mark (names ++ [name]) = spell mark names ++ '/' :: name := by
      rw [spell, Text.joinWith_append _ _ _ top (List.cons_ne_nil _ _)]
      simp [spell, Text.joinWith]
    have last := getLast_spell mark names marked top legal
    have kept : Text.trimEndBy (· = '/') (spell mark names) = spell mark names := by
      have solid : (spell mark names).reverse.head?.any (· = '/') = false := by
        rw [List.head?_reverse]
        cases ends : (spell mark names).getLast? with
        | none => rfl
        | some c => exact decide_eq_false fun slash => last (slash ▸ ends)
      rw [Text.trimEndBy, Text.dropWhile_of_head? solid, List.reverse_reverse]
    have filled : spell mark names ≠ [] := by
      rcases marked with rfl | rfl <;> simp [spell]
    rw [behind, directory_append unslashed, kept, if_neg filled]

end Path

namespace Text

theorem LowerRun.lower?_eq_some {run : LowerRun} {code lower : Nat} (found : run.lower? code = some lower) :
    run.first ≤ code ∧ code ≤ run.last ∧ lower = run.target + (code - run.first) := by
  unfold LowerRun.lower? at found
  split at found
  next inside =>
    simp only [Bool.and_eq_true, decide_eq_true_eq] at inside
    exact ⟨inside.1.1, inside.1.2, (Option.some.inj found).symm⟩
  next => cases found

theorem LowerRun.raise?_eq_some {run : LowerRun} {code upper : Nat} (found : run.raise? code = some upper) :
    run.first ≤ upper ∧ upper ≤ run.last := by
  unfold LowerRun.raise? at found
  split at found
  next inside =>
    simp only [Bool.and_eq_true, decide_eq_true_eq] at inside
    obtain rfl := Option.some.inj found
    exact ⟨Nat.le_add_right _ _, inside.1.2⟩
  next => cases found

/-- A code point from 128 on keeps itself as its lower case, or has one in a run. -/
theorem lowerCode_cases {code : Nat} (high : 128 ≤ code) :
    lowerCode code = code ∨ ∃ run ∈ lowerRuns, run.first ≤ code ∧ code ≤ run.last ∧
      lowerCode code = run.target + (code - run.first) := by
  unfold lowerCode
  rw [if_neg (Nat.not_lt.mpr high)]
  cases found : lowerRuns.findSome? (·.lower? code) with
  | none => exact Or.inl rfl
  | some lower =>
    obtain ⟨run, member, lowered⟩ := List.exists_of_findSome?_eq_some found
    obtain ⟨first, last, same⟩ := LowerRun.lower?_eq_some lowered
    exact Or.inr ⟨run, member, first, last, same⟩

/-- The long s has no other lower case, and it is the lower case of no other code point. -/
theorem lowerCode_eq_long_s_iff (code : Nat) : lowerCode code = 383 ↔ code = 383 := by
  have apart : ∀ run ∈ lowerRuns, run.target + (run.last - run.first) < 383 ∨ 383 < run.target := by
    decide +kernel
  constructor
  · intro long
    by_cases high : 128 ≤ code
    · rcases lowerCode_cases high with same | ⟨run, member, first, last, same⟩
      · omega
      · have outside := apart run member
        omega
    · simp only [lowerCode, if_pos (Nat.lt_of_not_le high)] at long
      split at long <;> omega
  · intro same
    rw [same]
    decide +kernel

theorem toNat_toLower (c : Char) :
    c.toLower.toNat = if 65 ≤ c.toNat ∧ c.toNat ≤ 90 then c.toNat + 32 else c.toNat := by
  unfold Char.toLower
  have upper : (c.val ≥ 'A'.val ∧ c.val ≤ 'Z'.val) ↔ 65 ≤ c.toNat ∧ c.toNat ≤ 90 := Iff.rfl
  by_cases inside : 65 ≤ c.toNat ∧ c.toNat ≤ 90
  · rw [dif_pos (upper.mpr inside), if_pos inside]
    change (c.val + 32).toNat = c.val.toNat + 32
    rw [UInt32.toNat_add]
    have bound : c.val.toNat ≤ 90 := inside.2
    have thirtyTwo : (32 : UInt32).toNat = 32 := rfl
    omega
  · rw [dif_neg (mt upper.mp inside), if_neg inside]

end Text

namespace Import

/-- A character is the given one if case is ignored, over all scripts, as patterns do it. -/
def ReadsAs (letter c : Char) : Prop :=
  Pattern.isMember { ignoreCase := true } false [.code letter.toNat] c = true

/-- The characters by which plain CSS imports are told. -/
def telling : List Char := ['/', ':', '.', '(', 'c', 'h', 'l', 'p', 'r', 's', 't', 'u']

theorem readsAs_iff_mem (letter c : Char) :
    ReadsAs letter c ↔ ∃ key ∈ Text.alikeLower (Text.lowerCode c.toNat), letter.toNat ∈ Text.raisedCodes key := by
  simp [ReadsAs, Pattern.isMember, Pattern.Member.holds, Pattern.Comparison.key, Pattern.Comparison.alike]

section Telling

variable {letter : Char} (tells : letter ∈ telling)

include tells

theorem mem_raisedCodes_iff (key : Nat) : letter.toNat ∈ Text.raisedCodes key ↔ key = letter.toNat := by
  have apart : ∀ code ∈ telling.map Char.toNat, ∀ run ∈ Text.lowerRuns, code < run.first ∨ run.last < code := by
    decide +kernel
  constructor
  · intro raised
    rcases List.mem_cons.mp raised with same | upper
    · exact same.symm
    · obtain ⟨run, member, found⟩ := List.mem_filterMap.mp upper
      have bounds := Text.LowerRun.raise?_eq_some found
      have outside := apart _ (List.mem_map_of_mem tells) run member
      omega
  · intro same
    rw [same]
    exact List.mem_cons_self

theorem mem_alikeLower_iff (key : Nat) :
    letter.toNat ∈ Text.alikeLower key ↔ key = letter.toNat ∨ letter = 's' ∧ key = 383 := by
  have shared : ∀ code ∈ telling.map Char.toNat, ∀ pair ∈ Text.sharedUpper, code ∈ pair.2 →
      code = 's'.toNat ∧ pair.1 = 383 := by decide +kernel
  constructor
  · intro alike
    rcases List.mem_cons.mp alike with same | other
    · exact Or.inl same.symm
    · right
      cases found : Text.sharedUpper.find? (·.1 == key) with
      | none => simp [found] at other
      | some pair =>
        have own : pair.1 = key := by simpa using List.find?_some found
        rw [found] at other
        obtain ⟨isS, long⟩ := shared _ (List.mem_map_of_mem tells) pair (List.mem_of_find?_eq_some found) other
        exact ⟨Char.toNat_inj.mp isS, own ▸ long⟩
  · intro cases
    rcases cases with same | ⟨rfl, rfl⟩
    · rw [same]
      exact List.mem_cons_self
    · decide +kernel

theorem lowerCode_eq_iff (c : Char) : Text.lowerCode c.toNat = letter.toNat ↔ c.toLower = letter := by
  have apart : ∀ code ∈ telling.map Char.toNat, code < 128 ∧ ∀ run ∈ Text.lowerRuns, run.last < 128 ∨
      run.target + (run.last - run.first) < code ∨ code < run.target := by decide +kernel
  obtain ⟨low, runs⟩ := apart _ (List.mem_map_of_mem tells)
  have plain : c.toLower = letter ↔ c.toLower.toNat = letter.toNat :=
    ⟨congrArg Char.toNat, Char.toNat_inj.mp⟩
  rw [plain, Text.toNat_toLower]
  by_cases high : 128 ≤ c.toNat
  · rw [if_neg (by omega)]
    refine iff_of_false ?_ (by omega)
    rcases Text.lowerCode_cases high with same | ⟨run, member, first, last, same⟩
    · omega
    · have outside := runs run member
      omega
  · simp only [Text.lowerCode, if_pos (Nat.lt_of_not_le high), Bool.and_eq_true, decide_eq_true_eq]

/-- The characters of plain CSS imports are read without regard to case, over all scripts. -/
theorem readsAs_iff (c : Char) : ReadsAs letter c ↔ isLetterOf letter c = true := by
  have long : Text.lowerCode c.toNat = 383 ↔ c = 'ſ' :=
    (Text.lowerCode_eq_long_s_iff c.toNat).trans ⟨fun same => Char.toNat_inj.mp same, congrArg Char.toNat⟩
  rw [readsAs_iff_mem]
  simp only [mem_raisedCodes_iff tells, exists_eq_right, mem_alikeLower_iff tells, lowerCode_eq_iff tells, long]
  simp [isLetterOf]

end Telling

/-- The text begins with the mark if case is ignored. -/
def BeginsAs (mark text : List Char) : Prop :=
  ∃ front rest, text = front ++ rest ∧ List.Forall₂ ReadsAs mark front

/-- The text ends with the mark if case is ignored. -/
def EndsAs (mark text : List Char) : Prop :=
  ∃ rest back, text = rest ++ back ∧ List.Forall₂ ReadsAs mark back

theorem endsAs_iff (mark text : List Char) : EndsAs mark text ↔ BeginsAs mark.reverse text.reverse := by
  constructor
  · intro parts
    obtain ⟨rest, back, rfl, alike⟩ := parts
    exact ⟨back.reverse, rest.reverse, List.reverse_append, List.forall₂_reverse_iff.mpr alike⟩
  · intro parts
    obtain ⟨front, rest, whole, alike⟩ := parts
    refine ⟨rest.reverse, front.reverse, ?_, ?_⟩
    · rw [← List.reverse_append, ← whole, List.reverse_reverse]
    · rw [← List.forall₂_reverse_iff, List.reverse_reverse]
      exact alike

theorem afterLetters?_isSome_iff {mark : List Char} (told : mark ⊆ telling) (text : List Char) :
    (afterLetters? mark text).isSome = true ↔ BeginsAs mark text := by
  induction mark generalizing text with
  | nil => exact iff_of_true rfl ⟨[], text, rfl, .nil⟩
  | cons letter more ih =>
    obtain ⟨tells, others⟩ := List.cons_subset.mp told
    cases text with
    | nil =>
      refine iff_of_false (by simp [afterLetters?]) ?_
      intro parts
      obtain ⟨front, rest, whole, alike⟩ := parts
      cases alike with
      | cons first alike => cases whole
    | cons c text =>
      rw [afterLetters?]
      constructor
      · intro reads
        split at reads
        next first =>
          obtain ⟨front, rest, rfl, alike⟩ := (ih others text).mp reads
          exact ⟨c :: front, rest, rfl, .cons ((readsAs_iff tells c).mpr first) alike⟩
        next => cases reads
      · intro parts
        obtain ⟨front, rest, whole, alike⟩ := parts
        cases alike with
        | cons first alike =>
          obtain ⟨rfl, rfl⟩ := List.cons.inj whole
          rw [if_pos ((readsAs_iff tells _).mp first)]
          exact (ih others _).mpr ⟨_, rest, rfl, alike⟩

/-- Which imports are plain CSS: those that without regard to case begin with one of four marks or end with
`.css`. -/
theorem isPlainCss_iff (text : List Char) :
    isPlainCss text = true ↔
      BeginsAs "//".toList text ∨ BeginsAs "http://".toList text ∨ BeginsAs "https://".toList text ∨
        BeginsAs "url(".toList text ∨ EndsAs ".css".toList text := by
  have begins {mark : List Char} (told : mark ⊆ telling) :=
    afterLetters?_isSome_iff told text
  have ends : (afterLetters? ['s', 's', 'c', '.'] text.reverse).isSome = true ↔ EndsAs ".css".toList text :=
    (afterLetters?_isSome_iff (by decide) text.reverse).trans (endsAs_iff ".css".toList text).symm
  simp only [isPlainCss, isRemote, List.any_cons, List.any_nil, Bool.or_false, Bool.or_eq_true, ends, or_assoc]
  rw [begins (by decide), begins (by decide), begins (by decide), begins (by decide)]
  rfl

theorem splitLast_bare_iff (text : List Char) :
    (splitLast text).2 = [] ↔ text = [] ∨ text.getLast? = some '/' := by
  by_cases slash : '/' ∈ text
  · obtain ⟨folder, file, rfl, unslashed⟩ := exists_last_slash slash
    rw [splitLast_append unslashed]
    constructor
    · intro bare
      change file = [] at bare
      simp [bare]
    · intro ends
      by_contra filled
      change file ≠ [] at filled
      rw [List.append_cons, List.getLast?_append_of_ne_nil _ filled] at ends
      exact unslashed (List.mem_of_getLast? (ends.resolve_left (by simp)))
  · rw [splitLast_of_not_mem slash]
    refine (or_iff_left ?_).symm
    intro ends
    exact slash (List.mem_of_getLast? ends)

/-- No name stands behind the last slash exactly if the specifier ends with a slash or a backslash. -/
theorem fileOf_eq_nil_iff (specifier : List Char) :
    fileOf specifier = [] ↔ Text.trim specifier = [] ∨ (Text.trim specifier).getLast? = some '/' ∨
      (Text.trim specifier).getLast? = some '\\' := by
  rw [fileOf, splitLast_bare_iff, slashed, List.map_eq_nil_iff, List.getLast?_map]
  refine or_congr_right ?_
  cases (Text.trim specifier).getLast? with
  | none => simp
  | some c =>
    by_cases backslash : c = '\\'
    · simp [backslash]
    · simp [backslash]

theorem slash_not_mem_fileOf (specifier : List Char) : '/' ∉ fileOf specifier := by
  unfold fileOf
  by_cases slash : '/' ∈ slashed specifier
  · obtain ⟨folder, file, whole, unslashed⟩ := exists_last_slash slash
    rw [whole, splitLast_append unslashed]
    exact unslashed
  · rw [splitLast_of_not_mem slash]
    exact slash

/-- A candidate in its folder: the folder's names and one more. -/
theorem candidate_spelled (cwd folder : Path) {name : Name} (legal : Path.Legal name) :
    Path.normalize cwd (Path.join folder name) =
      Path.spell (Path.rootMark (Path.join cwd folder)) (Path.collapse (Path.join cwd folder) ++ [name]) := by
  rw [Path.normalize_eq_form, ← Path.join_assoc]
  exact Path.form_join_legal (List.forall_mem_singleton.mpr legal) _

theorem candidate_directory (cwd folder : Path) {name : Name} (legal : Path.Legal name) :
    Path.directory (Path.normalize cwd (Path.join folder name)) = Path.normalize cwd folder := by
  rw [candidate_spelled cwd folder legal,
    Path.directory_spell (Path.rootMark_isMark _) (Path.collapse_legal _) legal.unslashed, Path.normalize_eq_form]
  rfl

theorem candidate_name (cwd folder : Path) {name : Name} (legal : Path.Legal name) :
    (splitLast (Path.normalize cwd (Path.join folder name))).2 = name := by
  obtain ⟨front, spelled⟩ := Path.spell_concat (Path.rootMark (Path.join cwd folder))
    (Path.collapse (Path.join cwd folder)) name (Path.rootMark_isMark _)
  rw [candidate_spelled cwd folder legal, spelled, splitLast_append legal.unslashed]

theorem partial_legal {name : Name} (legal : Path.Legal name) : Path.Legal ('_' :: name) where
  nonempty := List.cons_ne_nil _ _
  unslashed := by simpa using legal.unslashed
  notHere := by simp [Path.here]
  notUp := by simp [Path.up]

theorem candidates_eq_nil_iff (cwd directory : Path) (dialect : Dialect) (enabled : List Dialect)
    (specifier : List Char) :
    candidates cwd dialect enabled directory specifier = [] ↔
      Text.trim specifier = [] ∨ isPlainCss (Text.trim specifier) = true ∨ fileOf specifier = [] := by
  rw [candidates_eq, ite_eq_left_iff]
  constructor
  · intro pair
    by_contra some
    exact absurd (pair some) (List.cons_ne_nil _ _)
  · intro some other
    exact absurd some other

/-- What a specifier may name, whatever it is and wherever it is imported. Nothing, exactly if it is blank, a
plain CSS import or without a name behind its last slash. Otherwise two normal paths in one directory, which
is where the part before the last slash leads from the importer's; the first has the completed name, the
second the partial of it, and both have the ending of the dialect or of an enabled one. -/
theorem candidates_none_or_pair (cwd directory : Path) (dialect : Dialect) (enabled : List Dialect)
    (specifier : List Char) :
    (candidates cwd dialect enabled directory specifier = [] ↔
      Text.trim specifier = [] ∨
      (BeginsAs "//".toList (Text.trim specifier) ∨ BeginsAs "http://".toList (Text.trim specifier) ∨
        BeginsAs "https://".toList (Text.trim specifier) ∨ BeginsAs "url(".toList (Text.trim specifier) ∨
        EndsAs ".css".toList (Text.trim specifier)) ∨
      (Text.trim specifier).getLast? = some '/' ∨ (Text.trim specifier).getLast? = some '\\') ∧
    (candidates cwd dialect enabled directory specifier = [] ∨
      ∃ first second, candidates cwd dialect enabled directory specifier = [first, second] ∧
        Path.normalize cwd first = first ∧ Path.normalize cwd second = second ∧
        Path.directory first = Path.normalize cwd (folderOf directory specifier) ∧
        Path.directory second = Path.directory first ∧
        (splitLast first).2 = completed dialect enabled (fileOf specifier) ∧
        (splitLast second).2 = '_' :: (splitLast first).2 ∧
        ∃ known, (known = dialect ∨ known ∈ enabled) ∧ known.extension <:+ first ∧ known.extension <:+ second) := by
  constructor
  · rw [candidates_eq_nil_iff, isPlainCss_iff, fileOf_eq_nil_iff]
    constructor
    · intro some
      rcases some with blank | plain | blank | ends
      · exact Or.inl blank
      · exact Or.inr (Or.inl plain)
      · exact Or.inl blank
      · exact Or.inr (Or.inr ends)
    · intro some
      rcases some with blank | plain | ends
      · exact Or.inl blank
      · exact Or.inr (Or.inl plain)
      · exact Or.inr (Or.inr (Or.inr ends))
  · refine or_iff_not_imp_left.mpr fun some => ?_
    have legal := completed_legal dialect enabled (slash_not_mem_fileOf specifier)
    have legalPartial := partial_legal legal
    obtain ⟨known, followed, ends⟩ := withExtension_ending dialect enabled (fileOf specifier)
    rw [withExtension_eq] at ends
    have lasts (name : Name) (nameEnds : known.extension <:+ name) :
        known.extension <:+ Path.normalize cwd (Path.join (folderOf directory specifier) name) :=
      known.extension_normalize (nameEnds.trans (Path.suffix_join _ name))
    rw [candidates_eq_nil_iff] at some
    refine ⟨_, _, by rw [candidates_eq, if_neg some]; rfl, ?_, ?_, ?_, ?_, ?_, ?_, ?_⟩
    · exact (Path.normalize_eq_self_iff cwd _).mpr (Path.normalize_normal cwd _)
    · exact (Path.normalize_eq_self_iff cwd _).mpr (Path.normalize_normal cwd _)
    · exact candidate_directory cwd _ legal
    · rw [candidate_directory cwd _ legalPartial, candidate_directory cwd _ legal]
    · exact candidate_name cwd _ legal
    · rw [candidate_name cwd _ legalPartial, candidate_name cwd _ legal]
    · exact ⟨known, followed, lasts _ ends, lasts _ (ends.trans (List.suffix_cons _ _))⟩

example : candidates "/w".toList .scss [] "/w".toList "httpſ://x".toList = [] ∧
    candidates "/w".toList .scss [] "/w/v".toList " ..\\x ".toList = ["/w/x.scss".toList, "/w/_x.scss".toList] := by
  decide +kernel

end Import

end SheetReach
