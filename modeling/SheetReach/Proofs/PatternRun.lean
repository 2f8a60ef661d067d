import Mathlib.Data.List.Basic
import SheetReach.Pattern.Match
import SheetReach.Text.Split

/-! How a pattern runs over a text, told by the ends of the text. A loop over one kind of characters tries the
ends it can reach in order; most parts of a pattern decide at once which end they leave, and then nothing that
follows makes them try another way. A search cuts a text into the places where a pattern is found and the
characters between them. -/
namespace SheetReach.Pattern

def Cursor.before (text back : List Char) (groups : List (Nat × Nat × Nat)) : Cursor :=
  ⟨text.length - back.length, groups⟩

theorem drop_before {text back : List Char} (ends : back <:+ text) :
    text.drop (text.length - back.length) = back :=
  (List.suffix_iff_eq_drop.mp ends).symm

theorem getElem?_before {text back : List Char} (ends : back <:+ text) :
    text.toArray[text.length - back.length]? = back.head? := by
  rw [List.getElem?_toArray, ← List.head?_drop, drop_before ends]

theorem before_succ {text back : List Char} {c : Char} (ends : c :: back <:+ text) :
    text.length - (c :: back).length + 1 = text.length - back.length := by
  have length := ends.length_le
  simp only [List.length_cons] at length ⊢
  omega

/-! One character. -/

/-- The first character of a text if it is of a kind, and what follows it. -/
def one (kind : Char → Bool) : List Char → Option (List Char)
  | [] => none
  | c :: rest => if kind c then some rest else none

theorem one_suffix {kind : Char → Bool} {back after : List Char} (taken : one kind back = some after) :
    after <:+ back := by
  cases back with
  | nil => cases taken
  | cons c rest =>
    rw [one] at taken
    split at taken
    next => exact Option.some.inj taken ▸ List.suffix_cons c rest
    next => cases taken

/-- A part that takes one character of a kind. -/
def Single (text : List Char) (node : Node) (kind : Char → Bool) : Prop :=
  ∀ back groups rest, back <:+ text → node.run text.toArray (.before text back groups) rest =
    (one kind back).bind fun after => rest (.before text after groups)

theorem single_member (text : List Char) (comparison : Comparison) (negated : Bool) (members : List Member) :
    Single text (.member comparison negated members) (isMember comparison negated members) := by
  intro back groups rest ends
  rw [Node.run, Cursor.before, getElem?_before ends]
  cases back with
  | nil => rfl
  | cons c others =>
    simp only [List.head?_cons, before_succ ends, one]
    split <;> rfl

theorem single_any (text : List Char) (newlineToo : Bool) :
    Single text (.any newlineToo) (fun c => newlineToo || c ≠ '\n') := by
  intro back groups rest ends
  rw [Node.run, Cursor.before, getElem?_before ends]
  cases back with
  | nil => rfl
  | cons c others =>
    simp only [List.head?_cons, before_succ ends, one]
    split <;> rfl

theorem single_visible (text : List Char) : Single text (.any false) (· ≠ '\n') :=
  single_any text false

def Node.char (letter : Char) : Node :=
  .member {} false [.code letter.toNat]

theorem isMember_codes (negated : Bool) (letters : List Char) (c : Char) :
    isMember {} negated (letters.map fun letter => .code letter.toNat) c = (letters.contains c != negated) := by
  have same (letter : Char) : ([c.toNat].contains letter.toNat) = (letter == c) := by
    rw [Bool.eq_iff_iff]
    simp [Char.toNat_inj]
  simp only [isMember, List.any_map, Function.comp_def, Member.holds, Comparison.alike, Comparison.key,
    Bool.not_false, if_true, same, List.any_beq']

theorem single_char (text : List Char) (letter : Char) : Single text (.char letter) (· = letter) := by
  have kind : isMember {} false [.code letter.toNat] = (· = letter) := by
    funext c
    simpa [List.contains_cons] using isMember_codes false [letter] c
  exact kind ▸ single_member text {} false [.code letter.toNat]

def Node.blank : Node :=
  .member {} false [.category .space false]

theorem single_blank (text : List Char) : Single text .blank Text.isBlank := by
  have kind : isMember {} false [.category .space false] = Text.isBlank := by
    funext c
    simp [isMember, Member.holds, Comparison.key, Category.holds]
  exact kind ▸ single_member text {} false [.category .space false]

/-! Loops over one kind of characters. -/

/-- The answer at the first end that gives one, of the ends that a loop over a kind of characters can leave.
A lazy loop starts with the longest end, a greedy one with the shortest. -/
def ways (lazy : Bool) (kind : Char → Bool) (rest : List Char → Option Cursor) : List Char → Option Cursor
  | [] => rest []
  | c :: others =>
    let again := if kind c then ways lazy kind rest others else none
    if lazy then orElse (rest (c :: others)) fun _ => again else orElse again fun _ => rest (c :: others)

theorem ways_congr {lazy : Bool} {kind : Char → Bool} {rest other : List Char → Option Cursor}
    {back : List Char} (same : ∀ after, after <:+ back → rest after = other after) :
    ways lazy kind rest back = ways lazy kind other back := by
  induction back with
  | nil => exact same [] List.nil_suffix
  | cons c others ih =>
    have later := ih fun after ends => same after (ends.trans (List.suffix_cons c others))
    simp only [ways, later, same (c :: others) (List.suffix_refl _)]

@[simp] theorem orElse_none_left (second : Unit → Option Cursor) : orElse none second = second () := rfl

@[simp] theorem orElse_none_right (first : Option Cursor) : orElse first (fun _ => none) = first := by
  cases first <;> rfl

theorem further_succ (body : Cursor → Rest → Option Cursor) (lazy : Bool) (fuel : Nat) {started : Option Nat}
    {cursor : Cursor} (moved : started ≠ some cursor.index) (rest : Rest) :
    further body lazy (fuel + 1) none started cursor rest =
      if lazy then orElse (rest cursor) fun _ => body cursor fun next =>
        further body lazy fuel none (some cursor.index) next rest
      else orElse (body cursor fun next => further body lazy fuel none (some cursor.index) next rest)
        fun _ => rest cursor := by
  rw [further, if_neg (by simp [moved])]
  rfl

theorem further_single {text : List Char} {node : Node} {kind : Char → Bool} (single : Single text node kind)
    (lazy : Bool) (groups : List (Nat × Nat × Nat)) (rest : Rest) {back : List Char} (ends : back <:+ text)
    {fuel : Nat} (enough : back.length ≤ fuel) {started : Option Nat}
    (moved : started ≠ some (text.length - back.length)) :
    further (fun here next => node.run text.toArray here next) lazy fuel none started (.before text back groups)
      rest = ways lazy kind (fun after => rest (.before text after groups)) back := by
  -- The fuel counts characters, and each turn starts behind the one before it.
  induction back generalizing fuel started with
  | nil =>
    cases fuel with
    | zero => rfl
    | succ fuel =>
      rw [further_succ _ _ _ moved, single [] groups _ ends]
      simp [ways, one]
  | cons c others ih =>
    obtain ⟨fuel, rfl⟩ := Nat.exists_eq_succ_of_ne_zero (Nat.ne_of_gt (Nat.lt_of_lt_of_le (by simp) enough))
    have later : others <:+ text := (List.suffix_cons c others).trans ends
    have next := before_succ ends
    have again : further (fun here next => node.run text.toArray here next) lazy fuel none
        (some (text.length - (c :: others).length)) (.before text others groups) rest =
          ways lazy kind (fun after => rest (.before text after groups)) others :=
      ih later (by simpa using enough) (by simp only [ne_eq, Option.some.injEq]; omega)
    rw [further_succ _ _ _ moved, single (c :: others) groups _ ends, ways, one]
    by_cases inside : kind c = true
    · simp only [inside, if_true, Option.bind_some]
      rw [← again]
      rfl
    · simp [inside]

section Loop

variable {text : List Char} {node : Node} {kind : Char → Bool} (single : Single text node kind)
  (groups : List (Nat × Nat × Nat)) (rest : Rest) {back : List Char} (ends : back <:+ text)

include single ends

theorem run_greedy : (Node.loop .greedy 0 none node).run text.toArray (.before text back groups) rest =
    ways false kind (fun after => rest (.before text after groups)) back :=
  further_single single false groups rest ends (by have := ends.length_le; simp; omega) (by simp)

theorem run_lazy : (Node.loop .lazy 0 none node).run text.toArray (.before text back groups) rest =
    ways true kind (fun after => rest (.before text after groups)) back :=
  further_single single true groups rest ends (by have := ends.length_le; simp; omega) (by simp)

end Loop

theorem run_greedy_one (text : Array Char) (node : Node) (cursor : Cursor) (rest : Rest) :
    (Node.loop .greedy 1 none node).run text cursor rest =
      node.run text cursor fun next => (Node.loop .greedy 0 none node).run text next rest := rfl

theorem run_lazy_one (text : Array Char) (node : Node) (cursor : Cursor) (rest : Rest) :
    (Node.loop .lazy 1 none node).run text cursor rest =
      node.run text cursor fun next => (Node.loop .lazy 0 none node).run text next rest := rfl

/-- A loop that is left only where its kind of characters ends takes all of them. -/
theorem ways_greedy {kind : Char → Bool} {rest : List Char → Option Cursor}
    (stuck : ∀ c others, kind c = true → rest (c :: others) = none) (back : List Char) :
    ways false kind rest back = rest (back.dropWhile kind) := by
  induction back with
  | nil => rfl
  | cons c others ih =>
    by_cases inside : kind c = true
    · simp [ways, inside, ih, stuck c others inside]
    · simp [ways, inside]

/-! Parts that decide. -/

/-- Parts one after the other, then the rest. -/
def runAll (text : Array Char) : List Node → Cursor → Rest → Option Cursor
  | [], cursor, rest => rest cursor
  | node :: nodes, cursor, rest => node.run text cursor fun next => runAll text nodes next rest

theorem runAll_append (text : Array Char) (nodes others : List Node) (cursor : Cursor) (rest : Rest) :
    runAll text (nodes ++ others) cursor rest =
      runAll text nodes cursor fun next => runAll text others next rest := by
  induction nodes generalizing cursor with
  | nil => rfl
  | cons node nodes ih =>
    rw [List.cons_append, runAll, runAll]
    exact congrArg _ (funext ih)

def Node.ofParts : List Node → Node
  | [] => .empty
  | node :: nodes => nodes.foldl .sequence node

theorem run_ofParts (text : Array Char) (nodes : List Node) (cursor : Cursor) (rest : Rest) :
    (Node.ofParts nodes).run text cursor rest = runAll text nodes cursor rest := by
  cases nodes with
  | nil => rfl
  | cons node nodes =>
    rw [Node.ofParts, runAll]
    induction nodes generalizing node with
    | nil => rfl
    | cons second others ih => exact ih (.sequence node second)

/-- The parts leave the end that is read, or fail, whatever follows them. -/
structure Decides (text : List Char) (nodes : List Node) (read : List Char → Option (List Char)) : Prop where
  suffix : ∀ {back after}, read back = some after → after <:+ back
  run : ∀ {back} groups rest, back <:+ text → runAll text.toArray nodes (.before text back groups) rest =
    (read back).bind fun after => rest (.before text after groups)

namespace Decides

variable {text : List Char} {nodes others : List Node} {node : Node} {kind : Char → Bool}
  {read next : List Char → Option (List Char)}

theorem run_one (decides : Decides text [node] read) {back : List Char} (groups : List (Nat × Nat × Nat))
    (rest : Rest) (ends : back <:+ text) : node.run text.toArray (.before text back groups) rest =
      (read back).bind fun after => rest (.before text after groups) :=
  decides.run groups rest ends

theorem congr (decides : Decides text nodes read) (same : ∀ back, read back = next back) :
    Decides text nodes next :=
  funext same ▸ decides

theorem nil : Decides text [] some where
  suffix taken := Option.some.inj taken ▸ List.suffix_refl _
  run _ _ _ := rfl

theorem single (single : Single text node kind) (decides : Decides text nodes read) :
    Decides text (node :: nodes) fun back => (one kind back).bind read where
  suffix taken := by
    obtain ⟨middle, first, second⟩ := Option.bind_eq_some_iff.mp taken
    exact (decides.suffix second).trans (one_suffix first)
  run {back} groups rest ends := by
    rw [runAll, single back groups _ ends, Option.bind_assoc]
    refine Option.bind_congr fun after taken => ?_
    exact decides.run groups rest ((one_suffix taken).trans ends)

theorem ofParts (first : Decides text nodes read) (second : Decides text others next) :
    Decides text (.ofParts nodes :: others) fun back => (read back).bind next where
  suffix taken := by
    obtain ⟨middle, early, late⟩ := Option.bind_eq_some_iff.mp taken
    exact (second.suffix late).trans (first.suffix early)
  run {back} groups rest ends := by
    rw [runAll, run_ofParts, first.run groups _ ends, Option.bind_assoc]
    refine Option.bind_congr fun after taken => ?_
    exact second.run groups rest ((first.suffix taken).trans ends)

/-- A loop over a kind of characters before parts that cannot start with one of them. -/
theorem greedy (single : Single text node kind) (decides : Decides text nodes read)
    (apart : ∀ c rest, kind c = true → read (c :: rest) = none) :
    Decides text (.loop .greedy 0 none node :: nodes) fun back => read (back.dropWhile kind) where
  suffix taken := (decides.suffix taken).trans (List.dropWhile_suffix kind)
  run {back} groups rest ends := by
    rw [runAll, run_greedy single groups _ ends,
      ways_congr fun after within => decides.run groups rest (within.trans ends)]
    exact ways_greedy (fun c others inside => by rw [apart c others inside]; rfl) back

/-- Two parts of which at most one can go on. -/
theorem choice {first second : Node} (one : Decides text [first] read) (other : Decides text [second] next)
    (apart : ∀ back, (read back).isSome = true → next back = none) :
    Decides text [.choice first second] fun back => (read back).or (next back) where
  suffix taken := by
    rcases Option.or_eq_some_iff.mp taken with early | ⟨-, late⟩
    · exact one.suffix early
    · exact other.suffix late
  run {back} groups rest ends := by
    rw [runAll, Node.run]
    simp only [runAll]
    rw [one.run_one groups rest ends, other.run_one groups rest ends]
    cases taken : read back with
    | none => simp
    | some after =>
      rw [apart back (by simp [taken])]
      simp

/-- The end of a line takes nothing. -/
theorem lineEnd (plain : Bool) : Decides text [.anchor .lineEnd plain] fun back =>
    if back.head?.all (· = '\n') then some back else none where
  suffix taken := by
    split at taken
    next => exact Option.some.inj taken ▸ List.suffix_refl _
    next => cases taken
  run {back} groups rest ends := by
    have holds : Anchor.holds text.toArray plain (text.length - back.length) .lineEnd =
        back.head?.all (· = '\n') := by
      have length := ends.length_le
      rw [Anchor.holds, getElem?_before ends, List.size_toArray]
      cases back with
      | nil => simp
      | cons c others =>
        simp only [List.length_cons] at length
        have short : ¬ text.length - (others.length + 1) = text.length := by omega
        simp [short]
    rw [runAll, Node.run]
    simp only [Cursor.before, holds, runAll]
    split <;> rfl

/-- Anything up to the end of the line. -/
theorem restOfLine (plain : Bool) :
    Decides text [.loop .greedy 0 none (.any false), .anchor .lineEnd plain] fun back =>
      some (back.dropWhile (· ≠ '\n')) := by
  refine ((lineEnd plain).greedy (single_visible text) (by simp)).congr fun back => ?_
  have ended : (back.dropWhile (· ≠ '\n')).head?.all (· = '\n') = true := by
    rw [Option.all_eq_true]
    intro c first
    have stopped := List.head?_dropWhile_not (· ≠ '\n') back
    rw [first] at stopped
    simpa using stopped
  simp only [ended, if_true]

/-- The given word. -/
theorem literal (decides : Decides text nodes read) (word : List Char) :
    Decides text (word.map .char ++ nodes) fun back => (Text.afterPrefix? word back).bind read := by
  induction word with
  | nil => exact decides
  | cons letter word ih =>
    refine (single (single_char text letter) ih).congr fun back => ?_
    cases back with
    | nil => rfl
    | cons c rest => by_cases starts : c = letter <;> simp [one, Text.afterPrefix?, starts]

end Decides

/-- A line starts behind this text. -/
def startsLine (front : List Char) : Bool :=
  front.getLast?.all (· = '\n')

theorem startsLine_concat (front : List Char) (c : Char) : startsLine (front ++ [c]) = decide (c = '\n') := by
  simp [startsLine]

theorem startsLine_append (front : List Char) {line : List Char} (filled : line ≠ []) (oneLine : '\n' ∉ line) :
    startsLine (front ++ line) = false := by
  obtain ⟨others, last, rfl⟩ := (List.eq_nil_or_concat' line).resolve_left filled
  rw [← List.append_assoc, startsLine_concat]
  exact decide_eq_false fun newline => oneLine (by simp [newline])

theorem run_lineStart (front back : List Char) (plain : Bool) (groups : List (Nat × Nat × Nat)) (rest : Rest) :
    (Node.anchor .lineStart plain).run (front ++ back).toArray (.before (front ++ back) back groups) rest =
      if startsLine front then rest (.before (front ++ back) back groups) else none := by
  have holds : Anchor.holds (front ++ back).toArray plain ((front ++ back).length - back.length) .lineStart =
      startsLine front := by
    rw [Anchor.holds, List.length_append, Nat.add_sub_cancel, List.getElem?_toArray]
    rcases List.eq_nil_or_concat' front with rfl | ⟨others, c, rfl⟩
    · rfl
    · simp [startsLine_concat]
  rw [Node.run]
  simp only [Cursor.before, holds]

/-! Searching a text. -/

def stretch (text : List Char) (start stop : Nat) : List Char :=
  (text.drop start).take (stop - start)

/-- A place where a pattern is found: where it starts, and the cursor at its end. -/
structure Found where
  start : Nat
  cursor : Cursor

namespace Found

def whole (found : Found) (text : List Char) : List Char :=
  stretch text found.start found.cursor.index

/-- The text of a group, empty if the group is not filled. -/
def group (found : Found) (text : List Char) (number : Nat) : List Char :=
  match found.cursor.extent? number with
  | some (start, stop) => stretch text start stop
  | none => []

end Found

/-- A text cut by a pattern into places where it is found, from the left, and characters between them. The
number says how many characters of such a place are left to pass. -/
def Node.cutFrom (node : Node) (text : List Char) : Nat → List Char → List (Char ⊕ Found)
  | _, [] => []
  | left + 1, _ :: rest => node.cutFrom text left rest
  | 0, c :: rest =>
    let start := text.length - (c :: rest).length
    match node.run text.toArray ⟨start, []⟩ some with
    | some cursor => .inr ⟨start, cursor⟩ :: node.cutFrom text (cursor.index - (start + 1)) rest
    | none => .inl c :: node.cutFrom text 0 rest

def Node.findAll (node : Node) (text : List Char) : List Found :=
  (node.cutFrom text 0 text).filterMap Sum.getRight?

/-- The text with something else at each place where a pattern is found. -/
def Node.replace (node : Node) (other : Found → List Char) (text : List Char) : List Char :=
  (node.cutFrom text 0 text).flatMap (Sum.elim ([·]) other)

theorem stretch_before {text passed after : List Char} (ends : passed ++ after <:+ text) :
    stretch text (text.length - (passed ++ after).length) (text.length - after.length) = passed := by
  have length := ends.length_le
  rw [List.length_append] at length
  have taken : text.length - after.length - (text.length - (passed ++ after).length) = passed.length := by
    rw [List.length_append]
    omega
  rw [stretch, drop_before ends, taken, List.take_left]

section Cut

variable {node : Node} {text : List Char}

theorem cutFrom_length (passed rest : List Char) :
    node.cutFrom text passed.length (passed ++ rest) = node.cutFrom text 0 rest := by
  induction passed with
  | nil => rfl
  | cons c passed ih => exact ih

theorem cutFrom_of_none {c : Char} {rest : List Char}
    (fails : node.run text.toArray (.before text (c :: rest) []) some = none) :
    node.cutFrom text 0 (c :: rest) = .inl c :: node.cutFrom text 0 rest := by
  rw [Cursor.before] at fails
  simp only [Node.cutFrom, fails]

/-- The search goes on right behind a place where the pattern is found. -/
theorem cutFrom_of_some {passed after : List Char} (filled : passed ≠ []) (ends : passed ++ after <:+ text)
    {groups : List (Nat × Nat × Nat)}
    (finds : node.run text.toArray (.before text (passed ++ after) []) some = some (.before text after groups)) :
    node.cutFrom text 0 (passed ++ after) =
      .inr ⟨text.length - (passed ++ after).length, .before text after groups⟩ :: node.cutFrom text 0 after := by
  obtain ⟨c, others, rfl⟩ := List.exists_cons_of_ne_nil filled
  have length := ends.length_le
  have left : text.length - after.length - (text.length - (c :: (others ++ after)).length + 1) =
      others.length := by
    simp only [List.cons_append, List.length_cons, List.length_append] at length ⊢
    omega
  simp only [Cursor.before, List.cons_append] at finds ⊢
  simp only [Node.cutFrom, finds, left, cutFrom_length]

end Cut

/-- What holds of an end of a text, given what stands before it, may be shown from what holds of all shorter
ends. -/
theorem ends_induction {source : List Char} {motive : List Char → List Char → Prop} (last : motive source [])
    (step : ∀ front c rest, front ++ c :: rest = source → (∀ passed after, passed ≠ [] →
      c :: rest = passed ++ after → motive (front ++ passed) after) → motive front (c :: rest)) :
    motive [] source := by
  have all : ∀ front back, front ++ back = source → motive front back := by
    intro front back whole
    induction length : back.length using Nat.strongRecOn generalizing front back with
    | ind size ih =>
      cases back with
      | nil => rwa [← whole, List.append_nil] at last
      | cons c rest =>
        refine step front c rest whole fun passed after filled same => ?_
        have shorter : after.length < size := by
          rw [← length, same, List.length_append]
          exact Nat.lt_add_of_pos_left (List.length_pos_of_ne_nil filled)
        exact ih after.length shorter (front ++ passed) after (by rw [List.append_assoc, ← same, whole]) rfl
  exact all [] source rfl

end SheetReach.Pattern
