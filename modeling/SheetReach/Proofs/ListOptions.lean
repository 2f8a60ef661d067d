import Mathlib.Data.List.Forall2
import SheetReach.CommandLine.Settings
import SheetReach.Proofs.Outcome
import SheetReach.Proofs.TextParts

/-! Options whose values are lists. A value is said to list items by what it is put together from: items with
any blanks around them, and any blank stretches, with commas between. Reading takes exactly such a value back to its
items, and an option that is used again goes on with its list, under either convention for glued values. -/
namespace SheetReach.CommandLine

/-- A text that can be an item: it is not empty, no comma divides it, and trimming leaves it as it is. -/
structure IsItem (text : List Char) : Prop where
  filled : text ≠ []
  undivided : ',' ∉ text
  trimmed : Text.trim text = text

/-- What can stand between commas, and for which items: blanks for none, or an item with blanks around it. -/
inductive Slot : List Char → List (List Char) → Prop where
  | gap (blanks : List Char) (blank : ∀ c ∈ blanks, Text.isBlank c = true) : Slot blanks []
  | padded (left item right : List Char) (proper : IsItem item)
      (blank : ∀ c ∈ left ++ right, Text.isBlank c = true) : Slot (left ++ (item ++ right)) [item]

/-- Texts stand for items, one text after the other. -/
def InOrder (stands : List Char → List (List Char) → Prop) (texts items : List (List Char)) : Prop :=
  ∃ groups, List.Forall₂ stands texts groups ∧ groups.flatten = items

/-- A value has items written in it in order, with commas between them. -/
def Lists (value : List Char) (items : List (List Char)) : Prop :=
  ∃ slots, value = Text.joinWith [','] slots ∧ InOrder Slot slots items

/-- Items are spread in order over values, some of which may hold none. -/
def Spread (items values : List (List Char)) : Prop :=
  InOrder Lists values items

section InOrder

variable {stands : List Char → List (List Char) → Prop} {itemsOf : List Char → List (List Char)}
  {texts items : List (List Char)}

theorem InOrder.flatMap_eq (inOrder : InOrder stands texts items)
    (each : ∀ text group, stands text group → itemsOf text = group) : texts.flatMap itemsOf = items := by
  obtain ⟨groups, related, rfl⟩ := inOrder
  induction related with
  | nil => rfl
  | cons first rest ih => rw [List.flatMap_cons, ih, each _ _ first, List.flatten_cons]

theorem inOrder_flatMap (each : ∀ text ∈ texts, stands text (itemsOf text)) :
    InOrder stands texts (texts.flatMap itemsOf) :=
  ⟨texts.map itemsOf, List.forall₂_map_right_iff.mpr (List.forall₂_same.mpr each), rfl⟩

end InOrder

/-! Reading a value. -/

theorem commaList_append (front back : List Char) :
    commaList (front ++ ',' :: back) = commaList front ++ commaList back := by
  rw [commaList, Text.splitAt_append, List.map_append, List.filter_append]
  rfl

theorem commaList_joinWith (slots : List (List Char)) :
    commaList (Text.joinWith [','] slots) = slots.flatMap commaList := by
  induction slots with
  | nil => rfl
  | cons first rest ih =>
    cases rest with
    | nil => simp [Text.joinWith]
    | cons second others =>
      rw [Text.joinWith_cons_cons, List.append_assoc, List.singleton_append, commaList_append, ih]
      rfl

theorem commaList_undivided {text : List Char} (undivided : ',' ∉ text) :
    commaList text = if Text.trim text = [] then [] else [Text.trim text] := by
  rw [commaList, Text.splitAt_of_not_mem ',' text undivided]
  split <;> simp [*]

theorem IsItem.ends {item : List Char} (proper : IsItem item) :
    item.head?.any Text.isBlank = false ∧ item.getLast?.any Text.isBlank = false := by
  obtain ⟨_, _, _, _, ends⟩ := (Text.trimBy_eq_iff proper.filled).mp proper.trimmed
  exact ends

theorem Slot.undivided {text : List Char} {group : List (List Char)} (slot : Slot text group) : ',' ∉ text := by
  have comma : Text.isBlank ',' ≠ true := by decide
  cases slot with
  | gap _ blank => exact fun member => comma (blank _ member)
  | padded left item right proper blank =>
    intro member
    rcases List.mem_append.mp member with early | later
    · exact comma (blank _ (List.mem_append_left right early))
    · rcases List.mem_append.mp later with inside | late
      · exact proper.undivided inside
      · exact comma (blank _ (List.mem_append_right left late))

theorem Slot.commaList_eq {text : List Char} {group : List (List Char)} (slot : Slot text group) :
    commaList text = group := by
  rw [commaList_undivided slot.undivided]
  cases slot with
  | gap _ blank => exact if_pos ((Text.trimBy_eq_nil_iff _ _).mpr blank)
  | padded left item right proper blank =>
    have trimmed : Text.trim (left ++ (item ++ right)) = item :=
      (Text.trimBy_eq_iff proper.filled).mpr ⟨left, right, rfl, blank, proper.ends⟩
    rw [trimmed, if_neg proper.filled]

theorem slot_commaList {text : List Char} (undivided : ',' ∉ text) : Slot text (commaList text) := by
  rw [commaList_undivided undivided]
  split
  next empty => exact .gap text ((Text.trimBy_eq_nil_iff _ _).mp empty)
  next filled =>
    generalize trimmed : Text.trim text = item at filled ⊢
    obtain ⟨left, right, rfl, blank, starts, ends⟩ := (Text.trimBy_eq_iff filled).mp trimmed
    have inside : ',' ∉ item := fun member =>
      undivided (List.mem_append_right left (List.mem_append_left right member))
    exact .padded left item right ⟨filled, inside, Text.trimBy_eq_self starts ends⟩ blank

theorem Lists.commaList_eq {value : List Char} {items : List (List Char)} (lists : Lists value items) :
    commaList value = items := by
  obtain ⟨slots, rfl, inOrder⟩ := lists
  rw [commaList_joinWith]
  exact inOrder.flatMap_eq fun _ _ slot => slot.commaList_eq

theorem lists_commaList (value : List Char) : Lists value (commaList value) := by
  have joined := Text.joinWith_splitAt ',' value
  refine ⟨Text.splitAt ',' value, joined.symm, ?_⟩
  have inOrder : InOrder Slot (Text.splitAt ',' value) ((Text.splitAt ',' value).flatMap commaList) :=
    inOrder_flatMap fun piece member => slot_commaList (Text.not_mem_of_mem_splitAt ',' value piece member)
  rwa [← commaList_joinWith, joined] at inOrder

theorem spread_iff (items values : List (List Char)) :
    Spread items values ↔ values.flatMap commaList = items := by
  constructor
  · intro spread
    exact spread.flatMap_eq fun _ _ lists => lists.commaList_eq
  · intro read
    rw [← read]
    exact inOrder_flatMap fun value _ => lists_commaList value

/-- Lists on the command line. Reading values one after the other gives some items exactly if the values have
these items spread over them in order, whatever blanks and empty stretches there are, and two values joined by a
comma read as the one and then the other. -/
theorem list_options_exact :
    (∀ items values, Spread items values ↔ values.flatMap commaList = items) ∧
      ∀ front back, commaList (front ++ ',' :: back) = commaList front ++ commaList back :=
  ⟨spread_iff, commaList_append⟩

/-! Reading the words of a command line. -/

namespace Word

/-- What words give, with the parameters it is for. A value is glued to its option or is the plain word behind
it, and one that is glued may count as none. -/
def gifts (convention : Convention) : List Word → List (Parameter × Option (List Char))
  | [] => []
  | .option spelling glued :: rest =>
    match Cluster.ofOption convention spelling glued, rest with
    | .ok ⟨_, .value last text⟩, _ => (last, convention.kept text) :: gifts convention rest
    | .ok ⟨_, .alone last⟩, .plain value :: _ =>
      if last.takesValue then (last, some value) :: gifts convention rest else gifts convention rest
    | _, _ => gifts convention rest
  | _ :: rest => gifts convention rest

/-- The values among gifts that a parameter gets. -/
def valuesFor (parameter : Parameter) (gifts : List (Parameter × Option (List Char))) : List (List Char) :=
  gifts.filterMap fun gift => if gift.1 = parameter then gift.2 else none

theorem valuesFor_append (parameter : Parameter) (front back : List (Parameter × Option (List Char))) :
    valuesFor parameter (front ++ back) = valuesFor parameter front ++ valuesFor parameter back :=
  List.filterMap_append

end Word

namespace Settings

/-- The lists have grown by the items of gifts, and entry points are asked for if they were before or a gift is
for them, be it without items. -/
structure Grown (before after : Settings) (gifts : List (Parameter × Option (List Char))) : Prop where
  exclude : after.exclude = before.exclude ++ (Word.valuesFor .exclude gifts).flatMap commaList
  entryPoints : after.entryPoints.getD [] =
    before.entryPoints.getD [] ++ (Word.valuesFor .entryPoints gifts).flatMap commaList
  asked : after.entryPoints.isSome = (before.entryPoints.isSome || gifts.any (·.1 = .entryPoints))

theorem Grown.of_same {before after : Settings} (exclude : after.exclude = before.exclude)
    (entryPoints : after.entryPoints = before.entryPoints) : Grown before after [] := by
  constructor <;> simp [exclude, entryPoints, Word.valuesFor]

theorem Grown.trans {before middle after : Settings} {early late : List (Parameter × Option (List Char))}
    (first : Grown before middle early) (second : Grown middle after late) :
    Grown before after (early ++ late) where
  exclude := by
    rw [second.exclude, first.exclude, Word.valuesFor_append, List.flatMap_append, List.append_assoc]
  entryPoints := by
    rw [second.entryPoints, first.entryPoints, Word.valuesFor_append, List.flatMap_append,
      List.append_assoc]
  asked := by rw [second.asked, first.asked, List.any_append, Bool.or_assoc]

theorem turnOn_grown {settings next : Settings} {parameter : Parameter}
    (turned : settings.turnOn parameter = .ok next) : Grown settings next [] := by
  cases parameter <;> cases turned <;> exact .of_same rfl rfl

theorem foldlM_turnOn_grown {settings next : Settings} {flags : List Parameter}
    (turned : flags.foldlM turnOn settings = .ok next) : Grown settings next [] := by
  induction flags generalizing settings with
  | nil =>
    cases turned
    exact .of_same rfl rfl
  | cons flag rest ih =>
    rw [List.foldlM_cons] at turned
    obtain ⟨middle, first, others⟩ := (Except.bind_eq_ok_iff _ _ _).mp turned
    exact (turnOn_grown first).trans (ih others)

theorem give_items (value : Option (List Char)) (parameter : Parameter) :
    give.items value = (Word.valuesFor parameter [(parameter, value)]).flatMap commaList := by
  cases value <;> simp [give.items, Word.valuesFor]

/-- A value for a parameter that is no list sets the path or the dialect at most. -/
theorem give_single {settings next : Settings} {value : Option (List Char)} {parameter : Parameter}
    (given : settings.give value parameter = .ok next)
    (single : parameter ≠ .entryPoints ∧ parameter ≠ .exclude) :
    ∃ path dialect, next = { settings with path := path, dialect := dialect } := by
  cases parameter with
  | entryPoints => exact absurd rfl single.1
  | exclude => exact absurd rfl single.2
  | path =>
    cases given
    exact ⟨value, settings.dialect, rfl⟩
  | dialect =>
    simp only [give] at given
    split at given
    next =>
      cases given
      exact ⟨settings.path, none, rfl⟩
    next =>
      split at given
      next dialect _ =>
        cases given
        exact ⟨settings.path, some dialect, rfl⟩
      next => cases given
  | _ =>
    cases given
    exact ⟨settings.path, settings.dialect, rfl⟩

theorem give_grown {settings next : Settings} {value : Option (List Char)} {parameter : Parameter}
    (given : settings.give value parameter = .ok next) : Grown settings next [(parameter, value)] := by
  by_cases entry : parameter = .entryPoints
  · subst entry
    cases given
    exact ⟨by simp [Word.valuesFor], congrArg _ (give_items value .entryPoints), by simp⟩
  by_cases exclusion : parameter = .exclude
  · subst exclusion
    cases given
    exact ⟨congrArg _ (give_items value .exclude), by simp [Word.valuesFor], by simp⟩
  obtain ⟨path, dialect, rfl⟩ := give_single given ⟨entry, exclusion⟩
  constructor <;> simp [entry, exclusion, Word.valuesFor]

/-- Every word that is gone through adds what it gives, and no word takes anything away. -/
theorem read_grown {convention : Convention} {settings final : Settings} {strays : List (List Char)}
    {words : List Word} (done : settings.read convention strays words = .ok final) :
    Grown settings final (Word.gifts convention words) := by
  have given {settings next : Settings} {flags : List Parameter} {last : Parameter}
      {value : Option (List Char)} (turned : (flags.foldlM turnOn settings >>= (·.give value last)) = .ok next) :
      Grown settings next [(last, value)] := by
    obtain ⟨middle, flagged, added⟩ := (Except.bind_eq_ok_iff _ _ _).mp turned
    exact (foldlM_turnOn_grown flagged).trans (give_grown added)
  fun_induction Settings.read convention settings strays words with
  | case1 settings strays clean =>
    cases done
    exact .of_same rfl rfl
  | case3 settings strays text rest ih => exact ih done
  | case4 settings strays text rest ih => exact ih done
  | case5 settings strays rest ih => exact ih done
  | case8 settings strays spelling glued rest flags text held next turned ih =>
    have told : Word.gifts convention (.option spelling glued :: rest) = Word.gifts convention rest := by
      simp [Word.gifts, held]
    rw [told]
    exact (foldlM_turnOn_grown turned).trans (ih done)
  | case10 settings strays spelling glued rest flags last value held next turned ih =>
    have told : Word.gifts convention (.option spelling glued :: rest) =
        [(last, convention.kept value)] ++ Word.gifts convention rest := by
      simp [Word.gifts, held]
    rw [told]
    exact (given turned).trans (ih done)
  | case12 settings strays spelling glued flags last held takes value rest next turned ih =>
    have told : Word.gifts convention (.option spelling glued :: .plain value :: rest) =
        [(last, some value)] ++ Word.gifts convention rest := by
      simp [Word.gifts, held, takes]
    rw [told]
    exact (given turned).trans (ih done)
  | case15 settings strays spelling glued rest flags last held takes next turned ih =>
    have told : Word.gifts convention (.option spelling glued :: rest) = Word.gifts convention rest := by
      cases rest with
      | nil => simp [Word.gifts, held]
      | cons word others => cases word <;> simp [Word.gifts, held, takes]
    obtain ⟨middle, flagged, lastOn⟩ := (Except.bind_eq_ok_iff _ _ _).mp turned
    rw [told]
    exact ((foldlM_turnOn_grown flagged).trans (turnOn_grown lastOn)).trans (ih done)
  | _ => cases done

theorem Grown.entryPoints_eq {settings : Settings} {gifts : List (Parameter × Option (List Char))}
    (grown : Grown {} settings gifts) :
    settings.entryPoints = if gifts.any (·.1 = .entryPoints) then
      some ((Word.valuesFor .entryPoints gifts).flatMap commaList) else none := by
  have asked : settings.entryPoints.isSome = gifts.any (·.1 = .entryPoints) := grown.asked
  have items : settings.entryPoints.getD [] = (Word.valuesFor .entryPoints gifts).flatMap commaList :=
    grown.entryPoints
  rw [← asked, ← items]
  cases settings.entryPoints <;> rfl

/-- On every command line that is understood, the exclusions and the entry points are what the values of their
options list one after the other. -/
theorem ofArguments_lists {convention : Convention} {arguments : List (List Char)} {settings : Settings}
    (parsed : ofArguments convention arguments = .ok settings) :
    ∃ words, Word.ofTexts arguments = .ok words ∧
      settings.exclude = (Word.valuesFor .exclude (Word.gifts convention words)).flatMap commaList ∧
      settings.entryPoints =
        if (Word.gifts convention words).any (·.1 = .entryPoints) then
          some ((Word.valuesFor .entryPoints (Word.gifts convention words)).flatMap commaList)
        else none := by
  unfold ofArguments at parsed
  split at parsed
  next => cases parsed
  next words told =>
    have grown := read_grown parsed
    exact ⟨words, told, grown.exclude, grown.entryPoints_eq⟩

-- The mark of plain words counts as a value under one convention only.
example : (ofArguments .strict ["-te=x,y".toList, "--exclude=--".toList]).toOption.map (·.exclude) =
      some ["=x".toList, "y".toList] ∧
    (ofArguments .lenient ["-te=x,y".toList, "--exclude=--".toList]).toOption.map (·.exclude) =
      some ["x".toList, "y".toList, "--".toList] := by
  decide +kernel

end Settings

end SheetReach.CommandLine
