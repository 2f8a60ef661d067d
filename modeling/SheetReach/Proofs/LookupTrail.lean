import Mathlib.Data.List.Basic
import SheetReach.Proofs.PathForm
import SheetReach.Workspace

/-! The entries that looking up a path passes. A look-up depends on no other entry, and it misses as soon
as one of them is taken out of the tree. -/
namespace SheetReach.FileTree

/-- The locations that taking steps from a directory asks about; `onLink` gives those that come after a
followed link. -/
def passSteps (tree : FileTree) (follow : Bool) (onLink : Location → Path → List Name → List Location) :
    Location → List Name → List Location
  | _, [] => []
  | base, name :: rest =>
    if name = Path.here then passSteps tree follow onLink base rest
    else if name = Path.up then passSteps tree follow onLink base.tail rest
    else if nameLimit < Text.byteLength name then []
    else (name :: base) :: match tree.find? (name :: base) with
      | some .directory => passSteps tree follow onLink (name :: base) rest
      | some (.link target) => if rest.isEmpty && !follow then [] else onLink base target rest
      | _ => []

/-- The locations that taking steps asks about, with so many links still allowed. -/
def passLinks (tree : FileTree) (follow : Bool) : Nat → Location → List Name → List Location
  | 0 => tree.passSteps follow fun _ _ _ => []
  | links + 1 => tree.passSteps follow fun base target rest =>
      passLinks tree follow links (origin base target) (steps target ++ rest)

/-- The locations that looking up a path asks about, links and the end of the path included. -/
def passed (tree : FileTree) (cwd : Location) (follow : Bool) (path : Path) : List Location :=
  if path.isEmpty then []
  else if pathLimit ≤ Text.byteLength path then []
  else tree.passLinks follow linkLimit (origin cwd path) (steps path)

/-- A tree with nothing new in it and maybe some entries taken out. -/
def Thinned (before after : FileTree) : Prop :=
  ∀ location, after.find? location = before.find? location ∨ after.find? location = none

/-- How two look-ups in a tree and a thinner one compare: they end alike and all that was passed is still
there, or the second one misses an entry that was passed and taken out. -/
def KeptOrCut (before after : FileTree) (trail : List Location) (old new : Except Fault Place) : Prop :=
  (new = old ∧ ∀ location ∈ trail, after.find? location = before.find? location) ∨
    (new = .error .missing ∧ ∃ location ∈ trail, after.find? location ≠ before.find? location)

theorem KeptOrCut.cons {before after : FileTree} {trail : List Location} {old new : Except Fault Place}
    (rest : KeptOrCut before after trail old new) (location : Location)
    (same : after.find? location = before.find? location) :
    KeptOrCut before after (location :: trail) old new := by
  rcases rest with ⟨equal, kept⟩ | ⟨missing, other, member, gone⟩
  · left
    refine ⟨equal, fun place member => ?_⟩
    rcases List.mem_cons.mp member with rfl | later
    · exact same
    · exact kept place later
  · exact Or.inr ⟨missing, other, List.mem_cons_of_mem _ member, gone⟩

theorem takeSteps_thinned {before after : FileTree} (thinned : Thinned before after) (follow : Bool)
    (oldLink newLink : Location → Path → List Name → Except Fault Place)
    (trail : Location → Path → List Name → List Location)
    (links : ∀ base target rest, KeptOrCut before after (trail base target rest)
      (oldLink base target rest) (newLink base target rest))
    (base : Location) (names : List Name) :
    KeptOrCut before after (before.passSteps follow trail base names)
      (before.takeSteps follow oldLink base names) (after.takeSteps follow newLink base names) := by
  induction names generalizing base with
  | nil => exact Or.inl ⟨rfl, by simp [passSteps]⟩
  | cons name rest ih =>
    by_cases here : name = Path.here
    · simpa only [passSteps, takeSteps, if_pos here] using ih base
    by_cases up : name = Path.up
    · simpa only [passSteps, takeSteps, if_neg here, if_pos up] using ih base.tail
    by_cases long : nameLimit < Text.byteLength name
    · simp only [passSteps, takeSteps, if_neg here, if_neg up, if_pos long]
      exact Or.inl ⟨rfl, by simp⟩
    simp only [passSteps, takeSteps, if_neg here, if_neg up, if_neg long]
    -- The entry asked about is the same in both trees, or it is the one that is missed.
    rcases thinned (name :: base) with same | gone
    · rw [same]
      cases found : before.find? (name :: base) with
      | none => exact Or.inl ⟨rfl, by simp [same]⟩
      | some entry =>
        cases entry with
        | file content =>
          exact Or.inl ⟨rfl, by simp [same]⟩
        | directory => exact (ih (name :: base)).cons _ same
        | link target =>
          by_cases last : (rest.isEmpty && !follow) = true
          · simp only [if_pos last]
            exact Or.inl ⟨rfl, by simp [same]⟩
          · simp only [if_neg last]
            exact (links base target rest).cons _ same
    · by_cases absent : before.find? (name :: base) = none
      · simp only [absent, gone]
        exact Or.inl ⟨by rfl, by simp [absent, gone]⟩
      · right
        refine ⟨by simp only [gone], name :: base, List.mem_cons_self, ?_⟩
        rw [gone]
        exact Ne.symm absent

theorem chase_thinned {before after : FileTree} (thinned : Thinned before after) (follow : Bool)
    (links : Nat) (base : Location) (names : List Name) :
    KeptOrCut before after (before.passLinks follow links base names)
      (before.chase follow links base names) (after.chase follow links base names) := by
  induction links generalizing base names with
  | zero =>
    exact takeSteps_thinned thinned follow _ _ _ (fun _ _ _ => Or.inl ⟨rfl, by simp⟩) base names
  | succ links ih =>
    exact takeSteps_thinned thinned follow _ _ _ (fun _ _ _ => ih _ _) base names

theorem locate_thinned {before after : FileTree} (thinned : Thinned before after) (cwd : Location)
    (follow : Bool) (path : Path) :
    KeptOrCut before after (before.passed cwd follow path) (before.locate cwd follow path)
      (after.locate cwd follow path) := by
  unfold passed locate
  by_cases empty : path.isEmpty = true
  · simp only [if_pos empty]
    exact Or.inl ⟨rfl, by simp⟩
  by_cases long : pathLimit ≤ Text.byteLength path
  · simp only [if_neg empty, if_pos long]
    exact Or.inl ⟨rfl, by simp⟩
  simp only [if_neg empty, if_neg long]
  exact chase_thinned thinned follow linkLimit _ _

theorem takeSteps_find? {tree : FileTree} (follow : Bool)
    (onLink : Location → Path → List Name → Except Fault Place)
    (links : ∀ base target rest place, onLink base target rest = .ok place →
      place.entry = .directory ∨ tree.find? place.location = some place.entry)
    (base : Location) (names : List Name) (place : Place)
    (ends : tree.takeSteps follow onLink base names = .ok place) :
    place.entry = .directory ∨ tree.find? place.location = some place.entry := by
  induction names generalizing base with
  | nil =>
    cases ends
    exact Or.inl rfl
  | cons name rest ih =>
    unfold takeSteps at ends
    split at ends
    next => exact ih base ends
    next =>
      split at ends
      next => exact ih base.tail ends
      next =>
        split at ends
        next => cases ends
        next =>
          split at ends
          next => cases ends
          next => exact ih _ ends
          next content found =>
            split at ends
            next =>
              cases ends
              exact Or.inr found
            next => cases ends
          next target found =>
            split at ends
            next =>
              cases ends
              exact Or.inr found
            next => exact links _ _ _ _ ends

theorem chase_find? {tree : FileTree} (follow : Bool) (links : Nat) (base : Location) (names : List Name)
    (place : Place) (ends : tree.chase follow links base names = .ok place) :
    place.entry = .directory ∨ tree.find? place.location = some place.entry := by
  induction links generalizing base names place with
  | zero => exact takeSteps_find? follow _ (fun _ _ _ _ impossible => by cases impossible) base names place ends
  | succ links ih => exact takeSteps_find? follow _ (fun _ _ _ _ inner => ih _ _ _ inner) base names place ends

/-- What a look-up ends at stands there; a directory may be the one it started from. -/
theorem locate_find? {tree : FileTree} {cwd : Location} {follow : Bool} {path : Path} {place : Place}
    (ends : tree.locate cwd follow path = .ok place) :
    place.entry = .directory ∨ tree.find? place.location = some place.entry := by
  unfold locate at ends
  split at ends
  next => cases ends
  next =>
    split at ends
    next => cases ends
    next => exact chase_find? follow _ _ _ place ends

/-! Look-ups end at the first file they pass, or are stopped by it. -/

theorem takeSteps_file {tree : FileTree} (follow : Bool)
    (onLink : Location → Path → List Name → Except Fault Place)
    (trail : Location → Path → List Name → List Location) (location : Location) (content : Content)
    (links : ∀ base target rest, location ∈ trail base target rest →
      onLink base target rest = .ok ⟨location, .file content⟩ ∨
        onLink base target rest = .error .notDirectory)
    (base : Location) (names : List Name) (member : location ∈ tree.passSteps follow trail base names)
    (found : tree.find? location = some (.file content)) :
    tree.takeSteps follow onLink base names = .ok ⟨location, .file content⟩ ∨
      tree.takeSteps follow onLink base names = .error .notDirectory := by
  induction names generalizing base with
  | nil => simp [passSteps] at member
  | cons name rest ih =>
    by_cases here : name = Path.here
    · simp only [passSteps, if_pos here] at member
      simpa only [takeSteps, if_pos here] using ih base member
    by_cases up : name = Path.up
    · simp only [passSteps, if_neg here, if_pos up] at member
      simpa only [takeSteps, if_neg here, if_pos up] using ih base.tail member
    by_cases long : nameLimit < Text.byteLength name
    · simp [passSteps, if_neg here, if_neg up, if_pos long] at member
    simp only [passSteps, if_neg here, if_neg up, if_neg long] at member
    simp only [takeSteps, if_neg here, if_neg up, if_neg long]
    rcases List.mem_cons.mp member with rfl | later
    · simp only [found]
      by_cases last : rest.isEmpty = true
      · exact Or.inl (by simp [last])
      · exact Or.inr (by simp [last])
    · cases entry : tree.find? (name :: base) with
      | none => simp [entry] at later
      | some kind =>
        cases kind with
        | file other => simp [entry] at later
        | directory =>
          simp only [entry] at later ⊢
          exact ih _ later
        | link target =>
          simp only [entry] at later ⊢
          split at later
          next => cases later
          next goes =>
            rw [if_neg goes]
            exact links base target rest later

theorem chase_file {tree : FileTree} (follow : Bool) (location : Location) (content : Content)
    (found : tree.find? location = some (.file content)) (links : Nat) (base : Location)
    (names : List Name) (member : location ∈ tree.passLinks follow links base names) :
    tree.chase follow links base names = .ok ⟨location, .file content⟩ ∨
      tree.chase follow links base names = .error .notDirectory := by
  induction links generalizing base names with
  | zero =>
    exact takeSteps_file follow _ _ location content (fun _ _ _ inside => by cases inside) base names
      member found
  | succ links ih =>
    exact takeSteps_file follow _ _ location content (fun _ _ _ inside => ih _ _ inside) base names
      member found

theorem locate_file {tree : FileTree} (cwd : Location) (follow : Bool) (path : Path)
    (location : Location) (content : Content) (member : location ∈ tree.passed cwd follow path)
    (found : tree.find? location = some (.file content)) :
    tree.locate cwd follow path = .ok ⟨location, .file content⟩ ∨
      tree.locate cwd follow path = .error .notDirectory := by
  unfold passed at member
  unfold locate
  by_cases empty : path.isEmpty = true
  · rw [if_pos empty] at member
    cases member
  by_cases long : pathLimit ≤ Text.byteLength path
  · rw [if_neg empty, if_pos long] at member
    cases member
  simp only [if_neg empty, if_neg long] at member ⊢
  exact chase_file follow location content found _ _ _ member

/-! Whether a link in last place is followed matters only where there is one. -/

theorem takeSteps_follow_cases {tree : FileTree}
    (onLink : Bool → Location → Path → List Name → Except Fault Place)
    (links : ∀ base target rest,
      (∃ location other, onLink false base target rest = .ok ⟨location, .link other⟩) ∨
        onLink true base target rest = onLink false base target rest)
    (base : Location) (names : List Name) :
    (∃ location other,
      tree.takeSteps false (onLink false) base names = .ok ⟨location, .link other⟩) ∨
      tree.takeSteps true (onLink true) base names = tree.takeSteps false (onLink false) base names := by
  induction names generalizing base with
  | nil => exact Or.inr rfl
  | cons name rest ih =>
    by_cases here : name = Path.here
    · simpa only [takeSteps, if_pos here] using ih base
    by_cases up : name = Path.up
    · simpa only [takeSteps, if_neg here, if_pos up] using ih base.tail
    by_cases long : nameLimit < Text.byteLength name
    · exact Or.inr (by simp only [takeSteps, if_neg here, if_neg up, if_pos long])
    simp only [takeSteps, if_neg here, if_neg up, if_neg long]
    cases entry : tree.find? (name :: base) with
    | none => exact Or.inr rfl
    | some kind =>
      cases kind with
      | file content => exact Or.inr rfl
      | directory => exact ih (name :: base)
      | link target =>
        by_cases last : rest.isEmpty = true
        · exact Or.inl ⟨name :: base, target, by simp [last]⟩
        · simpa [last] using links base target rest

theorem chase_follow_cases {tree : FileTree} (links : Nat) (base : Location) (names : List Name) :
    (∃ location other, tree.chase false links base names = .ok ⟨location, .link other⟩) ∨
      tree.chase true links base names = tree.chase false links base names := by
  induction links generalizing base names with
  | zero =>
    exact takeSteps_follow_cases (fun _ _ _ _ => .error .linkLoop) (fun _ _ _ => Or.inr rfl) base names
  | succ links ih =>
    exact takeSteps_follow_cases
      (fun follow base target rest => tree.chase follow links (origin base target) (steps target ++ rest))
      (fun _ _ _ => ih _ _) base names

/-- Unless a path names a link, following links at its end changes nothing. -/
theorem locate_follow_cases (tree : FileTree) (cwd : Location) (path : Path) :
    (∃ location target, tree.locate cwd false path = .ok ⟨location, .link target⟩) ∨
      tree.locate cwd true path = tree.locate cwd false path := by
  unfold locate
  split
  next => exact Or.inr rfl
  next =>
    split
    next => exact Or.inr rfl
    next => exact chase_follow_cases linkLimit _ _

theorem locate_unfollowed {tree : FileTree} {cwd : Location} {path : Path} {place : Place}
    (ends : tree.locate cwd true path = .ok place) : ∃ other, tree.locate cwd false path = .ok other := by
  rcases tree.locate_follow_cases cwd path with ⟨location, target, link⟩ | same
  · exact ⟨_, link⟩
  · exact ⟨place, same ▸ ends⟩

theorem locate_followed {tree : FileTree} {cwd : Location} {path : Path} {place : Place}
    (ends : tree.locate cwd false path = .ok place) (still : ∀ target, place.entry ≠ .link target) :
    tree.locate cwd true path = .ok place := by
  rcases tree.locate_follow_cases cwd path with ⟨location, target, link⟩ | same
  · rw [link] at ends
    cases ends
    exact absurd rfl (still target)
  · rw [same, ends]

/-! Look-ups that meet no link. -/

/-- None of these locations holds a link. -/
def LinkFree (tree : FileTree) (trail : List Location) : Prop :=
  ∀ location ∈ trail, ∀ target, tree.find? location ≠ some (.link target)

instance (tree : FileTree) (trail : List Location) : Decidable (tree.LinkFree trail) :=
  decidable_of_iff (∀ location ∈ trail, (match tree.find? location with
    | some (.link _) => false
    | _ => true) = true) (by
    refine forall₂_congr fun location _ => ?_
    cases tree.find? location with
    | none => simp
    | some entry => cases entry <;> simp)

/-- A place where a link-free look-up ends is spelled by the names that led there, and every place on
the way is a directory. -/
theorem takeSteps_place {tree : FileTree} (follow : Bool)
    (onLink : Location → Path → List Name → Except Fault Place)
    (trail : Location → Path → List Name → List Location) (base : Location) (names : List Name)
    (legal : ∀ name ∈ names, Path.Legal name)
    (free : tree.LinkFree (tree.passSteps follow trail base names)) (place : Place)
    (ends : tree.takeSteps follow onLink base names = .ok place) :
    place.location = names.reverse ++ base ∧
      ∀ location ∈ tree.passSteps follow trail base names,
        location = place.location ∨ tree.find? location = some .directory := by
  induction names generalizing base with
  | nil =>
    simp only [takeSteps, Except.ok.injEq] at ends
    subst ends
    exact ⟨rfl, by simp [passSteps]⟩
  | cons name rest ih =>
    have legalName := legal name List.mem_cons_self
    by_cases long : nameLimit < Text.byteLength name
    · simp [takeSteps, legalName.notHere, legalName.notUp, if_pos long] at ends
    simp only [passSteps, if_neg legalName.notHere, if_neg legalName.notUp, if_neg long] at free ⊢
    simp only [takeSteps, if_neg legalName.notHere, if_neg legalName.notUp, if_neg long] at ends
    cases entry : tree.find? (name :: base) with
    | none =>
      rw [entry] at ends
      cases ends
    | some kind =>
      cases kind with
      | link target => exact absurd entry (free _ List.mem_cons_self target)
      | file content =>
        simp only [entry] at ends
        by_cases last : rest.isEmpty = true
        · simp only [if_pos last, Except.ok.injEq] at ends
          subst ends
          simp [List.isEmpty_iff.mp last]
        · rw [if_neg last] at ends
          cases ends
      | directory =>
        simp only [entry] at free ends ⊢
        obtain ⟨spelled, inner⟩ := ih (name :: base)
          (fun other member => legal other (List.mem_cons_of_mem _ member))
          (fun location inside => free location (List.mem_cons_of_mem _ inside)) ends
        refine ⟨by simp [spelled], fun location member => ?_⟩
        rcases List.mem_cons.mp member with rfl | later
        · exact Or.inr entry
        · exact inner location later

/-! A look-up that ends at a directory goes on from there. -/

theorem takeSteps_append {tree : FileTree} (links : Nat)
    (oldLink : Location → Path → List Name → Except Fault Place)
    (newLink : Bool → Location → Path → List Name → Except Fault Place)
    (unfolds : ∀ follow base names,
      tree.chase follow links base names = tree.takeSteps follow (newLink follow) base names)
    (continues : ∀ base target rest place, oldLink base target rest = .ok ⟨place, .directory⟩ →
      ∃ left, ∀ follow more, more ≠ [] →
        newLink follow base target (rest ++ more) = tree.chase follow left place more)
    (base : Location) (names : List Name) (place : Location)
    (ends : tree.takeSteps true oldLink base names = .ok ⟨place, .directory⟩) :
    ∃ left, ∀ follow more, more ≠ [] →
      tree.takeSteps follow (newLink follow) base (names ++ more) = tree.chase follow left place more := by
  induction names generalizing base with
  | nil =>
    simp only [takeSteps, Except.ok.injEq, Place.mk.injEq, and_true] at ends
    subst ends
    exact ⟨links, fun follow more _ => (unfolds follow base more).symm⟩
  | cons name rest ih =>
    simp only [List.cons_append]
    by_cases here : name = Path.here
    · simp only [takeSteps, if_pos here] at ends ⊢
      exact ih base ends
    by_cases up : name = Path.up
    · simp only [takeSteps, if_neg here, if_pos up] at ends ⊢
      exact ih base.tail ends
    by_cases long : nameLimit < Text.byteLength name
    · simp [takeSteps, if_neg here, if_neg up, if_pos long] at ends
    simp only [takeSteps, if_neg here, if_neg up, if_neg long] at ends ⊢
    cases entry : tree.find? (name :: base) with
    | none =>
      rw [entry] at ends
      cases ends
    | some kind =>
      cases kind with
      | file content =>
        simp only [entry] at ends
        split at ends <;> cases ends
      | directory =>
        simp only [entry] at ends ⊢
        exact ih (name :: base) ends
      | link target =>
        simp only [entry, Bool.not_true, Bool.and_false, Bool.false_eq_true, ↓reduceIte] at ends ⊢
        obtain ⟨left, goes⟩ := continues base target rest place ends
        refine ⟨left, fun follow more filled => ?_⟩
        have unended : ((rest ++ more).isEmpty && !follow) = false := by simp [filled]
        rw [unended, if_neg Bool.false_ne_true]
        exact goes follow more filled

theorem chase_append {tree : FileTree} (links : Nat) (base : Location) (names : List Name)
    (place : Location) (ends : tree.chase true links base names = .ok ⟨place, .directory⟩) :
    ∃ left, ∀ follow more, more ≠ [] →
      tree.chase follow links base (names ++ more) = tree.chase follow left place more := by
  induction links generalizing base names place with
  | zero =>
    exact takeSteps_append 0 _ (fun _ _ _ _ => .error .linkLoop) (fun _ _ _ => rfl)
      (fun _ _ _ _ impossible => by cases impossible) base names place ends
  | succ links ih =>
    refine takeSteps_append (links + 1) _
      (fun follow base target rest => tree.chase follow links (origin base target) (steps target ++ rest))
      (fun _ _ _ => rfl) (fun base target rest place inner => ?_) base names place ends
    obtain ⟨left, goes⟩ := ih _ _ place inner
    exact ⟨left, fun follow more filled => by rw [← List.append_assoc]; exact goes follow more filled⟩

theorem steps_spell (mark : Path) (names : List Name) (marked : Path.IsMark mark)
    (legal : ∀ name ∈ names, Path.Legal name) :
    steps (Path.spell mark names) = if names = [] then [Path.here] else names := by
  unfold steps
  rw [Path.names_spell mark names marked legal]
  by_cases empty : names = []
  · subst empty
    rcases marked with rfl | rfl <;> rfl
  · have last := Path.getLast_spell mark names marked empty legal
    simp [last, empty]

theorem origin_spell (cwd : Location) (mark : Path) (names : List Name) (marked : Path.IsMark mark) :
    origin cwd (Path.spell mark names) = [] := by
  simp [origin, Path.isAbsolute_spell mark names marked]

theorem locate_place {tree : FileTree} {cwd : Location} {follow : Bool} {mark : Path} {names : List Name}
    (marked : Path.IsMark mark) (legal : ∀ name ∈ names, Path.Legal name)
    (free : tree.LinkFree (tree.passed cwd follow (Path.spell mark names))) {place : Place}
    (ends : tree.locate cwd follow (Path.spell mark names) = .ok place) :
    place.location = names.reverse ∧
      ∀ location ∈ tree.passed cwd follow (Path.spell mark names),
        location = place.location ∨ tree.find? location = some .directory := by
  have nonempty : (Path.spell mark names).isEmpty = false := by
    rcases marked with rfl | rfl <;> rfl
  unfold passed at free ⊢
  unfold locate at ends
  simp only [nonempty, Bool.false_eq_true, ↓reduceIte, origin_spell cwd mark names marked,
    steps_spell mark names marked legal] at free ends ⊢
  by_cases long : pathLimit ≤ Text.byteLength (Path.spell mark names)
  · rw [if_pos long] at ends
    cases ends
  simp only [if_neg long] at free ends ⊢
  by_cases empty : names = []
  · subst empty
    simp only [↓reduceIte] at ends ⊢
    cases ends
    exact ⟨rfl, fun _ impossible => by cases impossible⟩
  · simp only [if_neg empty] at free ends ⊢
    obtain ⟨spelled, others⟩ := takeSteps_place follow _ _ [] names legal free place ends
    exact ⟨by simpa using spelled, others⟩

/-- Of what a link-free look-up passes, only its end can be a file. -/
theorem passed_end {tree : FileTree} {cwd : Location} {follow : Bool} {mark : Path} {names : List Name}
    (marked : Path.IsMark mark) (legal : ∀ name ∈ names, Path.Legal name)
    (free : tree.LinkFree (tree.passed cwd follow (Path.spell mark names))) {place : Place}
    (ends : tree.locate cwd follow (Path.spell mark names) = .ok place) {location : Location}
    {entry : Entry} (member : location ∈ tree.passed cwd follow (Path.spell mark names))
    (found : tree.find? location = some entry) (kind : entry ≠ .directory) :
    location = names.reverse := by
  obtain ⟨spelled, others⟩ := locate_place marked legal free ends
  rcases others location member with same | directory
  · exact same.trans spelled
  · rw [found, Option.some.injEq] at directory
    exact absurd directory kind

theorem locate_eq_ok_iff (tree : FileTree) (cwd : Location) (follow : Bool) (path : Path) (place : Place) :
    tree.locate cwd follow path = .ok place ↔ path ≠ [] ∧ Text.byteLength path < pathLimit ∧
      tree.chase follow linkLimit (origin cwd path) (steps path) = .ok place := by
  unfold locate
  by_cases empty : path = []
  · simp [empty]
  by_cases long : pathLimit ≤ Text.byteLength path
  · simp [empty, long, Nat.not_lt.mpr long]
  · simp [empty, long, Nat.lt_of_not_le long]

theorem locate_short {tree : FileTree} {cwd : Location} {follow : Bool} {path : Path} {place : Place}
    (ends : tree.locate cwd follow path = .ok place) : Text.byteLength path < pathLimit :=
  ((tree.locate_eq_ok_iff cwd follow path place).mp ends).2.1

/-- A step to the directory itself makes no difference where another step follows. -/
theorem takeSteps_here {tree : FileTree} (follow : Bool)
    (onLink : Location → Path → List Name → Except Fault Place) {more : List Name} (filled : more ≠ [])
    (links : ∀ base target rest,
      onLink base target (rest ++ Path.here :: more) = onLink base target (rest ++ more))
    (base : Location) (names : List Name) :
    tree.takeSteps follow onLink base (names ++ Path.here :: more) =
      tree.takeSteps follow onLink base (names ++ more) := by
  induction names generalizing base with
  | nil => rw [List.nil_append, List.nil_append, takeSteps, if_pos rfl]
  | cons name rest ih =>
    have going : (rest ++ Path.here :: more).isEmpty = false := by simp
    have stillGoing : (rest ++ more).isEmpty = false := by simp [filled]
    simp only [List.cons_append, takeSteps, ih, links, going, stillGoing]

theorem chase_here {tree : FileTree} (follow : Bool) (links : Nat) (base : Location) (names : List Name)
    {more : List Name} (filled : more ≠ []) :
    tree.chase follow links base (names ++ Path.here :: more) = tree.chase follow links base (names ++ more) := by
  induction links generalizing base names with
  | zero => exact takeSteps_here follow _ filled (fun _ _ _ => rfl) base names
  | succ links ih =>
    refine takeSteps_here follow _ filled (fun base target rest => ?_) base names
    rw [← List.append_assoc, ← List.append_assoc]
    exact ih (origin base target) (steps target ++ rest)

theorem steps_join {name : Name} (legal : Path.Legal name) (directory : Path) :
    steps (Path.join directory name) = Path.names directory ++ [name] := by
  rw [steps, Path.names_join legal, if_neg (by simpa using Path.getLast_join legal directory)]

/-- From a directory that a path leads to, one more name leads to the entry of that name. -/
theorem locate_join {tree : FileTree} {cwd : Location} {directory : Path} {place : Location}
    (leads : tree.locate cwd true directory = .ok ⟨place, .directory⟩) {name : Name} (legal : Path.Legal name)
    (short : Text.byteLength (Path.join directory name) < pathLimit) :
    ∃ left, ∀ follow, tree.locate cwd follow (Path.join directory name) = tree.chase follow left place [name] := by
  obtain ⟨filled, -, outset⟩ := (tree.locate_eq_ok_iff _ _ _ _).mp leads
  have start : origin cwd (Path.join directory name) = origin cwd directory := by
    rw [origin, origin, Path.isAbsolute_join_legal filled legal]
  have named : (Path.join directory name).isEmpty = false := by
    simpa [Path.join_relative legal.relative] using fun _ => legal.nonempty
  obtain ⟨left, goes⟩ := chase_append linkLimit _ _ place outset
  refine ⟨left, fun follow => ?_⟩
  rw [locate, named, if_neg Bool.false_ne_true, if_neg (Nat.not_le.mpr short), start, steps_join legal,
    ← goes follow [name] (List.cons_ne_nil _ _), steps]
  -- A slash at the end of the directory's path adds a step that stays in the directory.
  split
  next => rw [List.append_assoc, List.singleton_append, chase_here follow _ _ _ (List.cons_ne_nil _ _)]
  next => rfl

theorem chase_single {tree : FileTree} (follow : Bool) (left : Nat) (place : Location) (name : Name)
    (legal : Path.Legal name) (short : Text.byteLength name ≤ nameLimit) (entry : Entry)
    (found : tree.find? (name :: place) = some entry)
    (stays : follow = false ∨ ∀ target, entry ≠ .link target) :
    tree.chase follow left place [name] = .ok ⟨name :: place, entry⟩ := by
  have single : ∀ onLink, tree.takeSteps follow onLink place [name] = .ok ⟨name :: place, entry⟩ := by
    intro onLink
    simp only [takeSteps, if_neg legal.notHere, if_neg legal.notUp, if_neg (Nat.not_lt.mpr short), found]
    cases entry with
    | file content => simp
    | directory => rfl
    | link target =>
      rcases stays with still | none
      · simp [still]
      · exact absurd rfl (none target)
  cases left with
  | zero => exact single _
  | succ left => exact single _

theorem chase_single_long {tree : FileTree} (follow : Bool) (left : Nat) (place : Location) (name : Name)
    (legal : Path.Legal name) (long : nameLimit < Text.byteLength name) :
    tree.chase follow left place [name] = .error .nameTooLong := by
  cases left <;> simp [chase, takeSteps, legal.notHere, legal.notUp, long]

section Child

variable {tree : FileTree} {cwd : Location} {follow : Bool} {directory : Path} {parent : Location}
  (leads : tree.locate cwd true directory = .ok ⟨parent, .directory⟩) {name : Name} (legal : Path.Legal name)
  {entry : Entry} (found : tree.find? (name :: parent) = some entry)
  (stays : follow = false ∨ ∀ target, entry ≠ .link target)

include leads legal found stays

/-- An entry of a directory is found behind the directory's path, unless its name or the whole is too long. -/
theorem locate_child_eq : tree.locate cwd follow (Path.join directory name) =
    if Text.byteLength (Path.join directory name) < pathLimit ∧ Text.byteLength name ≤ nameLimit then
      .ok ⟨name :: parent, entry⟩
    else .error .nameTooLong := by
  by_cases short : Text.byteLength (Path.join directory name) < pathLimit
  · obtain ⟨left, goes⟩ := locate_join leads legal short
    rw [goes follow]
    by_cases brief : Text.byteLength name ≤ nameLimit
    · rw [if_pos ⟨short, brief⟩, chase_single follow left parent name legal brief entry found stays]
    · rw [if_neg fun both => brief both.2, chase_single_long follow left parent name legal (Nat.lt_of_not_le brief)]
  · rw [if_neg fun both => short both.1, locate, if_pos (Nat.le_of_not_lt short)]
    simp [Path.join_relative legal.relative, legal.nonempty]

theorem locate_child {place : Place} (ends : tree.locate cwd follow (Path.join directory name) = .ok place) :
    place = ⟨name :: parent, entry⟩ := by
  rw [locate_child_eq leads legal found stays] at ends
  split at ends
  next => exact (Except.ok.inj ends).symm
  next => cases ends

end Child

end SheetReach.FileTree
