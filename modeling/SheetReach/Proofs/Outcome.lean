import Mathlib.Logic.Basic

/-! When a computation that may fail succeeds. -/
namespace SheetReach.Except

theorem bind_eq_ok_iff {ε α β : Type} (first : Except ε α) (next : α → Except ε β) (result : β) :
    (first >>= next) = .ok result ↔ ∃ value, first = .ok value ∧ next value = .ok result := by
  cases first with
  | error error => simp [Bind.bind, Except.bind]
  | ok value => simp [Bind.bind, Except.bind]

@[simp] theorem mapError_ok {ε η α : Type} (change : ε → η) (value : α) :
    (.ok value : Except ε α).mapError change = .ok value := rfl

@[simp] theorem mapError_error {ε η α : Type} (change : ε → η) (error : ε) :
    (.error error : Except ε α).mapError change = .error (change error) := rfl

@[simp] theorem map_ok {ε α β : Type} (change : α → β) (value : α) :
    (.ok value : Except ε α).map change = .ok (change value) := rfl

@[simp] theorem map_error {ε α β : Type} (change : α → β) (error : ε) :
    (.error error : Except ε α).map change = .error error := rfl

theorem mapError_eq_ok_iff {ε η α : Type} (change : ε → η) (first : Except ε α) (result : α) :
    first.mapError change = .ok result ↔ first = .ok result := by
  cases first <;> simp

theorem map_eq_ok_iff {ε α β : Type} (change : α → β) (first : Except ε α) (result : β) :
    first.map change = .ok result ↔ ∃ value, first = .ok value ∧ change value = result := by
  cases first <;> simp

theorem ok_bind {ε α β : Type} (value : α) (next : α → Except ε β) :
    ((.ok value : Except ε α) >>= next) = next value := rfl

instance decidableIsOk {ε α : Type} (result : Except ε α) : Decidable (∃ value, result = .ok value) :=
  match result with
  | .ok value => isTrue ⟨value, rfl⟩
  | .error _ => isFalse (by simp)

end SheetReach.Except
