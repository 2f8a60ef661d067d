import SheetReach.Event

/-! Computations that report events and may fail; a failure keeps the events before it. -/
namespace SheetReach

/-- A result with the events on the way to it. -/
structure Traced (ε α : Type) where
  events : List Event
  result : Except ε α

namespace Traced

def emit {ε : Type} (events : List Event) : Traced ε Unit := ⟨events, .ok ()⟩

def ofExcept {ε α : Type} (result : Except ε α) : Traced ε α := ⟨[], result⟩

def bind {ε α β : Type} (first : Traced ε α) (next : α → Traced ε β) : Traced ε β :=
  match first.result with
  | .ok value => ⟨first.events ++ (next value).events, (next value).result⟩
  | .error error => ⟨first.events, .error error⟩

instance {ε : Type} : Monad (Traced ε) where
  pure value := ⟨[], .ok value⟩
  bind := bind

@[simp] theorem result_pure {ε α : Type} (value : α) :
    (pure value : Traced ε α).result = .ok value := rfl

@[simp] theorem result_emit {ε : Type} (events : List Event) :
    (emit events : Traced ε Unit).result = .ok () := rfl

@[simp] theorem result_ofExcept {ε α : Type} (result : Except ε α) :
    (ofExcept result).result = result := rfl

/-- Apart from events, a computation is its result. -/
@[simp] theorem result_bind {ε α β : Type} (first : Traced ε α) (next : α → Traced ε β) :
    (first >>= next).result = first.result >>= fun value => (next value).result := by
  cases equation : first.result <;>
    simp [Bind.bind, bind, Except.bind, equation]

end Traced

end SheetReach
