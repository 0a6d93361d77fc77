/-!
# Logged computations

A result together with the events emitted on the way to it, in the order of emission.
-/

namespace SignatureLine

inductive Level where
  | trace
  | debug
  | warn
  deriving Repr, DecidableEq

/-- A result and the events emitted while it was found, first to last. -/
@[ext]
structure Logged (ε α : Type) where
  value : α
  events : List ε
  deriving Repr, DecidableEq

namespace Logged

variable {ε α β : Type}

def emit (event : ε) : Logged ε Unit :=
  ⟨(), [event]⟩

instance : Monad (Logged ε) where
  pure a := ⟨a, []⟩
  bind x f := ⟨(f x.value).value, x.events ++ (f x.value).events⟩

@[simp]
theorem value_pure (a : α) : (pure a : Logged ε α).value = a := rfl

@[simp]
theorem events_pure (a : α) : (pure a : Logged ε α).events = [] := rfl

@[simp]
theorem value_bind (x : Logged ε α) (f : α → Logged ε β) :
    (x >>= f).value = (f x.value).value := rfl

@[simp]
theorem events_bind (x : Logged ε α) (f : α → Logged ε β) :
    (x >>= f).events = x.events ++ (f x.value).events := rfl

@[simp]
theorem value_map (f : α → β) (x : Logged ε α) : (f <$> x).value = f x.value := rfl

@[simp]
theorem events_map (f : α → β) (x : Logged ε α) : (f <$> x).events = x.events :=
  List.append_nil x.events

@[simp]
theorem value_emit (event : ε) : (emit event).value = () := rfl

@[simp]
theorem events_emit (event : ε) : (emit event).events = [event] := rfl

instance : LawfulMonad (Logged ε) :=
  LawfulMonad.mk' _ (fun _ => by ext1 <;> simp) (fun _ _ => by ext1 <;> simp)
    (fun _ _ _ => by ext1 <;> simp)

end Logged

end SignatureLine
