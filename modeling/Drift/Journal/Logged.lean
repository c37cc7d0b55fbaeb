import Drift.Journal.Event

namespace Drift

structure Logged (ε α : Type) where
  events : List Journal.Event
  outcome : Except ε α

namespace Logged

variable {ε α β : Type}

def bind (x : Logged ε α) (f : α → Logged ε β) : Logged ε β :=
  match x.outcome with
  | .ok a => ⟨x.events ++ (f a).events, (f a).outcome⟩
  | .error e => ⟨x.events, .error e⟩

instance : Monad (Logged ε) where
  pure a := ⟨[], .ok a⟩
  bind := bind

def note (e : Journal.Event) : Logged ε Unit := ⟨[e], .ok ()⟩

def ofExcept (x : Except ε α) : Logged ε α := ⟨[], x⟩

instance : MonadLift (Except ε) (Logged ε) := ⟨ofExcept⟩

@[simp] theorem outcome_ofExcept (x : Except ε α) : (ofExcept x).outcome = x := rfl

@[simp] theorem outcome_bind (x : Logged ε α) (f : α → Logged ε β) :
    (x >>= f).outcome = x.outcome >>= fun a => (f a).outcome := by
  show (x.bind f).outcome = _
  cases h : x.outcome <;> simp [bind, h, Bind.bind, Except.bind]

end Logged

end Drift
