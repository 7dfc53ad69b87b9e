import VpdHeaders.Error
import VpdHeaders.Event

/-! # Computations that log what they do and may fail -/
namespace VpdHeaders

/-- What was logged, in order, and how the computation ended. A failure keeps its log. -/
structure Traced (α : Type) where
  events : List Event
  result : Except Error α

namespace Traced

variable {α β : Type}

def ok (a : α) : Traced α := ⟨[], .ok a⟩

def fail (e : Error) : Traced α := ⟨[], .error e⟩

def log (e : Event) : Traced Unit := ⟨[e], .ok ()⟩

def lift (r : Except Error α) : Traced α := ⟨[], r⟩

/-- Goes on after a success; the second log follows the first. -/
def andThen (m : Traced α) (next : α → Traced β) : Traced β :=
  match m.result with
  | .error e => ⟨m.events, .error e⟩
  | .ok a => ⟨m.events ++ (next a).events, (next a).result⟩

instance : Monad Traced where
  pure := ok
  bind := andThen

end VpdHeaders.Traced
