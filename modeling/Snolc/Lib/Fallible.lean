/-! Computations over a state that may fail and leave what they have done so far. -/

namespace Snolc

/-- A computation over a state that may fail. -/
def Fallible (σ ε α : Type) : Type :=
  σ → Except ε α × σ

namespace Fallible

variable {σ ε α : Type}

instance : Monad (Fallible σ ε) where
  pure value state := (.ok value, state)
  bind first rest state :=
    match first state with
    | (.ok value, next) => rest value next
    | (.error fault, next) => (.error fault, next)

def fail (fault : ε) : Fallible σ ε α :=
  fun state => (.error fault, state)

end Fallible

end Snolc
