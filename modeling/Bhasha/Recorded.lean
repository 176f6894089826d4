/-!
# Values with a record

A computation that leaves notes behind: its value and the notes in the order in which they were
made.
-/

namespace Bhasha

structure Recorded (ρ α : Type) where
  value : α
  records : List ρ
deriving Repr

namespace Recorded

variable {ρ : Type}

instance : Monad (Recorded ρ) where
  pure a := ⟨a, []⟩
  bind x f :=
    let y := f x.value
    ⟨y.value, x.records ++ y.records⟩

/-- A single note. -/
def note (r : ρ) : Recorded ρ Unit := ⟨(), [r]⟩

end Recorded

end Bhasha
