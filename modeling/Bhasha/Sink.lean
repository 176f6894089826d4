import Bhasha.Text.Bytes

/-!
# Where output goes

A sink keeps the bytes it has taken, write by write.  It may have room for a limited number of bytes
only.  A write that does not fit is taken as far as there is room and fails with the sink's
complaint; so does every later write of at least one byte.

Source: the writers that `run` of package `main` of benglang is given.
-/

namespace Bhasha

/-- The outcome of a write: how many bytes were taken, and the complaint if some were not. -/
structure Written where
  count : Nat
  complaint? : Option Text
deriving DecidableEq, Repr

structure Sink where
  /-- What was taken of each write, the latest first. -/
  parts : List Text
  /-- The bytes that still fit, if there is a limit. -/
  room : Option Nat
  /-- What a failing write says. -/
  complaint : Text
deriving DecidableEq, Repr

namespace Sink

/-- All bytes taken, in the order in which they were written. -/
def taken (s : Sink) : Text := s.parts.reverse.flatten

def unlimited : Sink := ⟨[], none, []⟩

def limited (room : Nat) (complaint : Text) : Sink := ⟨[], some room, complaint⟩

/-- The number of bytes of a write that fit. -/
def fitting (s : Sink) (bytes : Text) : Nat :=
  match s.room with
  | none => bytes.length
  | some room => min room bytes.length

/-- The sink after a write. -/
def after (s : Sink) (bytes : Text) : Sink :=
  { s with
    parts := bytes.take (s.fitting bytes) :: s.parts
    room := s.room.map (· - s.fitting bytes) }

/-- A write adds the bytes that fit behind those taken before. -/
@[simp]
theorem taken_after (s : Sink) (bytes : Text) :
    (s.after bytes).taken = s.taken ++ bytes.take (s.fitting bytes) := by
  simp [taken, after]

/-- The outcome of a write. -/
def outcome (s : Sink) (bytes : Text) : Written :=
  ⟨s.fitting bytes, if s.fitting bytes < bytes.length then some s.complaint else none⟩

/-- A write. -/
def write (bytes : Text) : StateM Sink Written := fun s => (s.outcome bytes, s.after bytes)

end Sink

end Bhasha
