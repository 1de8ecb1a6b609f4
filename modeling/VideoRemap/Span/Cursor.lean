import VideoRemap.Span.Basic

namespace VideoRemap

structure Cursor (α : Type) where
  rest : Span α
  used : Nat

namespace Cursor

variable {α β : Type}

def start (s : Span α) : Cursor α := ⟨s, 0⟩

def remaining (c : Cursor α) : Nat := c.rest.length - c.used

def advance (r : Run β) (rs : List (Run β)) (used : Nat) : List (Run β) × Nat :=
  if used + 1 < r.length then (r :: rs, used + 1) else (rs, 0)

def next? [Scalar α] (c : Cursor α) : Option (α × Cursor α) :=
  match c.rest with
  | .dense [] | .sparse [] | .linear [] => none
  | .dense (v :: vs) => some (v, ⟨.dense vs, 0⟩)
  | .sparse (r :: rs) =>
    let (rest, used) := advance r rs c.used
    some (r.payload, ⟨.sparse rest, used⟩)
  | .linear (r :: rs) =>
    let (rest, used) := advance r rs c.used
    some (r.payload.value c.used, ⟨.linear rest, used⟩)

def take [Scalar α] (c : Cursor α) : Nat → List α
  | 0 => []
  | n + 1 =>
    match c.next? with
    | none => []
    | some (v, c) => v :: c.take n

end Cursor

end VideoRemap
