/-!
The output of a running program, as it comes: some bytes at a time, with interruptions. What is read
depends on the bytes alone.
-/

namespace VideoRemap

inductive Chunk where
  | bytes (first : UInt8) (rest : List UInt8)
  | interrupted

abbrev Pipe := List Chunk

def Chunk.toList : Chunk → List UInt8
  | bytes b bs => b :: bs
  | interrupted => []

namespace Pipe

def ofList : List UInt8 → Pipe
  | [] => []
  | b :: bs => [.bytes b bs]

def contents (p : Pipe) : List UInt8 := p.flatMap Chunk.toList

def fill (n : Nat) : Pipe → List UInt8 × Pipe
  | [] => ([], [])
  | .interrupted :: p => fill n p
  | .bytes b bs :: p =>
    match (b :: bs).drop n with
    | c :: cs => ((b :: bs).take n, .bytes c cs :: p)
    | [] =>
      let (more, rest) := fill (n - (bs.length + 1)) p
      (b :: bs ++ more, rest)

theorem contents_interrupted (p : Pipe) : contents (.interrupted :: p) = p.contents := rfl

theorem contents_bytes (b : UInt8) (bs : List UInt8) (p : Pipe) :
    contents (.bytes b bs :: p) = (b :: bs) ++ p.contents := rfl

theorem fill_fst (n : Nat) (p : Pipe) : (fill n p).1 = p.contents.take n := by
  fun_induction fill n p with
  | case1 => simp [contents]
  | case2 n p ih => rw [ih, contents_interrupted]
  | case3 n b bs p c cs h =>
    have : n ≤ (b :: bs).length := by
      refine Nat.le_of_lt (Decidable.byContradiction fun hn => ?_)
      simp [List.drop_eq_nil_of_le (Nat.le_of_not_lt hn)] at h
    rw [contents_bytes, List.take_append_of_le_length this]
  | case4 n b bs p h more rest e ih =>
    rw [e] at ih
    rw [contents_bytes, List.take_append, List.take_of_length_le (List.drop_eq_nil_iff.mp h),
      List.length_cons, ← ih]

theorem fill_snd (n : Nat) (p : Pipe) : (fill n p).2.contents = p.contents.drop n := by
  fun_induction fill n p with
  | case1 => simp [contents]
  | case2 n p ih => rw [ih, contents_interrupted]
  | case3 n b bs p c cs h =>
    have : n ≤ (b :: bs).length := by
      refine Nat.le_of_lt (Decidable.byContradiction fun hn => ?_)
      simp [List.drop_eq_nil_of_le (Nat.le_of_not_lt hn)] at h
    rw [contents_bytes, contents_bytes, List.drop_append_of_le_length this, h]
  | case4 n b bs p h more rest e ih =>
    rw [e] at ih
    rw [contents_bytes, List.drop_append, h, List.length_cons, ← ih]
    rfl

end Pipe

end VideoRemap
