import VideoRemap.Json.Basic

/-!
Records in JSON: an object with a member for each field, or an array of the field values in order.
Unknown members are ignored and a known one may stand once.
-/

namespace VideoRemap.Json

def natBelow? (limit : Nat) : Json → Option Nat
  | int n => if 0 ≤ n ∧ n < limit then some n.toNat else none
  | _ => none

def nat32? : Json → Option Nat := natBelow? UInt32.size

def nat64? : Json → Option Nat := natBelow? UInt64.size

def int32? : Json → Option Int32
  | int n => if -0x80000000 ≤ n ∧ n < 0x80000000 then some (Int32.ofInt n) else none
  | _ => none

def text? : Json → Option String
  | string s => s
  | _ => none

def nullable? {α : Type} (read : Json → Option α) : Json → Option (Option α)
  | null => some none
  | v => some <$> read v

def fields? (names : List String) (short : Bool) : Json → Option (List (Option Json))
  | object ms =>
    names.mapM fun name =>
      match ms.filter (·.1 == name) with
      | [] => some none
      | [m] => some (some m.2)
      | _ => none
  | array es =>
    if es.length = names.length ∨ (short ∧ es.length < names.length) then
      some (es.map some ++ List.replicate (names.length - es.length) none)
    else none
  | _ => none

def present? (fields : List (Option Json)) : Option (List Json) := fields.mapM id

def optional? {α : Type} (read : Json → Option α) : Option Json → Option (Option α)
  | none => some none
  | some v => nullable? read v

def orDefault? {α : Type} (default : α) (read : Json → Option α) : Option Json → Option α
  | none => some default
  | some v => read v

end VideoRemap.Json
