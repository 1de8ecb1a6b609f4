/-!
JSON values as the records of this library need them: whole numbers are kept apart from all other
numbers, and members keep their order.
-/

namespace VideoRemap

inductive Json where
  | null
  | bool (b : Bool)
  | int (n : Int)
  /-- Any other number. No record of this library holds one, so its value is not kept. -/
  | fraction
  | string (s : Option String)
  | array (elements : List Json)
  | object (members : List (String × Json))

namespace Json

instance : Inhabited Json := ⟨null⟩

def nat (n : Nat) : Json := int n

def text (s : String) : Json := string (some s)

def member? (name : String) : Json → Option Json
  | object ms => (ms.reverse.find? (·.1 == name)).map (·.2)
  | _ => none

end Json

end VideoRemap
