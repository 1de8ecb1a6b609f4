namespace VideoRemap

structure Path where
  text : String
  deriving DecidableEq

inductive Move where
  | stay
  | up
  | into (name : String)
  deriving DecidableEq

namespace Path

def pieces : List Char → List (List Char)
  | [] => [[]]
  | c :: cs =>
    if c = '/' then [] :: pieces cs
    else
      match pieces cs with
      | [] => [[c]]
      | p :: ps => (c :: p) :: ps

def join : List (List Char) → List Char
  | [] => []
  | [p] => p
  | p :: ps => p ++ '/' :: join ps

def Idle (piece : List Char) : Prop := piece = [] ∨ piece = ['.']

instance (piece : List Char) : Decidable (Idle piece) := inferInstanceAs (Decidable (_ ∨ _))

def move (piece : List Char) : Move :=
  if Idle piece then .stay else if piece = ['.', '.'] then .up else .into (String.ofList piece)

def IsAbsolute (p : Path) : Prop := p.text.toList.head? = some '/'

instance (p : Path) : Decidable p.IsAbsolute := inferInstanceAs (Decidable (_ = _))

def moves (p : Path) : List Move := (pieces p.text.toList).map move

def lead (p : Path) : List Char :=
  match p.text.toList with
  | '/' :: _ => ['/']
  | ['.'] | '.' :: '/' :: _ => ['.']
  | _ => []

def trimPieces (ps : List (List Char)) : List (List Char) :=
  (ps.reverse.dropWhile fun p => decide (Idle p)).reverse

def body (p : Path) : List (List Char) := trimPieces (pieces (p.text.toList.drop p.lead.length))

def name? (p : Path) : Option (List Char) :=
  match p.body.getLast? with
  | some n => if n = ['.', '.'] then none else some n
  | none => none

def extension? (p : Path) : Option String := do
  let reversed := (← p.name?).reverse
  match reversed.dropWhile (· ≠ '.') with
  | _ :: _ :: _ => some (String.ofList (reversed.takeWhile (· ≠ '.')).reverse)
  | _ => none

def kind? (p : Path) : Option String := p.extension?.map fun e => String.ofList (e.toList.map Char.toLower)

def parent? (p : Path) : Option Path :=
  match p.body.reverse with
  | [] => if p.lead = ['.'] then some ⟨""⟩ else none
  | _ :: before => some ⟨String.ofList (p.lead ++ join (trimPieces before.reverse))⟩

end Path

end VideoRemap
