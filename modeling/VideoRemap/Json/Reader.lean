import VideoRemap.Json.Lexer

namespace VideoRemap.Json

inductive Open where
  | array (done : List Json)
  | object (done : List (String × Json)) (name : String)

mutual

def readValue (outer : List Open) : List Token → Option Json
  | .scalar v :: ts => readAfter outer v ts
  | .openBracket :: .closeBracket :: ts => readAfter outer (array []) ts
  | .openBracket :: ts => readValue (.array [] :: outer) ts
  | .openBrace :: .closeBrace :: ts => readAfter outer (object []) ts
  | .openBrace :: .scalar (.string (some name)) :: .colon :: ts =>
    readValue (.object [] name :: outer) ts
  | _ => none

def readAfter (outer : List Open) (v : Json) : List Token → Option Json
  | [] => if outer.isEmpty then some v else none
  | .comma :: .scalar (.string (some next)) :: .colon :: ts =>
    match outer with
    | .object done name :: outer => readValue (.object ((name, v) :: done) next :: outer) ts
    | _ => none
  | .comma :: ts =>
    match outer with
    | .array done :: outer => readValue (.array (v :: done) :: outer) ts
    | _ => none
  | .closeBracket :: ts =>
    match outer with
    | .array done :: outer => readAfter outer (array (v :: done).reverse) ts
    | _ => none
  | .closeBrace :: ts =>
    match outer with
    | .object done name :: outer => readAfter outer (object ((name, v) :: done).reverse) ts
    | _ => none
  | _ => none

end

def parse? (text : String) : Option Json := do
  let cs := text.toList
  readValue [] (← tokens cs.length cs)

end VideoRemap.Json
