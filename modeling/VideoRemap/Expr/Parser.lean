import VideoRemap.Expr.Lexer

/-!
From tokens to a tree. A sum is read with the sums around it on a stack: each token either
completes a factor, opens one, or closes the innermost sum. A minus between terms is the sign of
the term behind it, and `/`, `#`, `_` divide the factor just before them.
-/

namespace VideoRemap

namespace Parser

structure Done where
  terms : List Expr
  factors : List Expr

structure Waiting extends Done where
  dividend : Option (Quotient × Expr)
  negations : Nat

def start : Waiting := ⟨⟨[], []⟩, none, 0⟩

def Waiting.factor (w : Waiting) (e : Expr) : Expr :=
  let e := Nat.repeat Expr.negate w.negations e
  match w.dividend with
  | none => e
  | some (op, left) => .quotient op left e

def Done.term (d : Done) (last : Expr) : Expr := Expr.collapse .product (last :: d.factors).reverse

def Done.sum (d : Done) (last : Expr) : Expr :=
  Expr.collapse .sum (d.term last :: d.terms).reverse

def Done.times (d : Done) (last : Expr) : Waiting := ⟨⟨d.terms, last :: d.factors⟩, none, 0⟩

def Done.over (d : Done) (op : Quotient) (last : Expr) : Waiting := ⟨d, some (op, last), 0⟩

def Done.plus (d : Done) (last : Expr) (negations : Nat) : Waiting :=
  ⟨⟨d.term last :: d.terms, []⟩, none, negations⟩

mutual

/-- Reads on where a factor must come. `outer` holds the sums around this one, the innermost
first, and `stop` is the offset of the end. -/
def readFactor (c : Constants) (stop : Nat) (outer : List Waiting) (w : Waiting) :
    List Token → Except ExprError Expr
  | [] => .error ⟨stop, .endOfExpression⟩
  | t :: ts =>
    match t.lexeme with
    | .number v => readOperator c stop outer w.toDone (w.factor (.literal v)) ts
    | .letter l =>
      match c.symbol? l with
      | some e => readOperator c stop outer w.toDone (w.factor e) ts
      | none => .error ⟨t.start, .unknownSymbol l⟩
    | .mark .openParen => readFactor c stop (w :: outer) start ts
    | .mark .plus => readFactor c stop outer w ts
    | .mark .minus => readFactor c stop outer { w with negations := w.negations + 1 } ts
    | .mark .closeParen => .error ⟨t.start, .unbalanced⟩
    | found => .error ⟨t.start, .expectedTerm found⟩

def readOperator (c : Constants) (stop : Nat) (outer : List Waiting) (d : Done) (last : Expr) :
    List Token → Except ExprError Expr
  | [] => if outer.isEmpty then .ok (d.sum last) else .error ⟨stop, .unbalanced⟩
  | t :: ts =>
    match t.lexeme with
    | .mark .caret => .error ⟨t.start, .exponentiation⟩
    | .mark .star => readFactor c stop outer (d.times last) ts
    | .mark .slash => readFactor c stop outer (d.over .divide last) ts
    | .mark .hash => readFactor c stop outer (d.over .remainder last) ts
    | .mark .underscore => readFactor c stop outer (d.over .align last) ts
    | .mark .plus => readFactor c stop outer (d.plus last 0) ts
    | .mark .minus => readFactor c stop outer (d.plus last 1) ts
    | .mark .closeParen =>
      match outer with
      | [] => .error ⟨t.start, .unbalanced⟩
      | w :: outer => readOperator c stop outer w.toDone (w.factor (d.sum last)) ts
    | found =>
      .error ⟨t.start, if outer.isEmpty then .afterExpression found else .unbalanced⟩

end

def tree (c : Constants) (stop : Nat) (tokens : List Token) : Except ExprError Expr :=
  readFactor c stop [] start tokens

def lastStop (tokens : List Token) : Nat := (tokens.getLast?.map Token.stop).getD 0

/-- Cuts the tokens between the brackets of a triplet at the semicolons outside parentheses. Each
part comes with the offset of what ends it; `part` is what is read of the part at hand, the latest
first. -/
def parts (close : Nat) (depth : Nat) (part : List Token) :
    List Token → Except ExprError (List (List Token × Nat))
  | [] => .ok [(part.reverse, close)]
  | t :: ts =>
    match t.lexeme with
    | .mark .openParen => parts close (depth + 1) (t :: part) ts
    | .mark .closeParen =>
      if depth = 0 then .error ⟨t.start, .unbalanced⟩ else parts close (depth - 1) (t :: part) ts
    | .mark .semicolon =>
      if depth = 0 then ((part.reverse, t.start) :: ·) <$> parts close 0 [] ts
      else parts close depth (t :: part) ts
    | _ => parts close depth (t :: part) ts

def bracketed (stop : Nat) : List Token → Except ExprError (List Token × Token)
  | [] => .error ⟨stop, .noOpeningBracket⟩
  | t :: ts =>
    match t.lexeme, ts.getLast? with
    | .mark .openBracket, some ⟨.mark .closeBracket, i, j⟩ =>
      .ok (ts.dropLast, ⟨.mark .closeBracket, i, j⟩)
    | .mark .openBracket, _ => .error ⟨stop, .noClosingBracket⟩
    | _, _ => .error ⟨t.start, .noOpeningBracket⟩

end Parser

open VideoRemap.Parser

def Expr.parse (c : Constants) (text : String) : Except ExprError Expr := do
  let tokens ← lex text.toList
  tree c (lastStop tokens) tokens

def Triplet.parse (c : Constants) (text : String) : Except ExprError Triplet := do
  let tokens ← lex text.toList
  let (inner, close) ← bracketed (byteCount text.toList) tokens
  match ← parts close.start 0 [] inner with
  | [a, b, d] => return ⟨← tree c a.2 a.1, ← tree c b.2 b.1, ← tree c d.2 d.1⟩
  | found => .error ⟨(tokens.head?.map Token.start).getD 0, .partCount found.length⟩

end VideoRemap
