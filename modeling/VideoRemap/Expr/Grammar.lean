import VideoRemap.Expr.Token

/-!
The grammar of expressions, as a relation between the lexemes of a text and the tree that they
spell. It says nothing of how a text is read.
-/

namespace VideoRemap.Grammar

mutual

inductive IsSum (c : Constants) : List Lexeme → Expr → Prop where
  | ofTerms {ls es} : AreTerms c ls es → IsSum c ls (Expr.collapse .sum es)

inductive AreTerms (c : Constants) : List Lexeme → List Expr → Prop where
  | first {ls e} : IsProduct c ls e → AreTerms c ls [e]
  | plus {ls es ms e} : AreTerms c ls es → IsProduct c ms e →
      AreTerms c (ls ++ .mark .plus :: ms) (es ++ [e])
  | minus {ls es ms e} : AreTerms c ls es → IsProduct c (.mark .minus :: ms) e →
      AreTerms c (ls ++ .mark .minus :: ms) (es ++ [e])

inductive IsProduct (c : Constants) : List Lexeme → Expr → Prop where
  | ofFactors {ls es} : AreFactors c ls es → IsProduct c ls (Expr.collapse .product es)

inductive AreFactors (c : Constants) : List Lexeme → List Expr → Prop where
  | first {ls e} : IsFactor c ls e → AreFactors c ls [e]
  | times {ls es ms e} : AreFactors c ls es → IsFactor c ms e →
      AreFactors c (ls ++ .mark .star :: ms) (es ++ [e])
  | over {ls es d m op ms e} : AreFactors c ls (es ++ [d]) → Mark.quotient? m = some op →
      IsFactor c ms e → AreFactors c (ls ++ .mark m :: ms) (es ++ [.quotient op d e])

inductive IsFactor (c : Constants) : List Lexeme → Expr → Prop where
  | number (v) : IsFactor c [.number v] (.literal v)
  | letter {l e} : c.symbol? l = some e → IsFactor c [.letter l] e
  | paren {ls e} : IsSum c ls e →
      IsFactor c (.mark .openParen :: ls ++ [.mark .closeParen]) e
  | plus {ls e} : IsFactor c ls e → IsFactor c (.mark .plus :: ls) e
  | minus {ls e} : IsFactor c ls e → IsFactor c (.mark .minus :: ls) e.negate

end

end VideoRemap.Grammar
