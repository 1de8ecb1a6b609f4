import VideoRemap.Expr.Text

namespace VideoRemap

open Number

inductive Mark where
  | openParen
  | closeParen
  | openBracket
  | closeBracket
  | semicolon
  | plus
  | minus
  | star
  | slash
  | hash
  | underscore
  | caret
  deriving DecidableEq

namespace Mark

def char : Mark → Char
  | openParen => '('
  | closeParen => ')'
  | openBracket => '['
  | closeBracket => ']'
  | semicolon => ';'
  | plus => '+'
  | minus => '-'
  | star => '*'
  | slash => '/'
  | hash => '#'
  | underscore => '_'
  | caret => '^'

def ofChar? : Char → Option Mark
  | '(' => some openParen
  | ')' => some closeParen
  | '[' => some openBracket
  | ']' => some closeBracket
  | ';' => some semicolon
  | '+' => some plus
  | '-' => some minus
  | '*' => some star
  | '/' => some slash
  | '#' => some hash
  | '_' => some underscore
  | '^' => some caret
  | _ => none

def quotient? : Mark → Option Quotient
  | slash => some .divide
  | hash => some .remainder
  | underscore => some .align
  | _ => none

end Mark

inductive Lexeme where
  | letter (c : Char)
  | number (v : Literal)
  | mark (m : Mark)

def Lexeme.quoted (l : Lexeme) : String :=
  String.ofList <| '\'' :: (match l with
    | .letter c => [c]
    | .number (.int v) => intText v.toInt
    | .number (.decimal v) => plainNotation.single v
    | .mark m => [m.char]) ++ ['\'']

structure Token where
  lexeme : Lexeme
  start : Nat
  stop : Nat

inductive ExprProblem where
  | integerOutOfRange
  | unexpectedCharacter (c : Char)
  | unknownSymbol (c : Char)
  | expectedTerm (found : Lexeme)
  | endOfExpression
  | exponentiation
  | unbalanced
  | afterExpression (found : Lexeme)
  | noOpeningBracket
  | noClosingBracket
  | partCount (found : Nat)

structure ExprError where
  offset : Nat
  problem : ExprProblem

def ExprProblem.message : ExprProblem → String
  | integerOutOfRange => "integer literal out of range"
  | unexpectedCharacter c => "unexpected character '" ++ c.toString ++ "'"
  | unknownSymbol c => "unknown symbol '" ++ c.toString ++ "'"
  | expectedTerm found => "expected a term, found " ++ found.quoted
  | endOfExpression => "unexpected end of expression"
  | exponentiation => "exponentiation is not supported"
  | unbalanced => "unbalanced brackets"
  | afterExpression found => "unexpected " ++ found.quoted ++ " after expression"
  | noOpeningBracket => "expected '[' to open the coordinate triplet"
  | noClosingBracket => "expected ']' to close the coordinate triplet"
  | partCount n => s!"coordinate triplet needs exactly 3 expressions, found {n}"

def ExprError.message (e : ExprError) : String :=
  s!"expr error at byte {e.offset}: " ++ e.problem.message

end VideoRemap
