import VideoRemap.Expr.Basic
import VideoRemap.Number.Notation

namespace VideoRemap

open Number

def Literal.chars : Literal → List Char
  | .int v => intText v.toInt
  | .decimal v => treeNotation.single v

namespace Expr

def variableChar : Variable → Char
  | .x => 'x'
  | .y => 'y'
  | .t => 't'

mutual

def chars : Expr → List Char
  | var v => [variableChar v]
  | literal v => v.chars
  | scale (.int k) e =>
    if k = -1 then '-' :: e.chars else '(' :: intText k.toInt ++ '*' :: e.chars ++ [')']
  | scale (.decimal k) e => '(' :: treeNotation.single k ++ '*' :: e.chars ++ [')']
  | clamp low high e =>
    ['c', 'l', 'a', 'm', 'p', '('] ++ e.chars ++ [',', ' '] ++ intText low.toInt ++ [',', ' '] ++
      intText high.toInt ++ [')']
  | sum es => '(' :: joined '+' es ++ [')']
  | product es => '(' :: joined '*' es ++ [')']
  | quotient op l r => '(' :: l.chars ++ op.symbol :: r.chars ++ [')']

def joined (sep : Char) : List Expr → List Char
  | [] => []
  | [e] => e.chars
  | e :: es => e.chars ++ sep :: joined sep es

end

def text (e : Expr) : String := String.ofList e.chars

end Expr

end VideoRemap
