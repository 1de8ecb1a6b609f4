import VideoRemap.Expr.Basic

namespace VideoRemap

def Quotient.ideal? : Quotient → Int → Int → Option Int
  | .divide, _, _ => none
  | .remainder, a, b => if b = 0 then none else some (a.tmod b)
  | .align, a, b => if b = 0 then none else some (a - a.tmod b)

namespace Expr

mutual

def ideal? (place : Variable → Int) : Expr → Option Int
  | var v => some (place v)
  | literal (.int v) => some v.toInt
  | literal (.decimal _) | scale (.decimal _) _ => none
  | scale (.int k) e => (e.ideal? place).map (· * k.toInt)
  | clamp low high e =>
    if high < low then none else (e.ideal? place).map fun u => max low.toInt (min u high.toInt)
  | sum [] | product [] => none
  | sum es => (ideals? place es).map fun us => us.foldl (· + ·) 0
  | product es => (ideals? place es).map fun us => us.foldl (· * ·) 1
  | quotient op l r => do op.ideal? (← l.ideal? place) (← r.ideal? place)

def ideals? (place : Variable → Int) : List Expr → Option (List Int)
  | [] => some []
  | e :: es => do return (← e.ideal? place) :: (← ideals? place es)

end

end Expr

end VideoRemap
