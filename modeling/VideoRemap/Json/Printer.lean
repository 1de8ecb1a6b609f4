import VideoRemap.Json.Basic

namespace VideoRemap.Json

def hexDigit (n : Nat) : Char := Nat.digitChar (n % 16)

def escaped (c : Char) : List Char :=
  match c with
  | '"' => ['\\', '"']
  | '\\' => ['\\', '\\']
  | '\n' => ['\\', 'n']
  | '\r' => ['\\', 'r']
  | '\t' => ['\\', 't']
  | '\x08' => ['\\', 'b']
  | '\x0c' => ['\\', 'f']
  | c =>
    if c < ' ' then ['\\', 'u', '0', '0', hexDigit (c.toNat / 16), hexDigit c.toNat] else [c]

def quote (s : String) : String := String.ofList ('"' :: s.toList.flatMap escaped ++ ['"'])

mutual

def writeCompact (out : String) : Json → String
  | null => out ++ "null"
  | bool b => out ++ (if b then "true" else "false")
  | int n => out ++ toString n
  | fraction => out ++ "0.0"
  | string s => out ++ quote (s.getD "")
  | array es => writeElements (out ++ "[") es ++ "]"
  | object ms => writeMembers (out ++ "\x7b") ms ++ "\x7d"

def writeElements (out : String) : List Json → String
  | [] => out
  | [e] => writeCompact out e
  | e :: es => writeElements (writeCompact out e ++ ",") es

def writeMembers (out : String) : List (String × Json) → String
  | [] => out
  | [(n, v)] => writeCompact (out ++ quote n ++ ":") v
  | (n, v) :: ms => writeMembers (writeCompact (out ++ quote n ++ ":") v ++ ",") ms

end

def compact (v : Json) : String := writeCompact "" v

def newline (depth : Nat) : String := String.ofList ('\n' :: List.replicate (2 * depth) ' ')

mutual

def indented (depth : Nat) : Json → String
  | array (e :: es) =>
    "[" ++ indentedElements (depth + 1) (e :: es) ++ newline depth ++ "]"
  | object (m :: ms) =>
    "\x7b" ++ indentedMembers (depth + 1) (m :: ms) ++ newline depth ++ "\x7d"
  | v => compact v

def indentedElements (depth : Nat) : List Json → String
  | [] => ""
  | [e] => newline depth ++ indented depth e
  | e :: es => newline depth ++ indented depth e ++ "," ++ indentedElements depth es

def indentedMembers (depth : Nat) : List (String × Json) → String
  | [] => ""
  | [(n, v)] => newline depth ++ quote n ++ ": " ++ indented depth v
  | (n, v) :: ms =>
    newline depth ++ quote n ++ ": " ++ indented depth v ++ "," ++ indentedMembers depth ms

end

end VideoRemap.Json
