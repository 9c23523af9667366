import FieldGraph.Text.Invisible

/-!
# Quoted text

A text between quotes, with a backslash form for the quote, the backslash, the
common controls, and every other character that cannot be shown as it is.
-/

namespace FieldGraph.Text

def codePointEscape (c : Char) : String :=
  "\\u\x7b" ++ String.ofList (Nat.toDigits 16 c.toNat) ++ "\x7d"

def isShown (c : Char) : Bool :=
  if c.toNat < 0x80 then 0x20 ≤ c.toNat && c.toNat < 0x7f else !isInvisible c

def escape (c : Char) : String :=
  match c with
  | '"' => "\\\""
  | '\\' => "\\\\"
  | '\n' => "\\n"
  | '\t' => "\\t"
  | '\r' => "\\r"
  | '\x00' => "\\0"
  | c => if isShown c then String.singleton c else codePointEscape c

def quoted (s : String) : String := "\"" ++ String.join (s.toList.map escape) ++ "\""

end FieldGraph.Text
