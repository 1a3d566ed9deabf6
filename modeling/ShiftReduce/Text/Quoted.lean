/-!
# Quoted text

Text stands in double quotes in diagnostics. Quotes, backslashes, tabs, line
ends and the null character have short escapes; every other control character
is written by its code point in lower-case hexadecimal, and everything else is
written as it is.
-/

namespace ShiftReduce.Text

/-- Control characters: those below the blank, and the delete character. -/
def isControl (c : Char) : Bool := c.val < 0x20 || c.val == 0x7f

/-- One character as it stands between the quotes. -/
def escape (c : Char) : List Char :=
  match c with
  | '"' => ['\\', '"']
  | '\\' => ['\\', '\\']
  | '\n' => ['\\', 'n']
  | '\r' => ['\\', 'r']
  | '\t' => ['\\', 't']
  | '\x00' => ['\\', '0']
  | c =>
    if isControl c then
      ['\\', 'u', '\x7b'] ++ Nat.toDigits 16 c.toNat ++ ['\x7d']
    else [c]

def quote (text : String) : String :=
  String.ofList ('"' :: text.toList.flatMap escape ++ ['"'])

end ShiftReduce.Text
