import LayerQuery.Text.Unprintable
/-!
# Text quoted in messages

A message shows a text between double quotes on one line: quotes and
backslashes are preceded by a backslash, four control characters have
letters, and every other character that is not shown as itself is
written by its hexadecimal number, as `\u{feff}`.
-/

namespace LayerQuery

namespace Text

/-- The digits of `n` in base sixteen, in small letters. -/
def hex (n : Nat) : List Char :=
  Nat.toDigits 16 n

/-- One character as it stands between the quotes. -/
def quotedChar (c : Char) : List Char :=
  match c with
  | '"' => ['\\', '"']
  | '\\' => ['\\', '\\']
  | '\x00' => ['\\', '0']
  | '\t' => ['\\', 't']
  | '\n' => ['\\', 'n']
  | '\r' => ['\\', 'r']
  | c =>
    if isUnprintable c then ['\\', 'u', '\x7b'] ++ hex c.toNat ++ ['\x7d'] else [c]

/-- A text in double quotes, fit for one line of a message. -/
def quoted (s : String) : String :=
  String.ofList ('"' :: s.toList.flatMap quotedChar ++ ['"'])

end Text

end LayerQuery
