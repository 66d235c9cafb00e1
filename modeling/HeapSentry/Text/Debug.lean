import HeapSentry.Text.Hex
import HeapSentry.Text.Unprintable

/-!
# Texts in messages

A text is quoted in a message so that every character of it can be seen.
-/

namespace HeapSentry.Text

/-- An escape with the number of a character. -/
def numbered (c : Char) : List Char :=
  ['\\', 'u', '\x7b'] ++ (hex c.toNat).toList ++ ['\x7d']

def shown (c : Char) : List Char :=
  match c with
  | '\x00' => ['\\', '0']
  | '\t' => ['\\', 't']
  | '\n' => ['\\', 'n']
  | '\r' => ['\\', 'r']
  | '"' => ['\\', '"']
  | '\\' => ['\\', '\\']
  | c => if isUnprintable c then numbered c else [c]

def debug (s : String) : String := String.ofList ('"' :: s.toList.flatMap shown ++ ['"'])

end HeapSentry.Text
