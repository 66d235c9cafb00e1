import HeapSentry.Json.Value
import HeapSentry.Json.Quoted

/-!
# Writing JSON

One printer serves both layouts; they differ in what stands between the tokens.
-/

namespace HeapSentry.Json

/-- What stands between the tokens. -/
structure Layout where
  /-- Before each item and before the closing bracket, at a nesting depth. -/
  newline : Nat → List Char
  /-- Between a member's name and its value. -/
  colon : List Char

/-- No blanks at all. -/
def Layout.compact : Layout := ⟨fun _ ↦ [], [':']⟩

/-- One item per line, two spaces per level. -/
def Layout.pretty : Layout := ⟨fun depth ↦ '\n' :: List.replicate (2 * depth) ' ', [':', ' ']⟩

mutual

def Value.chars (l : Layout) (depth : Nat) : Value → List Char
  | .null => ['n', 'u', 'l', 'l']
  | .bool true => ['t', 'r', 'u', 'e']
  | .bool false => ['f', 'a', 'l', 's', 'e']
  | .num n => n.text
  | .str s => Quoted.encode s.toList
  | .arr [] => ['[', ']']
  | .arr (v :: vs) =>
    '[' :: (l.newline (depth + 1) ++ (v.chars l (depth + 1) ++ Value.itemChars l depth vs))
  | .obj [] => ['\x7b', '\x7d']
  | .obj ((k, v) :: ms) =>
    '\x7b' :: (l.newline (depth + 1) ++ (Quoted.encode k.toList ++ (l.colon
      ++ (v.chars l (depth + 1) ++ Value.memberChars l depth ms))))

/-- The further items of a list and its closing bracket. -/
def Value.itemChars (l : Layout) (depth : Nat) : List Value → List Char
  | [] => l.newline depth ++ [']']
  | v :: vs =>
    ',' :: (l.newline (depth + 1) ++ (v.chars l (depth + 1) ++ Value.itemChars l depth vs))

/-- The further members of an object and its closing brace. -/
def Value.memberChars (l : Layout) (depth : Nat) : List (String × Value) → List Char
  | [] => l.newline depth ++ ['\x7d']
  | (k, v) :: ms =>
    ',' :: (l.newline (depth + 1) ++ (Quoted.encode k.toList ++ (l.colon
      ++ (v.chars l (depth + 1) ++ Value.memberChars l depth ms))))

end

def Value.compact (v : Value) : String := String.ofList (v.chars .compact 0)

def Value.pretty (v : Value) : String := String.ofList (v.chars .pretty 0)

end HeapSentry.Json
