/-!
# Patterns

A pattern stands for texts: a star for any run of characters, a question mark for any one, brackets
for one of some characters.  Quoted characters stand for themselves.
-/

namespace HeapSentry.Command

/-- A character of a text, and whether it was quoted. -/
abbrev MarkedChar := Char × Bool

inductive PatternItem where
  | exactly (c : Char)
  | anyOne
  | anyRun
  /-- A character in one of some ranges, or in none of them. -/
  | oneOf (negated : Bool) (ranges : List (Char × Char))
  deriving DecidableEq, Repr

abbrev Pattern := List PatternItem

namespace Pattern

def isSpecial (cs : List MarkedChar) : Bool :=
  cs.any fun (c, quoted) ↦ !quoted && "*?[".contains c

def classRanges (name : String) : List (Char × Char) :=
  match name with
  | "upper" => [('A', 'Z')]
  | "lower" => [('a', 'z')]
  | "alpha" => [('A', 'Z'), ('a', 'z')]
  | "digit" => [('0', '9')]
  | "alnum" => [('0', '9'), ('A', 'Z'), ('a', 'z')]
  | "xdigit" => [('0', '9'), ('A', 'F'), ('a', 'f')]
  | "space" => [('\t', '\r'), (' ', ' ')]
  | "blank" => [('\t', '\t'), (' ', ' ')]
  | "punct" => [('!', '/'), (':', '@'), ('[', '\x60'), ('\x7b', '~')]
  | "print" => [(' ', '~')]
  | "graph" => [('!', '~')]
  | "cntrl" => [('\x00', '\x1f'), ('\x7f', '\x7f')]
  | _ => []

/-- The name of a class whose start has been read, and how many characters it takes to its end. -/
def className? (cs : List MarkedChar) : Option (String × Nat) :=
  let name := cs.takeWhile fun (c, _) ↦ c.isAlpha
  match cs.drop name.length with
  | (':', _) :: (']', _) :: _ => some (String.ofList (name.map Prod.fst), name.length + 2)
  | _ => none

/-- The ranges up to the closing bracket, and how many characters they take.  A bracket at the start
is one of the characters. -/
def ranges? (atStart : Bool) : List MarkedChar → Option (List (Char × Char) × Nat)
  | [] => none
  | ('[', false) :: (':', false) :: cs =>
    match className? cs with
    | some (name, n) =>
      (ranges? false (cs.drop n)).map fun (rs, m) ↦ (classRanges name ++ rs, n + m + 2)
    | none => (ranges? false ((':', false) :: cs)).map fun (rs, m) ↦ (('[', '[') :: rs, m + 1)
  | (c, quoted) :: ('-', false) :: (last, lastQuoted) :: cs =>
    if c = ']' && !quoted && !atStart then some ([], 1)
    else if last = ']' && !lastQuoted then some ([(c, c), ('-', '-')], 3)
    else (ranges? false cs).map fun (rs, n) ↦ ((c, last) :: rs, n + 3)
  | (c, quoted) :: cs =>
    if c = ']' && !quoted && !atStart then some ([], 1)
    else (ranges? false cs).map fun (rs, n) ↦ ((c, c) :: rs, n + 1)
termination_by cs => cs.length
decreasing_by all_goals (simp only [List.length_drop, List.length_cons]; omega)

/-- An item of brackets, of which the opening one has been read, and how many characters it takes. -/
def brackets? (cs : List MarkedChar) : Option (PatternItem × Nat) :=
  match cs with
  | ('!', false) :: rest | ('^', false) :: rest =>
    (ranges? true rest).map fun (rs, n) ↦ (.oneOf true rs, n + 1)
  | cs => (ranges? true cs).map fun (rs, n) ↦ (.oneOf false rs, n)

/-- The pattern that a text is.  A bracket that is not closed stands for itself. -/
def ofChars : List MarkedChar → Pattern
  | [] => []
  | (c, true) :: cs => .exactly c :: ofChars cs
  | ('*', false) :: cs => .anyRun :: ofChars cs
  | ('?', false) :: cs => .anyOne :: ofChars cs
  | ('[', false) :: cs =>
    match brackets? cs with
    | some (item, n) => item :: ofChars (cs.drop n)
    | none => .exactly '[' :: ofChars cs
  | (c, false) :: cs => .exactly c :: ofChars cs
termination_by cs => cs.length
decreasing_by all_goals (simp only [List.length_drop, List.length_cons]; omega)

def PatternItem.admits (c : Char) : PatternItem → Bool
  | .exactly d => c = d
  | .anyOne | .anyRun => true
  | .oneOf negated ranges => negated != ranges.any fun (first, last) ↦ first ≤ c && c ≤ last

def accepts : Pattern → List Char → Bool
  | [], cs => cs.isEmpty
  | .anyRun :: p, [] => accepts p []
  | .anyRun :: p, c :: cs => accepts p (c :: cs) || accepts (.anyRun :: p) cs
  | _ :: _, [] => false
  | item :: p, c :: cs => PatternItem.admits c item && accepts p cs
termination_by p cs => p.length + cs.length

/-- A text without a part at its start that the pattern stands for. -/
def cutStart (p : Pattern) (longest : Bool) (cs : List Char) : List Char :=
  let lengths := (List.range (cs.length + 1)).filter fun n ↦ p.accepts (cs.take n)
  match if longest then lengths.getLast? else lengths.head? with
  | some n => cs.drop n
  | none => cs

/-- A text without a part at its end that the pattern stands for. -/
def cutEnd (p : Pattern) (longest : Bool) (cs : List Char) : List Char :=
  let lengths := (List.range (cs.length + 1)).filter fun n ↦ p.accepts (cs.drop n)
  match if longest then lengths.head? else lengths.getLast? with
  | some n => cs.take n
  | none => cs

end Pattern

end HeapSentry.Command
