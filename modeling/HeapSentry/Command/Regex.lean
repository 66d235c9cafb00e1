import HeapSentry.Command.Pattern

/-!
# Regular expressions

Expressions in the two usual notations.  A match is sought from the left; where there are several at
one place, the first choice counts and repetitions take as much as they can.
-/

namespace HeapSentry.Command

inductive Regex where
  | empty
  | char (c : Char)
  | any
  | set (negated : Bool) (ranges : List (Char × Char))
  | lineStart
  | lineEnd
  /-- Between a character of words and one that is not, or within or without words. -/
  | wordEdge (isEdge : Bool)
  | seq (r s : Regex)
  | alt (r s : Regex)
  | repeated (r : Regex) (least : Nat) (most : Option Nat)
  | group (index : Nat) (r : Regex)
  /-- What a group stood for. -/
  | again (index : Nat)
  deriving DecidableEq, Repr

namespace Regex

/-! ## Reading -/

/-- What has been read, how many groups there were, and what follows. -/
abbrev Reading := Regex × Nat × List Char

def wordRanges : List (Char × Char) := Pattern.classRanges "alnum" ++ [('_', '_')]

def escaped (c : Char) : Regex :=
  match c with
  | 'n' => .char '\n'
  | 't' => .char '\t'
  | 'w' => .set false wordRanges
  | 'W' => .set true wordRanges
  | 's' => .set false (Pattern.classRanges "space")
  | 'S' => .set true (Pattern.classRanges "space")
  | 'b' => .wordEdge true
  | 'B' => .wordEdge false
  | c => if '1' ≤ c && c ≤ '9' then .again (c.toNat - 48) else .char c

/-- A set of characters, of which the opening bracket has been read. -/
def brackets? (cs : List Char) : Option (Regex × List Char) :=
  let (negated, cs) := match cs with
    | '^' :: cs => (true, cs)
    | cs => (false, cs)
  (Pattern.ranges? true (cs.map fun c ↦ (c, false))).map fun (rs, n) ↦
    (.set negated rs, cs.drop n)

/-- How often something is repeated, of which the opening brace has been read. -/
def bounds? (extended : Bool) (cs : List Char) : Option (Nat × Option Nat × List Char) := do
  let number (cs : List Char) : List Char × List Char :=
    (cs.takeWhile Char.isDigit, cs.dropWhile Char.isDigit)
  let close (cs : List Char) : Option (List Char) := match cs with
    | '\x7d' :: rest => if extended then some rest else none
    | '\\' :: '\x7d' :: rest => if extended then none else some rest
    | _ => none
  let (first, rest) := number cs
  let least := ((String.ofList first).toNat?).getD 0
  match rest with
  | ',' :: rest =>
    let (last, rest) := number rest
    some (least, (String.ofList last).toNat?, ← close rest)
  | rest => if first.isEmpty then none else some (least, some least, ← close rest)

/-- The repetitions after something. -/
def repeats? (extended : Bool) : Nat → Regex → List Char → Option (Regex × List Char)
  | 0, _, _ => none
  | fuel + 1, r, cs =>
    match extended, cs with
    | _, '*' :: cs => repeats? extended fuel (.repeated r 0 none) cs
    | true, '+' :: cs | false, '\\' :: '+' :: cs =>
      repeats? extended fuel (.repeated r 1 none) cs
    | true, '?' :: cs | false, '\\' :: '?' :: cs =>
      repeats? extended fuel (.repeated r 0 (some 1)) cs
    | true, '\x7b' :: cs | false, '\\' :: '\x7b' :: cs => do
      let (least, most, cs) ← bounds? extended cs
      repeats? extended fuel (.repeated r least most) cs
    | _, cs => some (r, cs)

def isOver (extended : Bool) : List Char → Bool
  | [] => true
  | '|' :: _ | ')' :: _ => extended
  | '\\' :: '|' :: _ | '\\' :: ')' :: _ => !extended
  | _ => false

mutual

/-- Branches of which one has to match. -/
def choice? (extended : Bool) : Nat → Nat → List Char → Option Reading
  | 0, _, _ => none
  | fuel + 1, n, cs => do
    let (r, n, rest) ← branch? extended fuel n true cs
    match extended, rest with
    | true, '|' :: rest | false, '\\' :: '|' :: rest =>
      (choice? extended fuel n rest).map fun (s, n, rest) ↦ (.alt r s, n, rest)
    | _, rest => some (r, n, rest)

/-- Parts that have to match one after the other. -/
def branch? (extended : Bool) : Nat → Nat → Bool → List Char → Option Reading
  | 0, _, _, _ => none
  | fuel + 1, n, atStart, cs =>
    if isOver extended cs then some (.empty, n, cs)
    else do
      let (r, n, rest) ← part? extended fuel n atStart cs
      let (r, rest) ← if r = .lineStart then some (r, rest)
        else repeats? extended fuel r rest
      let (s, n, rest) ← branch? extended fuel n (r = .lineStart) rest
      some (.seq r s, n, rest)

/-- One part without repetitions. -/
def part? (extended : Bool) : Nat → Nat → Bool → List Char → Option Reading
  | 0, _, _, _ => none
  | fuel + 1, n, atStart, cs =>
    match extended, cs with
    | true, '(' :: rest | false, '\\' :: '(' :: rest => do
      let (r, m, rest) ← choice? extended fuel (n + 1) rest
      match extended, rest with
      | true, ')' :: rest | false, '\\' :: ')' :: rest => some (.group (n + 1) r, m, rest)
      | _, _ => none
    | _, '.' :: rest => some (.any, n, rest)
    | _, '[' :: rest => (brackets? rest).map fun (r, rest) ↦ (r, n, rest)
    | _, '\\' :: c :: rest => some (escaped c, n, rest)
    | _, '^' :: rest => some (if extended || atStart then .lineStart else .char '^', n, rest)
    | _, '$' :: rest =>
      some (if extended || isOver extended rest then .lineEnd else .char '$', n, rest)
    | true, '*' :: rest => if atStart then some (.char '*', n, rest) else none
    | _, c :: rest => some (.char c, n, rest)
    | _, [] => none

end

/-- Reads a whole expression. -/
def ofChars? (extended : Bool) (cs : List Char) : Option Regex :=
  match choice? extended (8 * cs.length + 16) 0 cs with
  | some (r, _, []) => some r
  | _ => none

def exactly (cs : List Char) : Regex := cs.foldr (fun c r ↦ .seq (.char c) r) .empty

/-! ## Matching -/

abbrev Groups := List (Nat × List Char)

/-- A line in which a match is sought. -/
structure Subject where
  line : List Char
  ignoresCase : Bool := false

def isWordChar (c : Char) : Bool := c.isAlphanum || c = '_'

def Subject.before (s : Subject) (rest : List Char) : Option Char :=
  if rest.length < s.line.length then s.line[s.line.length - rest.length - 1]? else none

def Subject.same (s : Subject) (a b : Char) : Bool :=
  a = b || (s.ignoresCase && a.toLower = b.toLower)

def Subject.isIn (s : Subject) (ranges : List (Char × Char)) (c : Char) : Bool :=
  let isIn (c : Char) : Bool := ranges.any fun (first, last) ↦ first ≤ c && c ≤ last
  isIn c || (s.ignoresCase && (isIn c.toLower || isIn c.toUpper))

/-- Goes on with what follows a match at a place; the answer is what is left after all. -/
def step (s : Subject) : Nat → Regex → List Char → Groups →
    (List Char → Groups → Option (List Char × Groups)) → Option (List Char × Groups)
  | 0, _, _, _, _ => none
  | fuel + 1, r, cs, gs, next =>
    let one (holds : Char → Bool) : Option (List Char × Groups) := match cs with
      | c :: rest => if holds c then next rest gs else none
      | [] => none
    match r with
    | .empty => next cs gs
    | .char c => one (s.same c)
    | .any => one fun _ ↦ true
    | .set negated ranges => one fun c ↦ negated != s.isIn ranges c
    | .lineStart => if cs.length = s.line.length then next cs gs else none
    | .lineEnd => if cs.isEmpty then next cs gs else none
    | .wordEdge isEdge =>
      let inWord (c : Option Char) : Bool := c.any isWordChar
      if (inWord (s.before cs) != inWord cs.head?) = isEdge then next cs gs else none
    | .seq r t => step s fuel r cs gs fun rest gs ↦ step s fuel t rest gs next
    | .alt r t => step s fuel r cs gs next <|> step s fuel t cs gs next
    | .repeated r least most =>
      if most = some 0 then next cs gs
      else
        let more := step s fuel r cs gs fun rest gs ↦
          if rest.length = cs.length && least = 0 then none
          else step s fuel (.repeated r (least - 1) (most.map (· - 1))) rest gs next
        if least > 0 then more else more <|> next cs gs
    | .group index r => step s fuel r cs gs fun rest gs' ↦
      next rest ((index, cs.take (cs.length - rest.length)) :: gs'.filter (·.1 ≠ index))
    | .again index =>
      let text := (gs.lookup index).getD []
      if text.isPrefixOf cs then next (cs.drop text.length) gs else none

/-- How deep a search may go. -/
def depthLimit : Nat := 100000

/-- The match at a place: its text, what its groups stand for, and what follows. -/
def matchAt? (r : Regex) (s : Subject) (cs : List Char) : Option (List Char × Groups × List Char) :=
  (step s depthLimit r cs [] fun rest gs ↦ some (rest, gs)).map fun (rest, gs) ↦
    (cs.take (cs.length - rest.length), gs, rest)

/-- A part of a line: a character that belongs to no match, or a match. -/
inductive Segment where
  | plain (c : Char)
  | matched (text : List Char) (groups : Groups)

/-- The parts of what is left of a line.  A match without text does not follow another match. -/
def segments (r : Regex) (s : Subject) : Nat → Bool → List Char → List Segment
  | 0, _, cs => cs.map .plain
  | fuel + 1, afterMatch, cs =>
    let pass : List Segment := match cs with
      | [] => []
      | c :: rest => .plain c :: segments r s fuel false rest
    match matchAt? r s cs with
    | none => pass
    | some ([], gs, _) => if afterMatch then pass else .matched [] gs :: pass
    | some (text, gs, rest) => .matched text gs :: segments r s fuel true rest

def split (r : Regex) (s : Subject) : List Segment :=
  segments r s (2 * s.line.length + 2) false s.line

def occursIn (r : Regex) (s : Subject) : Bool := (r.split s).any (· matches .matched ..)

end Regex

end HeapSentry.Command
