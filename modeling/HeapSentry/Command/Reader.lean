import HeapSentry.Command.Arithmetic
import HeapSentry.Command.Script

/-!
# Reading scripts

A reader takes characters from the front of a text and returns what it has read together with the
rest; a text that is no script has no reading.
-/

namespace HeapSentry.Command.Script

/-! ## Characters -/

def isBlank (c : Char) : Bool := c = ' ' || c = '\t'

def endsWord (c : Char) : Bool := isBlank c || "\n;&|<>()".contains c

/-- The characters that quote others or start an expansion. -/
def isMark (c : Char) : Bool := "'\"\\$\x60".contains c

def skipBlanks : List Char → List Char
  | '\\' :: '\n' :: cs => skipBlanks cs
  | c :: cs => if isBlank c then skipBlanks cs else c :: cs
  | [] => []

def skip (cs : List Char) : List Char :=
  match skipBlanks cs with
  | '#' :: cs => cs.dropWhile (· ≠ '\n')
  | cs => cs

/-- Goes past lines without anything to do. -/
def skipLines : Nat → List Char → List Char
  | 0, cs => cs
  | fuel + 1, cs =>
    match skip cs with
    | '\n' :: cs => skipLines fuel cs
    | cs => cs

def toNextCommand (cs : List Char) : List Char := skipLines cs.length cs

/-! ## Reserved words -/

def reservedWords : List String :=
  ["if", "then", "elif", "else", "fi", "while", "until", "do", "done", "for", "in", "case", "esac",
    "!", "\x7b", "\x7d"]

/-- The words after which a list of commands is over. -/
def closingWords : List String :=
  ["then", "elif", "else", "fi", "do", "done", "esac", "\x7d"]

/-- A word without quotes at the start of a text, if it is reserved. -/
def reserved? (cs : List Char) : Option (String × List Char) :=
  let word := cs.takeWhile fun c ↦ !endsWord c && !isMark c
  let rest := cs.drop word.length
  if reservedWords.contains (String.ofList word) && !(rest.head?.map isMark).getD false then
    some (String.ofList word, rest)
  else none

def expect? (word : String) (cs : List Char) : Option (List Char) :=
  match reserved? (toNextCommand cs) with
  | some (found, rest) => if found = word then some rest else none
  | none => none

def isOver (cs : List Char) : Bool :=
  match cs with
  | [] | ')' :: _ | ';' :: ';' :: _ => true
  | cs => (reserved? cs).any fun (word, _) ↦ closingWords.contains word

/-! ## Parameters -/

def parameter? (c : Char) : Option Parameter :=
  if c.isDigit then some (.positional (c.toNat - 48))
  else
    match c with
    | '@' => some (.all false)
    | '*' => some (.all true)
    | '#' => some .count
    | '?' => some .status
    | '$' => some .process
    | '!' => some .background
    | '-' => some .options
    | _ => none

def name? (cs : List Char) : Option (String × List Char) :=
  if (cs.head?.map Arithmetic.isNameStart).getD false then
    let name := cs.takeWhile Arithmetic.isNameChar
    some (String.ofList name, cs.drop name.length)
  else none

/-- A parameter at the start of a text; in braces it may have several digits. -/
def anyParameter? (cs : List Char) : Option (Parameter × List Char) :=
  match name? cs with
  | some (name, rest) => some (.variable name, rest)
  | none =>
    match cs.takeWhile Char.isDigit with
    | [] => do
      let c ← cs.head?
      some (← parameter? c, cs.tail)
    | ds => (String.ofList ds).toNat?.map fun n ↦ (.positional n, cs.drop ds.length)

def modifier : List Char → Modifier × List Char
  | ':' :: '-' :: cs => (.orElse true, cs)
  | ':' :: '=' :: cs => (.orAssign true, cs)
  | ':' :: '?' :: cs => (.orFail true, cs)
  | ':' :: '+' :: cs => (.ifPresent true, cs)
  | '-' :: cs => (.orElse false, cs)
  | '=' :: cs => (.orAssign false, cs)
  | '?' :: cs => (.orFail false, cs)
  | '+' :: cs => (.ifPresent false, cs)
  | '#' :: '#' :: cs => (.cutStart true, cs)
  | '#' :: cs => (.cutStart false, cs)
  | '%' :: '%' :: cs => (.cutEnd true, cs)
  | '%' :: cs => (.cutEnd false, cs)
  | '\x7d' :: cs => (.plain, '\x7d' :: cs)
  | cs => (.unknown, cs)

/-! ## Words -/

/-- Where the text ends that is being read. -/
inductive Closing where
  /-- Before a character that ends words. -/
  | word
  | quote
  | brace (quoted : Bool)
  /-- Nowhere before the end. -/
  | document

namespace Closing

def quoted : Closing → Bool
  | .word => false
  | .brace quoted => quoted
  | .quote | .document => true

def mayEnd : Closing → Bool
  | .word | .document => true
  | .quote | .brace _ => false

/-- What is left if a character closes the text. -/
def close? (k : Closing) (c : Char) (rest : List Char) : Option (List Char) :=
  match k with
  | .word => if endsWord c then some (c :: rest) else none
  | .quote => if c = '"' then some rest else none
  | .brace _ => if c = '\x7d' then some rest else none
  | .document => none

/-- Whether a backslash quotes a character. -/
def escapes (k : Closing) (c : Char) : Bool :=
  match k with
  | .word | .brace false => true
  | .quote => "$\x60\"\\".contains c
  | .brace true => "$\x60\"\\\x7d".contains c
  | .document => "$\x60\\".contains c

end Closing

/-- The text up to a character, which is not part of it. -/
def upTo? (stop : Char) (cs : List Char) : Option (List Char × List Char) :=
  match cs.dropWhile (· ≠ stop) with
  | [] => none
  | _ :: rest => some (cs.takeWhile (· ≠ stop), rest)

/-- The script in backquotes, of which the first has been read. -/
def backquoted? (quoted : Bool) : List Char → Option (List Char × List Char)
  | [] => none
  | '\\' :: c :: cs => do
    let (text, rest) ← backquoted? quoted cs
    if "$\x60\\".contains c || (quoted && c = '"') then some (c :: text, rest)
    else some ('\\' :: c :: text, rest)
  | c :: cs =>
    if c = '\x60' then some ([], cs)
    else (backquoted? quoted cs).map fun (text, rest) ↦ (c :: text, rest)

/-- The text up to two closing parentheses. -/
def expression? : Nat → List Char → Option (List Char × List Char)
  | 0, ')' :: ')' :: cs => some ([], cs)
  | 0, ')' :: _ => none
  | depth + 1, ')' :: cs => (expression? depth cs).map fun (text, rest) ↦ (')' :: text, rest)
  | depth, '(' :: cs => (expression? (depth + 1) cs).map fun (text, rest) ↦ ('(' :: text, rest)
  | depth, c :: cs => (expression? depth cs).map fun (text, rest) ↦ (c :: text, rest)
  | _, [] => none

/-- The text between quotes with escapes; the first quote has been read. -/
def escapedQuote? : List Char → Option (List Char × List Char)
  | [] => none
  | '\'' :: cs => some ([], cs)
  | '\\' :: c :: cs => (escapedQuote? cs).map fun (text, rest) ↦ ('\\' :: c :: text, rest)
  | c :: cs => (escapedQuote? cs).map fun (text, rest) ↦ (c :: text, rest)

/-- Quoted pieces; if there are none, there is still an empty text. -/
def quotedPieces (w : Word) : Word := if w.isEmpty then [(.text [], true)] else w

/-- The text of a word that is to be taken as it is, and whether a part of it is quoted. -/
def literal (w : Word) : List Char × Bool :=
  (w.flatMap fun
    | (.text cs, _) => cs
    | _ => [], w.any Prod.snd)

/-- The lines up to a delimiter, and the rest after it. -/
def hereDocument (delimiter : List Char) (cutTabs : Bool) : Nat → List Char → List Char × List Char
  | 0, cs => (cs, [])
  | fuel + 1, cs =>
    let line := cs.takeWhile (· ≠ '\n')
    let rest := cs.drop (line.length + 1)
    let line := if cutTabs then line.dropWhile (· = '\t') else line
    if line = delimiter then ([], rest)
    else if rest.isEmpty then (if line.isEmpty then [] else line ++ ['\n'], [])
    else
      let (text, rest) := hereDocument delimiter cutTabs fuel rest
      (line ++ '\n' :: text, rest)

/-- The signs of redirections: which descriptor they are about, and what follows them. -/
def redirection? (d : Dialect) (cs : List Char) :
    Option (Nat × RedirectionKind × Bool × List Char) :=
  let ds := cs.takeWhile Char.isDigit
  let number (default : Nat) : Nat := ((String.ofList ds).toNat?).getD default
  match cs.drop ds.length with
  | '<' :: '<' :: '<' :: rest =>
    if d = .extended then some (number 0, .text, false, rest) else none
  | '<' :: '<' :: rest => some (number 0, .text, true, rest)
  | '<' :: '&' :: rest => some (number 0, .duplicate, false, rest)
  | '<' :: '>' :: rest => some (number 0, .output true, false, rest)
  | '<' :: rest => some (number 0, .input, false, rest)
  | '>' :: '>' :: rest => some (number 1, .output true, false, rest)
  | '>' :: '&' :: rest => some (number 1, .duplicate, false, rest)
  | '>' :: '|' :: rest => some (number 1, .output false, false, rest)
  | '>' :: rest => some (number 1, .output false, false, rest)
  | _ => none

/-! ## Commands -/

/-- What separates commands: whether the one before goes to the background. -/
def separator? : List Char → Option (Bool × List Char)
  | ';' :: ';' :: _ => none
  | ';' :: cs => some (false, cs)
  | '\n' :: cs => some (false, cs)
  | '&' :: '&' :: _ => none
  | '&' :: cs => some (true, cs)
  | _ => none

/-- The name of a function at the start of a text. -/
def functionName? (cs : List Char) : Option (String × List Char) := do
  let (name, rest) ← name? cs
  match skipBlanks rest with
  | '(' :: rest =>
    match skipBlanks rest with
    | ')' :: rest => some (name, rest)
    | _ => none
  | _ => none

/-- A variable that is assigned at the start of a text. -/
def assigned? (cs : List Char) : Option (String × List Char) :=
  match name? cs with
  | some (name, '=' :: rest) => some (name, rest)
  | _ => none

/-- The parts of a simple command. -/
structure Parts where
  assignments : List (String × Word) := []
  words : List Word := []
  redirections : List (Redirection Word) := []

def Parts.isEmpty (p : Parts) : Bool :=
  p.assignments.isEmpty && p.words.isEmpty && p.redirections.isEmpty

abbrev Reader (α : Type) := List Char → Option (α × List Char)

mutual

/-- The pieces up to where a text closes. -/
def pieces? (d : Dialect) : Nat → Closing → Reader Word
  | 0, _, _ => none
  | _ + 1, k, [] => if k.mayEnd then some ([], []) else none
  | fuel + 1, k, c :: cs =>
    match k.close? c cs with
    | some rest => some ([], rest)
    | none => do
      let (found, rest) ← piece? d fuel k c cs
      let (others, rest) ← pieces? d fuel k rest
      some (found ++ others, rest)

/-- What a character stands for, together with those after it. -/
def piece? (d : Dialect) : Nat → Closing → Char → Reader Word
  | 0, _, _, _ => none
  | fuel + 1, k, c, cs =>
    match c, cs with
    | '\\', '\n' :: cs => some ([], cs)
    | '\\', e :: cs =>
      some ([(.text (if k.escapes e then [e] else ['\\', e]), true)], cs)
    | '$', cs => expansion? d fuel k cs
    | '\'', cs =>
      if k.quoted then some ([(.text [c], true)], cs)
      else (upTo? '\'' cs).map fun (text, rest) ↦ ([(.text text, true)], rest)
    | '"', cs =>
      if k matches .document then some ([(.text [c], true)], cs)
      else (pieces? d fuel .quote cs).map fun (w, rest) ↦ (quotedPieces w, rest)
    | c, cs =>
      if c = '\x60' then do
        let (text, rest) ← backquoted? k.quoted cs
        let (body, left) ← list? d fuel (toNextCommand text)
        if left.isEmpty then some ([(.output body, k.quoted)], rest) else none
      else some ([(.text [c], k.quoted)], cs)

/-- What follows a dollar sign. -/
def expansion? (d : Dialect) : Nat → Closing → Reader Word
  | 0, _, _ => none
  | fuel + 1, k, cs =>
    match cs with
    | '(' :: '(' :: rest =>
      match expression? 0 rest with
      | some (text, rest) => do
        let (w, _) ← pieces? d fuel .document text
        some ([(.arithmetic w, k.quoted)], rest)
      | none => substitution? d fuel k ('(' :: rest)
    | '(' :: rest => substitution? d fuel k rest
    | '\x7b' :: rest => braces? d fuel k rest
    | '\'' :: rest =>
      if d = .extended && !k.quoted then do
        let (text, rest) ← escapedQuote? rest
        let bytes := ({ zeroFirst := false, extended := true, quotes := true } :
          EscapeRules).unescape text
        some ([(.text ((String.fromUTF8? (bytesOf bytes.1)).getD "").toList, true)], rest)
      else some ([(.text ['$'], k.quoted)], cs)
    | cs =>
      match name? cs with
      | some (name, rest) => some ([(.parameter (.variable name) .plain [], k.quoted)], rest)
      | none =>
        match cs with
        | c :: rest =>
          match parameter? c with
          | some p => some ([(.parameter p .plain [], k.quoted)], rest)
          | none => some ([(.text ['$'], k.quoted)], c :: rest)
        | [] => some ([(.text ['$'], k.quoted)], [])

/-- A command in parentheses, of which the first has been read. -/
def substitution? (d : Dialect) : Nat → Closing → Reader Word
  | 0, _, _ => none
  | fuel + 1, k, cs => do
    let (body, rest) ← list? d fuel (toNextCommand cs)
    match rest with
    | ')' :: rest => some ([(.output body, k.quoted)], rest)
    | _ => none

/-- A parameter in braces, of which the first has been read. -/
def braces? (d : Dialect) : Nat → Closing → Reader Word
  | 0, _, _ => none
  | fuel + 1, k, cs =>
    let measured := match cs with
      | '#' :: cs =>
        match anyParameter? cs with
        | some (p, '\x7d' :: rest) => some (p, rest)
        | _ => none
      | _ => none
    match measured with
    | some (p, rest) => some ([(.parameter p .length [], k.quoted)], rest)
    | none => do
      let (p, m, rest) := match anyParameter? cs with
        | some (p, rest) =>
          let (m, rest) := modifier rest
          (p, m, rest)
        | none => (.count, .unknown, cs)
      let quoted := match m with
        | .cutStart _ | .cutEnd _ => false
        | _ => k.quoted
      let (argument, rest) ← pieces? d fuel (.brace quoted) rest
      some ([(.parameter p m argument, k.quoted)], rest)

def word? (d : Dialect) : Nat → Reader Word
  | 0, _ => none
  | fuel + 1, cs =>
    match cs with
    | c :: _ => if endsWord c then none else pieces? d fuel .word cs
    | [] => none

/-- A redirection, if the text starts with one. -/
def redirect? (d : Dialect) : Nat → Reader (Option (List (Redirection Word)))
  | 0, _ => none
  | fuel + 1, cs =>
    match cs, d with
    | '&' :: '>' :: rest, .extended => do
      let (w, rest) ← word? d fuel (skipBlanks rest)
      some (some [⟨1, .output false, w⟩, ⟨2, .duplicate, [(.text ['1'], false)]⟩], rest)
    | cs, d =>
      match redirection? d cs with
      | none => some (none, cs)
      | some (descriptor, .text, true, rest) => do
        let (cutTabs, rest) := match rest with
          | '-' :: rest => (true, rest)
          | rest => (false, rest)
        let (w, rest) ← word? d fuel (skipBlanks rest)
        let (delimiter, quoted) := literal w
        let line := rest.takeWhile (· ≠ '\n')
        let below := rest.drop (line.length + 1)
        let (text, after) := hereDocument delimiter cutTabs below.length below
        let w ← if quoted then some [(.text text, true)]
          else (pieces? d fuel .document text).map Prod.fst
        some (some [⟨descriptor, .text, w⟩], line ++ '\n' :: after)
      | some (descriptor, .text, false, rest) => do
        let (w, rest) ← word? d fuel (skipBlanks rest)
        some (some [⟨descriptor, .text, w ++ [(.text ['\n'], true)]⟩], rest)
      | some (descriptor, kind, _, rest) => do
        let (w, rest) ← word? d fuel (skipBlanks rest)
        some (some [⟨descriptor, kind, w⟩], rest)

def redirections? (d : Dialect) : Nat → Reader (List (Redirection Word))
  | 0, _ => none
  | fuel + 1, cs => do
    match ← redirect? d fuel (skip cs) with
    | (none, _) => some ([], cs)
    | (some rs, rest) => do
      let (others, rest) ← redirections? d fuel rest
      some (rs ++ others, rest)

/-- The parts of a simple command, after those that have been read. -/
def parts? (d : Dialect) : Nat → Parts → Reader Parts
  | 0, _, _ => none
  | fuel + 1, p, cs => do
    let cs := skip cs
    match ← redirect? d fuel cs with
    | (some rs, rest) =>
      parts? d fuel { p with redirections := p.redirections ++ rs } rest
    | (none, _) =>
      match if p.words.isEmpty then assigned? cs else none with
      | some (name, rest) => do
        let (w, rest) ← pieces? d fuel .word rest
        parts? d fuel { p with assignments := p.assignments ++ [(name, w)] } rest
      | none =>
        match word? d fuel cs with
        | some (w, rest) => parts? d fuel { p with words := p.words ++ [w] } rest
        | none => if (cs.head?.map endsWord).getD true then some (p, cs) else none

/-- Commands up to where a list is over; there may be none. -/
def list? (d : Dialect) : Nat → Reader Script
  | 0, _ => none
  | fuel + 1, cs =>
    let cs := toNextCommand cs
    if isOver cs then some (.nothing, cs)
    else do
      let (c, rest) ← andOr? d fuel cs
      let rest := skip rest
      match separator? rest with
      | some (detached, rest) => do
        let (others, rest) ← list? d fuel rest
        some (.sequence (if detached then .background c else c) others, rest)
      | none => if isOver rest then some (c, rest) else none

/-- Commands of which there has to be one. -/
def someList? (d : Dialect) : Nat → Reader Script
  | 0, _ => none
  | fuel + 1, cs => if isOver (toNextCommand cs) then none else list? d fuel cs

/-- Commands that depend on how those before them end. -/
def andOr? (d : Dialect) : Nat → Reader Script
  | 0, _ => none
  | fuel + 1, cs => do
    let (first, rest) ← pipeline? d fuel cs
    others? d fuel first rest

/-- What follows a command that others may depend on. -/
def others? (d : Dialect) : Nat → Script → Reader Script
  | 0, _, _ => none
  | fuel + 1, first, cs =>
    match skip cs with
    | '&' :: '&' :: rest => do
      let (second, rest) ← pipeline? d fuel (toNextCommand rest)
      others? d fuel (.ifSucceeds first second) rest
    | '|' :: '|' :: rest => do
      let (second, rest) ← pipeline? d fuel (toNextCommand rest)
      others? d fuel (.ifFails first second) rest
    | rest => some (first, rest)

/-- Commands whose output goes to the next one. -/
def pipeline? (d : Dialect) : Nat → Reader Script
  | 0, _ => none
  | fuel + 1, cs =>
    match reserved? cs with
    | some ("!", rest) =>
      (pipeline? d fuel (skipBlanks rest)).map fun (c, rest) ↦ (.negation c, rest)
    | _ => do
      let (first, rest) ← command? d fuel cs
      piped? d fuel first rest

/-- What follows a command whose output may go to another one. -/
def piped? (d : Dialect) : Nat → Script → Reader Script
  | 0, _, _ => none
  | fuel + 1, first, cs =>
    match skip cs with
    | '|' :: '|' :: rest => some (first, '|' :: '|' :: rest)
    | '|' :: rest => do
      let (second, rest) ← command? d fuel (toNextCommand rest)
      piped? d fuel (.pipe first second) rest
    | rest => some (first, rest)

def command? (d : Dialect) : Nat → Reader Script
  | 0, _ => none
  | fuel + 1, cs => do
    let compound? : Option (Script × List Char) ← match reserved? cs, cs with
      | some ("if", rest), _ => (conditional? d fuel rest).map some
      | some ("while", rest), _ => (loop? d fuel true rest).map some
      | some ("until", rest), _ => (loop? d fuel false rest).map some
      | some ("for", rest), _ => (each? d fuel rest).map some
      | some ("case", rest), _ => (cases? d fuel rest).map some
      | some ("\x7b", rest), _ => do
        let (body, rest) ← someList? d fuel rest
        (expect? "\x7d" rest).map fun rest ↦ some (body, rest)
      | some _, _ => none
      | none, '(' :: rest => do
        let (body, rest) ← someList? d fuel rest
        match rest with
        | ')' :: rest => some (some (.apart body, rest))
        | _ => none
      | none, cs =>
        match functionName? cs with
        | some (name, rest) =>
          (command? d fuel (toNextCommand rest)).map fun (body, rest) ↦
            some (.function name body, rest)
        | none => some none
    match compound? with
    | some (.function name body, rest) => some (.function name body, rest)
    | some (c, rest) => do
      let (rs, rest) ← redirections? d fuel rest
      some (if rs.isEmpty then c else .redirected c rs, rest)
    | none => do
      let (p, rest) ← parts? d fuel {} cs
      if p.isEmpty then none
      else some (.simple p.assignments p.words p.redirections, rest)

/-- What follows the word that starts a choice. -/
def conditional? (d : Dialect) : Nat → Reader Script
  | 0, _ => none
  | fuel + 1, cs => do
    let (test, rest) ← someList? d fuel cs
    let (yes, rest) ← someList? d fuel (← expect? "then" rest)
    match reserved? rest with
    | some ("elif", rest) =>
      (conditional? d fuel rest).map fun (no, rest) ↦ (.choice test yes no, rest)
    | some ("else", rest) => do
      let (no, rest) ← someList? d fuel rest
      (expect? "fi" rest).map fun rest ↦ (.choice test yes no, rest)
    | some ("fi", rest) => some (.choice test yes (.simple [] [] []), rest)
    | _ => none

/-- What follows the word that starts a loop. -/
def loop? (d : Dialect) : Nat → Bool → Reader Script
  | 0, _, _ => none
  | fuel + 1, whileSucceeds, cs => do
    let (test, rest) ← someList? d fuel cs
    let (body, rest) ← body? d fuel rest
    some (.loop whileSucceeds test body, rest)

def body? (d : Dialect) : Nat → Reader Script
  | 0, _ => none
  | fuel + 1, cs => do
    let (body, rest) ← someList? d fuel (← expect? "do" cs)
    (expect? "done" rest).map fun rest ↦ (body, rest)

/-- What follows the word that starts a loop through words. -/
def each? (d : Dialect) : Nat → Reader Script
  | 0, _ => none
  | fuel + 1, cs => do
    let (name, rest) ← name? (skipBlanks cs)
    let (words, rest) ← match reserved? (toNextCommand rest) with
      | some ("in", rest) => do
        let (p, rest) ← parts? d fuel { words := [[]] } rest
        let rest ← match rest with
          | ';' :: rest | '\n' :: rest => some rest
          | _ => none
        if p.redirections.isEmpty then some (some (p.words.drop 1), rest) else none
      | _ =>
        match skip rest with
        | ';' :: rest => some (none, rest)
        | rest => some (none, rest)
    let (body, rest) ← body? d fuel rest
    some (.each name words body, rest)

/-- What follows the word that starts a choice by pattern. -/
def cases? (d : Dialect) : Nat → Reader Script
  | 0, _ => none
  | fuel + 1, cs => do
    let (w, rest) ← word? d fuel (skipBlanks cs)
    let rest ← expect? "in" rest
    (branches? d fuel rest).map fun (bs, rest) ↦ (.cases w bs, rest)

def branches? (d : Dialect) : Nat → Reader (List Branch)
  | 0, _ => none
  | fuel + 1, cs =>
    let cs := toNextCommand cs
    match reserved? cs with
    | some ("esac", rest) => some ([], rest)
    | _ => do
      let cs := match cs with
        | '(' :: cs => skipBlanks cs
        | cs => cs
      let (patterns, rest) ← patterns? d fuel cs
      let (body, rest) ← list? d fuel rest
      match rest with
      | ';' :: ';' :: rest =>
        (branches? d fuel rest).map fun (bs, rest) ↦ ((patterns, body) :: bs, rest)
      | rest => (expect? "esac" rest).map fun rest ↦ ([(patterns, body)], rest)

/-- The patterns of one possibility. -/
def patterns? (d : Dialect) : Nat → Reader (List Word)
  | 0, _ => none
  | fuel + 1, cs => do
    let (w, rest) ← word? d fuel (skipBlanks cs)
    match skipBlanks rest with
    | '|' :: rest => (patterns? d fuel rest).map fun (ws, rest) ↦ (w :: ws, rest)
    | ')' :: rest => some ([w], rest)
    | _ => none

end

/-- The commands of a line, which may go on below it. -/
def line? (d : Dialect) : Nat → Reader Script
  | 0, _ => none
  | fuel + 1, cs => do
    let (c, rest) ← andOr? d fuel cs
    match skip rest with
    | [] => some (c, [])
    | '\n' :: rest => some (c, rest)
    | rest => do
      let (detached, rest) ← separator? rest
      let c := if detached then .background c else c
      match skip rest with
      | [] => some (c, [])
      | '\n' :: rest => some (c, rest)
      | rest => (line? d fuel rest).map fun (others, rest) ↦ (.sequence c others, rest)

/-- The commands of the first line that has some; a script is run line by line. -/
def nextLine? (d : Dialect) (cs : List Char) : Option (Script × List Char) :=
  line? d (16 * cs.length + 64) cs

end HeapSentry.Command.Script
