import HeapSentry.Command.PrintFormat
import HeapSentry.Command.Tool.Basic
import HeapSentry.Digest.Sha256
import HeapSentry.Text.Hex

/-!
# Tools for text

Writing texts, and showing parts or facts of files.  Files that are not named are the input.
-/

namespace HeapSentry.Command.Tool

open Storage

/-! ## Writing -/

/-- The options that `echo` knows: whether the line ends, and whether escapes are carried out. -/
def echoOptions (escapes : Bool) : Bool → Bool → List String → Bool × Bool × List String
  | line, carried, [] => (line, carried, [])
  | line, carried, word :: words =>
    match word.toList with
    | '-' :: c :: cs =>
      if (c :: cs).all fun c ↦ c = 'n' || (escapes && (c = 'e' || c = 'E')) then
        let carried := (c :: cs).foldl
          (fun b c ↦ if c = 'e' then true else if c = 'E' then false else b) carried
        echoOptions escapes (line && !(c :: cs).contains 'n') carried words
      else (line, carried, word :: words)
    | _ => (line, carried, word :: words)

/-- Writes words, with escapes carried out if asked to. -/
def echo : Tool := fun c ↦
  let (line, carried, words) := echoOptions true true false c.arguments
  let text := " ".intercalate words
  let rules : EscapeRules := { zeroFirst := true, extended := true }
  let (bytes, ended) := if carried then rules.unescape text.toList
    else (text.toUTF8.toList, false)
  return ⟨.success, bytesOf (if line && !ended then bytes ++ utf8 '\n' else bytes), false⟩

/-- Writes words with escapes carried out; only the first may ask for no end of the line. -/
def plainEcho : Tool := fun c ↦
  let (line, words) := match c.arguments with
    | "-n" :: words => (false, words)
    | words => (true, words)
  let rules : EscapeRules := { zeroFirst := true, extended := false }
  let (bytes, ended) := rules.unescape (" ".intercalate words).toList
  return ⟨.success, bytesOf (if line && !ended then bytes ++ utf8 '\n' else bytes), false⟩

/-- Writes arguments by a format; `unsound` is the code for a format with unknown directives. -/
def printWith (rules : EscapeRules) (unsound : UInt8) : Tool := fun c ↦
  let printed (format : String) (args : List String) : OnMachine Ending :=
    let arguments := { rules with zeroFirst := true, quotes := false }
    let p := PrintFormat.all rules arguments format.toList (args.length + 1) args
    let code := if !p.sound then unsound else if p.fine then 0 else 1
    return ⟨.exited code, bytesOf p.bytes, false⟩
  match c.arguments with
  | [] | ["--"] => return ⟨.exited 2, .empty, false⟩
  | "--" :: format :: args => printed format args
  | format :: args =>
    if format.startsWith "-" && format.length > 1 then return ⟨.exited 2, .empty, false⟩
    else printed format args

def print : Tool := printWith { zeroFirst := false, extended := true, quotes := true } 1

def plainPrint : Tool := printWith { zeroFirst := false, extended := false } 2

/-- The separator and the width that a row of numbers is asked to have, and what follows. -/
def rowOptions (separator : String) (wide : Bool) : List String → String × Bool × List String
  | "-w" :: rest => rowOptions separator true rest
  | "-s" :: text :: rest => rowOptions text wide rest
  | argument :: rest =>
    match argument.toList with
    | '-' :: 's' :: c :: cs => rowOptions (String.ofList (c :: cs)) wide rest
    | _ => (separator, wide, argument :: rest)
  | [] => (separator, wide, [])

def sequence : Tool := fun c ↦ do
  let (separator, wide, arguments) := rowOptions "\n" false c.arguments
  let numbers? := arguments.mapM fun a ↦
    match leadingInteger a.toList with
    | (i, true) => some i
    | (_, false) => none
  let row (first step last : Int) : OnMachine Ending :=
    if step = 0 then return .failure
    else
      let count := ((last - first).fdiv step + 1).toNat
      let texts := (List.range count).map fun (n : Nat) ↦ toString (first + n * step)
      let width := if wide then (texts.map String.length).foldl max 0 else 0
      let texts := texts.map fun t ↦ "".pushn '0' (width - t.length) ++ t
      return .success (if count = 0 then "" else separator.intercalate texts ++ "\n")
  match numbers? with
  | some [last] => row 1 1 last
  | some [first, last] => row first 1 last
  | some [first, step, last] => row first step last
  | _ => return .failure

/-- Says the same again and again, as often as anyone would want to hear it. -/
def repeatText : Tool := fun c ↦
  let text := if c.arguments.isEmpty then "y" else " ".intercalate c.arguments
  return .success (String.join (List.replicate 4096 (text ++ "\n")))

/-! ## Reading -/

/-- Reads files, or the input, one after the other; answers what was read of each and whether all
could be read. -/
def readAll (c : Call) : List String → OnMachine (List (String × ByteArray) × Bool)
  | [] => return ([], true)
  | p :: ps => do
    let found ← c.read p
    let (others, all) ← readAll c ps
    match found with
    | .ok content => return ((p, content) :: others, all)
    | .error _ => return (others, false)

/-- The files that are named, or the input. -/
def sources (operands : List String) : List String := if operands.isEmpty then ["-"] else operands

/-- A tool that shows something of each file, one after the other. -/
def showing (plain valued : String)
    (shown : Options → ByteArray → Option ByteArray) : Tool := fun c ↦ do
  match Options.ofArguments? plain valued c.arguments with
  | none => return .failure
  | some (os, operands) =>
    let (found, all) ← readAll c (sources operands)
    match found.mapM fun (_, content) ↦ shown os content with
    | none => return .failure
    | some parts =>
      return ⟨(Ending.answer all).status, parts.foldl (· ++ ·) .empty,
        (sources operands).contains "-"⟩

/-- The lines of a text, each with its end. -/
def lines (bytes : ByteArray) : List (List UInt8) :=
  bytes.toList.foldr (fun b ls ↦ match ls with
    | [] => [[b]]
    | l :: rest => if b = 10 then [b] :: l :: rest else (b :: l) :: rest) []

def lineText (line : List UInt8) : List UInt8 := line.filter (· ≠ 10)

def joinLines (ls : List (List UInt8)) : ByteArray := bytesOf ls.flatten

def numbered (content : ByteArray) : ByteArray :=
  let ls := lines content
  joinLines ((List.range ls.length).zipWith (fun n l ↦
    PrintFormat.integer { width := 6, conversion := 'd' } (n + 1 : Nat) ++ [9] ++ l) ls)

def concatenate : Tool :=
  showing "AbeEnstTuv" "" fun os content ↦ some (if os.has 'n' then numbered content else content)

/-- A first argument that is a count of lines, as an option. -/
def countFirst : List String → List String
  | argument :: rest =>
    match argument.toList with
    | '-' :: c :: cs =>
      if (c :: cs).all Char.isDigit then "-n" :: String.ofList (c :: cs) :: rest
      else argument :: rest
    | _ => argument :: rest
  | [] => []

/-- The start of a file in lines or bytes; with a minus all but the end. -/
def headOf (os : Options) (content : ByteArray) : Option ByteArray := do
  match os.lookup 'c' with
  | some text =>
    let (sign, n) ← signedAmount? text
    some (content.extract 0 (if sign = '-' then content.size - n else n))
  | none =>
    let (sign, n) ← signedAmount? ((os.lookup 'n').getD "10")
    let ls := lines content
    some (joinLines (ls.take (if sign = '-' then ls.length - n else n)))

/-- The end of a file in lines or bytes; with a plus all from a place on. -/
def tailOf (os : Options) (content : ByteArray) : Option ByteArray := do
  match os.lookup 'c' with
  | some text =>
    let (sign, n) ← signedAmount? text
    some (content.extract (if sign = '+' then n - 1 else content.size - n) content.size)
  | none =>
    let (sign, n) ← signedAmount? ((os.lookup 'n').getD "10")
    let ls := lines content
    some (joinLines (ls.drop (if sign = '+' then n - 1 else ls.length - n)))

/-- Shows a part of each file, under its name if there are several. -/
def excerpt (part : Options → ByteArray → Option ByteArray) : Tool := fun c ↦ do
  match Options.ofArguments? "qvz" "cn" (countFirst c.arguments) with
  | none => return .failure
  | some (os, operands) =>
    if operands = ["/dev/zero"] then
      let n := ((os.lookup 'c').bind amount?).getD 0
      return ⟨.success, bytesOf (List.replicate n 0), false⟩
    let (found, all) ← readAll c (sources operands)
    let titled := os.has 'v' || (operands.length > 1 && !os.has 'q')
    match found.mapM fun (p, content) ↦ (part os content).map fun shown ↦ (p, shown) with
    | none => return .failure
    | some parts =>
      let texts := parts.map fun (p, shown) ↦
        if titled then s!"==> {p} <==\n".toUTF8 ++ shown else shown
      let between := if titled then "\n".toUTF8 else .empty
      let output := match texts with
        | [] => .empty
        | t :: ts => ts.foldl (fun out t ↦ out ++ between ++ t) t
      return ⟨(Ending.answer all).status, output, (sources operands).contains "-"⟩

/-- How many lines, words, characters and bytes there are, as far as asked for. -/
def countsOf (os : Options) (content : ByteArray) : List Nat :=
  let bytes := content.toList
  let isBlank (b : UInt8) : Bool := b = 32 || (9 ≤ b && b ≤ 13)
  let words := (bytes.foldl (fun (n, inside) b ↦
    if isBlank b then (n, false) else (if inside then n else n + 1, true)) (0, false)).1
  let chars := bytes.countP fun b ↦ b < 128 || 192 ≤ b
  let every := !(os.has 'l' || os.has 'w' || os.has 'm' || os.has 'c')
  (if every || os.has 'l' then [bytes.count 10] else []) ++
    (if every || os.has 'w' then [words] else []) ++
    (if os.has 'm' then [chars] else []) ++
    (if every || os.has 'c' then [bytes.length] else [])

def count : Tool := fun c ↦ do
  match Options.ofArguments? "clmw" "" c.arguments with
  | none => return .failure
  | some (os, operands) =>
    let (found, all) ← readAll c (sources operands)
    let rows := found.map fun (p, content) ↦ (countsOf os content, p)
    let total := (found.map fun (_, content) ↦ content.size).foldl (· + ·) 0
    let single := rows.all fun (ns, _) ↦ ns.length = 1
    let width := if operands.isEmpty || operands.contains "-" then (if single then 1 else 7)
      else if single && rows.length ≤ 1 then 1 else (toString total).length
    let line (ns : List Nat) (name : String) : String :=
      let cells := ns.map fun n ↦
        let text := toString n
        String.ofList (List.replicate (width - text.length) ' ') ++ text
      " ".intercalate (if operands.isEmpty then cells else cells ++ [name]) ++ "\n"
    let sums := rows.foldl (fun ns (ms, _) ↦
      if ns.isEmpty then ms else ns.zipWith (· + ·) ms) []
    let text := String.join (rows.map fun (ns, p) ↦ line ns p)
    let text := if operands.length > 1 then text ++ line sums "total" else text
    return ⟨(Ending.answer all).status, text.toUTF8, (sources operands).contains "-"⟩

/-- Gives the input on and writes it to files. -/
def tee : Tool := fun c ↦ do
  match Options.ofArguments? "aip" "" c.arguments with
  | none => return .failure
  | some (os, operands) =>
    let rec writeAll : List String → OnMachine Bool
      | [] => return true
      | p :: ps => do
        let old := match ← c.read p with
          | .ok old => if os.has 'a' then old else .empty
          | .error _ => .empty
        let written ← c.write p (old ++ c.input)
        let others ← writeAll ps
        return written.isOk && others
    let all ← writeAll operands
    return ⟨(Ending.answer all).status, c.input, true⟩

/-! ## Lines -/

/-- Whether a row of bytes comes before another, or is the same. -/
def bytesLe : List UInt8 → List UInt8 → Bool
  | [], _ => true
  | _ :: _, [] => false
  | a :: as, b :: bs => a < b || (a = b && bytesLe as bs)

def lineNumber (line : List UInt8) : Int :=
  let cs := (line.map fun b ↦ Char.ofNat b.toNat).dropWhile (· = ' ')
  let value (ds : List Char) : Int := ((String.ofList (ds.takeWhile Char.isDigit)).toNat?).getD 0
  match cs with
  | '-' :: ds => -value ds
  | ds => value ds

def sort : Tool := showing "bdfnrsu" "okt" fun os content ↦
  let texts := (lines content).map lineText
  let le (a b : List UInt8) : Bool :=
    let (a, b) := if os.has 'r' then (b, a) else (a, b)
    if os.has 'n' then
      lineNumber a < lineNumber b || (lineNumber a = lineNumber b && bytesLe a b)
    else bytesLe a b
  let sorted := texts.mergeSort le
  let kept := if os.has 'u' then sorted.foldr (fun l ls ↦
      if ls.head? = some l then ls else l :: ls) [] else sorted
  some (joinLines (kept.map (· ++ [10])))

/-- The runs of lines that are the same, with how many there are. -/
def runs (ls : List (List UInt8)) : List (Nat × List UInt8) :=
  ls.foldr (fun l rs ↦ match rs with
    | (n, m) :: rest => if l = m then (n + 1, m) :: rest else (1, l) :: rs
    | [] => [(1, l)]) []

/-- Shows lines that follow themselves once. -/
def unique : Tool := showing "cdu" "" fun os content ↦
  let kept := (runs ((lines content).map lineText)).filter fun (n, _) ↦
    (!os.has 'd' || n > 1) && (!os.has 'u' || n = 1)
  some (joinLines (kept.map fun (n, l) ↦
    (if os.has 'c' then PrintFormat.integer { width := 7, conversion := 'd' } n ++ [32] else [])
      ++ l ++ [10]))

def reverseLines : Tool := showing "" "" fun _ content ↦ some (joinLines (lines content).reverse)

def reverseEach : Tool := showing "" "" fun _ content ↦
  some (joinLines ((lines content).map fun l ↦
    (lineText l).reverse ++ (if l.contains 10 then [10] else [])))

/-! ## Parts of lines -/

/-- Ranges of places, counted from one, such as `2,4-6,9-`. -/
def places? (text : String) : Option (List (Nat × Option Nat)) :=
  (text.splitOn ",").mapM fun part ↦
    match part.splitOn "-" with
    | [n] => n.toNat?.map fun n ↦ (n, some n)
    | ["", last] => last.toNat?.map fun n ↦ (1, some n)
    | [first, ""] => first.toNat?.map fun n ↦ (n, none)
    | [first, last] => do some (← first.toNat?, some (← last.toNat?))
    | _ => none

/-- What stands at some places of a row. -/
def atPlaces {α : Type} (ranges : List (Nat × Option Nat)) (row : List α) : List α :=
  ((List.range row.length).zip row).filterMap fun (n, x) ↦
    if ranges.any fun (first, last) ↦ first ≤ n + 1 && last.all (n + 1 ≤ ·) then some x else none

def splitAt (separator : UInt8) (row : List UInt8) : List (List UInt8) :=
  row.foldr (fun b parts ↦
    if b = separator then [] :: parts
    else match parts with
      | p :: rest => (b :: p) :: rest
      | [] => [[b]]) [[]]

def cut : Tool := showing "ns" "bcdf" fun os content ↦ do
  let texts := (lines content).map lineText
  let shown ← match os.lookup 'f' with
    | some ranges => do
      let ranges ← places? ranges
      let separator := (((os.lookup 'd').getD "\t").toUTF8.toList.head?).getD 0
      some (texts.filterMap fun l ↦
        if l.contains separator then
          some (List.intercalate [separator] (atPlaces ranges (splitAt separator l)))
        else if os.has 's' then none else some l)
    | none => do
      let ranges ← places? (← (os.lookup 'c').or (os.lookup 'b'))
      some (texts.map (atPlaces ranges))
  some (joinLines (shown.map (· ++ [10])))

def classBytes (name : String) : List UInt8 :=
  let holds (c : Char) : Bool := match name with
    | "upper" => c.isUpper
    | "lower" => c.isLower
    | "alpha" => c.isAlpha
    | "digit" => c.isDigit
    | "alnum" => c.isAlphanum
    | "space" => c = ' ' || ('\t' ≤ c && c ≤ '\r')
    | "blank" => c = ' ' || c = '\t'
    | "punct" => '!' ≤ c && c ≤ '~' && !c.isAlphanum
    | _ => false
  ((List.range 128).filter fun n ↦ holds (Char.ofNat n)).map UInt8.ofNat

def byteRange (first last : UInt8) : List UInt8 :=
  (List.range (last.toNat + 1 - first.toNat)).map fun n ↦ first + UInt8.ofNat n

/-- The bytes that a set of characters means, with ranges and classes. -/
def byteSet (text : String) : List UInt8 :=
  match text.dropPrefix? "[:" with
  | some rest => classBytes (rest.toString.dropEnd 2).toString
  | none =>
    let rules : EscapeRules := { zeroFirst := false, extended := false }
    ranges (rules.unescape text.toList).1
where
  ranges : List UInt8 → List UInt8
    | first :: 45 :: last :: rest => byteRange first last ++ ranges rest
    | b :: rest => b :: ranges rest
    | [] => []

/-- Drops bytes of a set that follow themselves. -/
def squeeze (set : List UInt8) (bytes : List UInt8) : List UInt8 :=
  bytes.foldr (fun b out ↦
    if set.contains b && out.head? = some b then out else b :: out) []

/-- Puts bytes in place of others, or drops them. -/
def translate : Tool := fun c ↦ do
  match Options.ofArguments? "cCdst" "" c.arguments with
  | none => return .failure
  | some (os, operands) =>
    let sets := operands.map byteSet
    let complement := os.has 'c' || os.has 'C'
    let first := sets.headD []
    let inFirst (b : UInt8) : Bool := first.contains b != complement
    let bytes := c.input.toList
    let ending (bytes : List UInt8) : OnMachine Ending :=
      return ⟨.success, bytesOf bytes, true⟩
    match sets, os.has 'd', os.has 's' with
    | [_], true, false => ending (bytes.filter fun b ↦ !inFirst b)
    | [_, second], true, true => ending (squeeze second (bytes.filter fun b ↦ !inFirst b))
    | [_], false, true => ending (squeeze (bytes.filter inFirst) bytes)
    | [_, second], false, squeezes =>
      let last := second.getLast?.getD 0
      let changed := bytes.map fun b ↦
        if !inFirst b then b
        else if complement then last
        else (second[first.idxOf b]?).getD last
      ending (if squeezes then squeeze second changed else changed)
    | _, _, _ => return .failure

/-! ## Names and sums -/

/-- Shows the last name of a path, without an ending if there is one. -/
def baseNameOf : Tool := fun c ↦
  match c.arguments with
  | [path] => return .success (name path ++ "\n")
  | [path, ending] =>
    let full := name path
    let short := if full ≠ ending && full.endsWith ending
      then (full.dropEnd ending.length).toString else full
    return .success (short ++ "\n")
  | _ => return .failure
where
  name (path : String) : String :=
    match (path.splitOn "/").filter (· ≠ "") with
    | [] => if path = "" then "" else "/"
    | names => names.getLastD ""

/-- Shows a path without its last name. -/
def directoryNameOf : Tool := fun c ↦
  match c.arguments with
  | [path] =>
    let trim (cs : List Char) : List Char := cs.dropWhile (· = '/')
    let above := trim ((trim path.toList.reverse).dropWhile (· ≠ '/'))
    let text := if above.isEmpty then (if path.startsWith "/" then "/" else ".")
      else String.ofList above.reverse
    return .success (text ++ "\n")
  | _ => return .failure

def digests : Tool := fun c ↦ do
  let (found, all) ← readAll c (sources c.arguments)
  let text := String.join (found.map fun (p, content) ↦
    HeapSentry.Text.hexBytes (Digest.Sha256.digest content.toList) ++ "  " ++ p ++ "\n")
  return ⟨(Ending.answer all).status, text.toUTF8, (sources c.arguments).contains "-"⟩

end HeapSentry.Command.Tool
