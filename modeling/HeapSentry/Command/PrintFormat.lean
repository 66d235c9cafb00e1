import HeapSentry.Command.Escape
import HeapSentry.Decimal.Fixed

/-!
# Print formats

A format is text with directives, each of which shows one argument.  It is used again as long as
arguments are left; arguments that are missing are empty.
-/

namespace HeapSentry.Command.PrintFormat

structure Directive where
  flags : List Char := []
  width : Nat := 0
  precision : Option Nat := none
  conversion : Char
  deriving DecidableEq, Repr

/-- What has become of a format, or of a part of it. -/
structure Printed where
  bytes : List UInt8 := []
  /-- The arguments that are left. -/
  left : List String := []
  /-- Whether all arguments were numbers where they had to be. -/
  fine : Bool := true
  /-- Whether all directives exist. -/
  sound : Bool := true
  /-- Whether nothing more is to be printed. -/
  ended : Bool := false
  deriving DecidableEq, Repr

/-- Puts what was printed before in front. -/
def Printed.after (p : Printed) (bytes : List UInt8) (fine : Bool) : Printed :=
  { p with bytes := bytes ++ p.bytes, fine := fine && p.fine }

/-! ## Showing one argument -/

def fill (d : Directive) (mark : UInt8) (bytes : List UInt8) : List UInt8 :=
  let missing := List.replicate (d.width - bytes.length) mark
  if d.flags.contains '-' then bytes ++ missing else missing ++ bytes

def blank : UInt8 := 32

def zero : UInt8 := 48

/-- The digits of a number, as many as the precision asks for. -/
def digits (d : Directive) (n : Nat) : List UInt8 :=
  let base := match d.conversion with
    | 'o' => 8
    | 'x' | 'X' => 16
    | _ => 10
  let text := (Nat.toDigits base n).map fun c ↦ if d.conversion = 'X' then c.toUpper else c
  let text := utf8All text
  let text := List.replicate (d.precision.getD 0 - text.length) zero ++ text
  if d.flags.contains '#' && n ≠ 0 then
    (match d.conversion with
      | 'o' => [zero]
      | 'x' => utf8All ['0', 'x']
      | 'X' => utf8All ['0', 'X']
      | _ => []) ++ text
  else text

def integer (d : Directive) (i : Int) : List UInt8 :=
  let sign := if i < 0 then utf8 '-'
    else if d.flags.contains '+' then utf8 '+'
    else if d.flags.contains ' ' then [blank]
    else []
  let text := digits d i.natAbs
  if d.flags.contains '0' && !d.flags.contains '-' && d.precision.isNone then
    sign ++ fill { d with width := d.width - sign.length } zero text
  else fill d blank (sign ++ text)

/-- The number that an argument is: a quote makes it that of the next character. -/
def numberOf (argument : String) : Int × Bool :=
  match argument.toList with
  | [] => (0, true)
  | '\'' :: c :: _ | '"' :: c :: _ => (c.toNat, true)
  | cs =>
    let (i, fine) := leadingInteger cs
    if i < -largest - 1 then (-largest - 1, false)
    else if largest < i then (largest, false)
    else (i, fine)
where
  /-- The largest number of a word of 64 bits. -/
  largest : Int := 9223372036854775807

/-- A number without sign; a negative one is counted down from the largest word. -/
def unsignedOf (i : Int) : Int := if i < 0 then i + 18446744073709551616 else i

/-- The digits of a decimal as a natural number, and how many of them follow the point. -/
def decimal? (cs : List Char) : Option (Nat × Nat) :=
  let whole := cs.takeWhile Char.isDigit
  let fraction := match cs.drop whole.length with
    | '.' :: ds => some ds
    | [] => some []
    | _ => none
  fraction.bind fun ds ↦
    if ds.all Char.isDigit then
      (String.ofList (whole ++ ds)).toNat?.map fun n ↦ (n, ds.length)
    else none

def fixedPlaces (d : Directive) (argument : String) : List UInt8 × Bool :=
  let places := d.precision.getD 6
  let (negative, cs) := match argument.toList with
    | '-' :: cs => (true, cs)
    | cs => (false, cs)
  let (num, scale, fine) := match decimal? cs with
    | some (n, scale) => (n, scale, true)
    | none => (0, 0, argument = "")
  let text := utf8All (Decimal.fixed num (Nat.pow 10 scale) places).toList
  let sign := if negative then utf8 '-' else if d.flags.contains '+' then utf8 '+' else []
  if d.flags.contains '0' && !d.flags.contains '-' then
    (sign ++ fill { d with width := d.width - sign.length } zero text, fine)
  else (fill d blank (sign ++ text), fine)

/-- What a directive shows of an argument; there is nothing for a directive that does not exist. -/
def show? (escapes : EscapeRules) (d : Directive) (argument : String) : Option Printed :=
  let cut (bytes : List UInt8) : List UInt8 := match d.precision with
    | some n => bytes.take n
    | none => bytes
  match d.conversion with
  | 's' => some { bytes := fill d blank (cut argument.toUTF8.toList) }
  | 'b' =>
    let (bytes, ended) := escapes.unescape argument.toList
    some { bytes := fill d blank (cut bytes), ended }
  | 'c' => some { bytes := fill d blank (argument.toUTF8.toList.take 1) }
  | 'd' | 'i' =>
    let (i, fine) := numberOf argument
    some { bytes := integer d i, fine }
  | 'f' | 'F' =>
    let (bytes, fine) := fixedPlaces d argument
    some { bytes, fine }
  | 'u' | 'o' | 'x' | 'X' =>
    let (i, fine) := numberOf argument
    some { bytes := integer d (unsignedOf i), fine }
  | _ => none

/-! ## Going through a format -/

/-- A width or a precision, written or taken from the arguments, and how many characters it
takes. -/
def amount (cs : List Char) (left : List String) : Int × Nat × List String :=
  match cs with
  | '*' :: _ => ((numberOf (left.head?.getD "")).1, 1, left.tail)
  | cs =>
    let ds := cs.takeWhile Char.isDigit
    ((leadingInteger (ds.dropWhile (· = '0'))).1, ds.length, left)

/-- The directive after a percent sign, how many characters it takes, and the arguments left. -/
def directive? (cs : List Char) (left : List String) : Option (Directive × Nat × List String) :=
  let flags := cs.takeWhile fun c ↦ "#-+ 0".contains c
  let rest := cs.drop flags.length
  let (width, n, left) := amount rest left
  let flags' := if width < 0 then '-' :: flags else flags
  let rest := rest.drop n
  let (precision, m, left) : Option Nat × Nat × List String := match rest with
    | '.' :: rest =>
      let (p, m, left) := amount rest left
      (if p < 0 then none else some p.toNat, m + 1, left)
    | _ => (none, 0, left)
  match rest.drop m with
  | [] => none
  | conversion :: _ =>
    some (⟨flags', width.natAbs, precision, conversion⟩, flags.length + n + m + 1, left)

/-- Goes through a format once. -/
def once (texts arguments : EscapeRules) : List Char → List String → Printed
  | [], left => { left }
  | '%' :: '%' :: cs, left => (once texts arguments cs left).after (utf8 '%') true
  | '%' :: cs, left =>
    match directive? cs left with
    | none => { left, sound := false, ended := true }
    | some (d, n, left) =>
      match show? arguments d (left.head?.getD "") with
      | none => { left, sound := false, ended := true }
      | some shown =>
        if shown.ended then { shown with left := left.tail }
        else (once texts arguments (cs.drop n) left.tail).after shown.bytes shown.fine
  | '\\' :: c :: cs, left =>
    let (bytes, n) := texts.escape c cs
    (once texts arguments (cs.drop n) left).after bytes true
  | c :: cs, left => (once texts arguments cs left).after (utf8 c) true
termination_by cs => cs.length
decreasing_by all_goals (simp only [List.length_drop, List.length_cons]; omega)

/-- Goes through a format until no arguments are left or none is used. -/
def all (texts arguments : EscapeRules) (format : List Char) : Nat → List String → Printed
  | 0, left => { left }
  | fuel + 1, left =>
    let p := once texts arguments format left
    if p.ended || p.left.isEmpty || p.left.length = left.length then p
    else (all texts arguments format fuel p.left).after p.bytes p.fine

end HeapSentry.Command.PrintFormat
