import HeapSentry.Command.Regex
import HeapSentry.Command.Tool.Search

/-!
# Evaluating arguments

An expression whose operands and operators are arguments.  Its value is a text, which may be a
number.
-/

namespace HeapSentry.Command.Tool

namespace Evaluate

def integer? (text : String) : Option Int :=
  match text.toList with
  | '-' :: ds => if ds.all Char.isDigit then (String.ofList ds).toNat?.map fun n ↦ -(n : Int)
    else none
  | ds => if ds.all Char.isDigit then text.toNat?.map Int.ofNat else none

def isNull (text : String) : Bool := text = "" || integer? text = some 0

def truth (b : Bool) : String := if b then "1" else "0"

abbrev Operation := String → String → Option String

def numeric (f : Int → Int → Option Int) : Operation := fun a b ↦ do
  some (toString (← f (← integer? a) (← integer? b)))

/-- A comparison, of numbers if both are some. -/
def comparison (f : Ordering → Bool) : Operation := fun a b ↦
  some (truth (f (match integer? a, integer? b with
    | some a, some b => compare a b
    | _, _ => compare a b)))

/-- The length of the match at the start of a text, or what its group stands for. -/
def matching : Operation := fun text pattern ↦ do
  let r ← Regex.ofChars? false (byteText pattern)
  let line := byteText text
  let hasGroup := (pattern.splitOn "\\(").length > 1
  match r.matchAt? ⟨line, false⟩ line with
  | some (found, groups, _) =>
    if hasGroup then
      String.fromUTF8? (bytesOf (charBytes ((groups.lookup 1).getD [])))
    else some (toString found.length)
  | none => some (if hasGroup then "" else "0")

/-- The operators of each level, from the weakest. -/
def levels : List (List (String × Operation)) :=
  [[("|", fun a b ↦ some (if !isNull a then a else if isNull b then "0" else b))],
    [("&", fun a b ↦ some (if isNull a || isNull b then "0" else a))],
    [("=", comparison (· == .eq)), ("==", comparison (· == .eq)), ("!=", comparison (· != .eq)),
      ("<", comparison (· == .lt)), ("<=", comparison (· != .gt)),
      (">", comparison (· == .gt)), (">=", comparison (· != .lt))],
    [("+", numeric fun a b ↦ some (a + b)), ("-", numeric fun a b ↦ some (a - b))],
    [("*", numeric fun a b ↦ some (a * b)),
      ("/", numeric fun a b ↦ if b = 0 then none else some (a.tdiv b)),
      ("%", numeric fun a b ↦ if b = 0 then none else some (a.tmod b))],
    [(":", matching)]]

mutual

/-- Operands of a level with its operators between them, and the arguments left. -/
def level? : Nat → List (List (String × Operation)) → List String →
    Option (String × List String)
  | 0, _, _ => none
  | fuel + 1, [], arguments => operand? fuel arguments
  | fuel + 1, level :: stronger, arguments => do
    let (first, rest) ← level? fuel stronger arguments
    more? fuel level stronger first rest

def more? : Nat → List (String × Operation) → List (List (String × Operation)) → String →
    List String → Option (String × List String)
  | 0, _, _, _, _ => none
  | _ + 1, _, _, left, [] => some (left, [])
  | fuel + 1, level, stronger, left, sign :: rest =>
    match level.lookup sign with
    | none => some (left, sign :: rest)
    | some f => do
      let (right, rest) ← level? fuel stronger rest
      more? fuel level stronger (← f left right) rest

def operand? : Nat → List String → Option (String × List String)
  | 0, _ => none
  | fuel + 1, arguments =>
    match arguments with
    | "(" :: rest => do
      match ← level? fuel levels rest with
      | (v, ")" :: rest) => some (v, rest)
      | _ => none
    | "length" :: text :: rest => some (toString text.utf8ByteSize, rest)
    | "match" :: text :: pattern :: rest => (matching text pattern).map fun v ↦ (v, rest)
    | "substr" :: text :: first :: length :: rest =>
      match integer? first, integer? length with
      | some i, some n =>
        if i ≤ 0 then some ("", rest)
        else some (String.ofList ((text.toList.drop (i.toNat - 1)).take n.toNat), rest)
      | _, _ => some ("", rest)
    | "index" :: text :: set :: rest =>
      let place := text.toList.findIdx fun c ↦ set.contains c
      some (toString (if place < text.length then place + 1 else 0), rest)
    | text :: rest => some (text, rest)
    | [] => none

end

end Evaluate

/-- Shows the value of an expression; its status says whether it counts as true. -/
def evaluate : Tool := fun c ↦
  match Evaluate.level? (16 * c.arguments.length + 16) Evaluate.levels c.arguments with
  | some (value, []) =>
    return ⟨if Evaluate.isNull value then .failure else .success, (value ++ "\n").toUTF8, false⟩
  | _ => return ⟨.exited 2, .empty, false⟩

end HeapSentry.Command.Tool
