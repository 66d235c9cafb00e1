import HeapSentry.Command.Escape

/-!
# Arithmetic

Expressions over whole numbers of 64 bits, with variables that can be assigned.
-/

namespace HeapSentry.Command.Arithmetic

abbrev Variables := List (String × Int)

/-- What has been read: the value, the variables and what follows. -/
structure Read where
  value : Int
  bindings : Variables
  rest : List Char

/-- The word of 64 bits that a number is kept in. -/
def wrap (i : Int) : Int := Int.bmod i 18446744073709551616

def truth (b : Bool) : Int := if b then 1 else 0

def skipBlanks (cs : List Char) : List Char :=
  cs.dropWhile fun c ↦ c = ' ' || c = '\t' || c = '\n'

/-- An operation on two numbers; dividing by zero has no value. -/
abbrev Operation := Int → Int → Option Int

/-- The bits of a number, as those of the natural number with the same word. -/
def bitwise (f : UInt64 → UInt64 → UInt64) : Operation := fun a b ↦
  some (f (UInt64.ofInt a) (UInt64.ofInt b)).toNat

def comparison (f : Int → Int → Bool) : Operation := fun a b ↦ some (truth (f a b))

/-- The operators of each level, from the weakest; of two with the same start the longer is first. -/
def levels : List (List (List Char × Operation)) :=
  [[(['|', '|'], comparison fun a b ↦ a ≠ 0 || b ≠ 0)],
    [(['&', '&'], comparison fun a b ↦ a ≠ 0 && b ≠ 0)],
    [(['|'], bitwise (· ||| ·))],
    [(['^'], bitwise (· ^^^ ·))],
    [(['&'], bitwise (· &&& ·))],
    [(['=', '='], comparison fun a b ↦ a = b), (['!', '='], comparison fun a b ↦ a ≠ b)],
    [(['<', '='], comparison fun a b ↦ a ≤ b), (['>', '='], comparison fun a b ↦ a ≥ b),
      (['<'], comparison fun a b ↦ a < b), (['>'], comparison fun a b ↦ a > b)],
    [(['<', '<'], fun a b ↦ some (a * Int.pow 2 (b.toNat % 64))),
      (['>', '>'], fun a b ↦ some (a / Int.pow 2 (b.toNat % 64)))],
    [(['+'], fun a b ↦ some (a + b)), (['-'], fun a b ↦ some (a - b))],
    [(['*'], fun a b ↦ some (a * b)),
      (['/'], fun a b ↦ if b = 0 then none else some (a.tdiv b)),
      (['%'], fun a b ↦ if b = 0 then none else some (a.tmod b))]]

/-- The operator of a level at the start of a text.  It must not be the start of a longer one. -/
def operator? (level : List (List Char × Operation)) (cs : List Char) :
    Option (Operation × List Char) :=
  (level.find? fun (sign, _) ↦ sign.isPrefixOf cs && !extends_ sign (cs.drop sign.length)).map
    fun (sign, f) ↦ (f, cs.drop sign.length)
where
  /-- Whether a sign goes on as another operator. -/
  extends_ (sign rest : List Char) : Bool :=
    match sign, rest with
    | ['|'], '|' :: _ | ['&'], '&' :: _ | ['<'], '<' :: _ | ['>'], '>' :: _ => true
    | [_], '=' :: _ => true
    | _, _ => false

def isNameStart (c : Char) : Bool := c.isAlpha || c = '_'

def isNameChar (c : Char) : Bool := c.isAlphanum || c = '_'

def assignment? : List Char → Option (Operation × List Char)
  | '=' :: '=' :: _ => none
  | '=' :: cs => some (fun _ b ↦ some b, cs)
  | cs => levels.flatten.findSome? fun (sign, f) ↦
    match cs.drop sign.length with
    | '=' :: rest =>
      if sign.isPrefixOf cs && sign.getLast? ≠ some '=' && sign ≠ ['<'] && sign ≠ ['>'] then
        some (f, rest)
      else none
    | _ => none

mutual

def expression? : Nat → Variables → List Char → Option Read
  | 0, _, _ => none
  | fuel + 1, vs, cs =>
    let cs := skipBlanks cs
    let name := cs.takeWhile isNameChar
    let assigns := if (cs.head?.map isNameStart).getD false
      then assignment? (skipBlanks (cs.drop name.length)) else none
    match assigns with
    | some (f, rest) => do
      let r ← expression? fuel vs rest
      let name := String.ofList name
      let v := wrap (← f ((r.bindings.lookup name).getD 0) r.value)
      some ⟨v, (name, v) :: r.bindings, r.rest⟩
    | none => do
      let r ← level? fuel levels vs cs
      match skipBlanks r.rest with
      | '?' :: rest => do
        let yes ← expression? fuel r.bindings rest
        match skipBlanks yes.rest with
        | ':' :: rest => do
          let no ← expression? fuel yes.bindings rest
          some { no with value := if r.value ≠ 0 then yes.value else no.value }
        | _ => none
      | rest => some { r with rest }

/-- Operands of a level, with its operators between them. -/
def level? : Nat → List (List (List Char × Operation)) → Variables → List Char → Option Read
  | 0, _, _, _ => none
  | fuel + 1, [], vs, cs => operand? fuel vs cs
  | fuel + 1, level :: stronger, vs, cs => do
    let first ← level? fuel stronger vs cs
    more? fuel level stronger first

/-- The operators of a level after an operand. -/
def more? : Nat → List (List Char × Operation) → List (List (List Char × Operation)) → Read →
    Option Read
  | 0, _, _, _ => none
  | fuel + 1, level, stronger, left =>
    match operator? level (skipBlanks left.rest) with
    | none => some left
    | some (f, rest) => do
      let right ← level? fuel stronger left.bindings rest
      more? fuel level stronger { right with value := wrap (← f left.value right.value) }

def operand? : Nat → Variables → List Char → Option Read
  | 0, _, _ => none
  | fuel + 1, vs, cs =>
    match skipBlanks cs with
    | '-' :: cs => (operand? fuel vs cs).map fun r ↦ { r with value := wrap (-r.value) }
    | '+' :: cs => operand? fuel vs cs
    | '!' :: cs => (operand? fuel vs cs).map fun r ↦ { r with value := truth (r.value = 0) }
    | '~' :: cs => (operand? fuel vs cs).map fun r ↦ { r with value := -r.value - 1 }
    | '(' :: cs => do
      let r ← expression? fuel vs cs
      match skipBlanks r.rest with
      | ')' :: rest => some { r with rest }
      | _ => none
    | cs =>
      let word := cs.takeWhile isNameChar
      let rest := cs.drop word.length
      match word with
      | [] => none
      | c :: _ =>
        if isNameStart c then some ⟨(vs.lookup (String.ofList word)).getD 0, vs, rest⟩
        else
          match leadingInteger word with
          | (i, true) => some ⟨wrap i, vs, rest⟩
          | (_, false) => none

end

/-- The value of an expression, and the variables after it; nothing written is zero. -/
def evaluate? (vs : Variables) (cs : List Char) : Option (Int × Variables) :=
  if (skipBlanks cs).isEmpty then some (0, vs)
  else do
    let r ← expression? (16 * cs.length + 32) vs cs
    if (skipBlanks r.rest).isEmpty then some (r.value, r.bindings) else none

end HeapSentry.Command.Arithmetic
