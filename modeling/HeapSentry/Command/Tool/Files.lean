import HeapSentry.Command.Tool.Basic

/-!
# Tools for files

Copying, moving, linking, making and removing.  A link has the content that it leads to.
-/

namespace HeapSentry.Command.Tool

open Storage

/-- Does something for each operand; one failure makes the whole fail. -/
def forAll (f : String → OnMachine Bool) : List String → OnMachine Bool
  | [] => return true
  | x :: xs => do
    let done ← f x
    let others ← forAll f xs
    return done && others

/-- Puts sources somewhere, each with a function of the source and its place. -/
def placeAll (c : Call) (put : String → String → OnMachine Bool) (operands : List String) :
    OnMachine Ending := do
  match operands.reverse with
  | [] | [_] => return .failure
  | [place, source] => return .answer (← put source (← c.target source place))
  | place :: sources =>
    if ← c.isDirectory place then
      return .answer (← forAll (fun s ↦ do put s (← c.target s place)) sources.reverse)
    else return .failure

/-- Copies one file.  A file cannot be copied to itself. -/
def copyOne (c : Call) (source place : String) : OnMachine Bool := do
  if (← c.isDirectory source) || Path.names (c.path source) = Path.names (c.path place) then
    return false
  match ← c.read source with
  | .error _ => return false
  | .ok content => return (← c.write place content).isOk

/-- Copies a file, or a directory with all that is in it, at most so many levels of it. -/
def copyTree (c : Call) : Nat → String → String → OnMachine Bool
  | 0, _, _ => return false
  | levels + 1, source, place => do
    match ← OnMachine.entries (c.path source) with
    | .error _ => copyOne c source place
    | .ok found =>
      if !(← OnMachine.makeDirs (c.path place)).isOk then return false
      forAll (fun name ↦ copyTree c levels (Path.join source name) (Path.join place name))
        (found.map Prod.fst)

def copy : Tool := fun c ↦ do
  match Options.ofArguments? "abdfiLlnPpRrsTuvx" "S" c.arguments with
  | some (os, operands) =>
    placeAll c (fun source place ↦ do
      if os.has 'n' && (← c.exists? place) then return true
      else if os.has 'r' || os.has 'R' || os.has 'a' then
        copyTree c Path.sizeLimit source place
      else copyOne c source place) operands
  | none => return .failure

def install : Tool := fun c ↦ do
  match Options.ofArguments? "bcCpsTvD" "mgoS" c.arguments with
  | some (os, operands) =>
    if os.has 'D' then
      let _ ← OnMachine.makeDirs (c.path ((Path.parent? (operands.getLastD "")).getD ""))
    placeAll c (copyOne c) operands
  | none => return .failure


/-- Makes one link.  A symbolic one that leads nowhere has nothing to show. -/
def linkOne (c : Call) (os : Options) (source place : String) : OnMachine Bool := do
  if (← c.exists? place) && !os.has 'f' then return false
  if os.has 's' then
    let parent := (Path.parent? place).getD ""
    match ← OnMachine.read (c.path (Path.join parent source)) with
    | .ok content => return (← c.write place content).isOk
    | .error _ => return parent = "" || (← c.isDirectory parent)
  else copyOne c source place

def link : Tool := fun c ↦ do
  match Options.ofArguments? "bdfiLnPrsTv" "S" c.arguments with
  | some (os, operands) => placeAll c (linkOne c os) operands
  | none => return .failure

/-- Makes one directory, in one that is there. -/
def makeDirectory (c : Call) (p : String) : OnMachine Bool := do
  let parent := (Path.parent? p).getD ""
  if (← c.exists? p) || !(parent = "" || (← c.isDirectory parent)) then return false
  return (← OnMachine.makeDirs (c.path p)).isOk

def makeDirectories : Tool := fun c ↦ do
  match Options.ofArguments? "pv" "m" c.arguments with
  | some (_, []) | none => return .failure
  | some (os, operands) =>
    return .answer (← forAll (fun p ↦ do
      if os.has 'p' then return (← OnMachine.makeDirs (c.path p)).isOk
      else makeDirectory c p) operands)

/-- Removes a directory with all that is in it, at most so many levels of it. -/
def removeTree : Nat → String → OnMachine Bool
  | 0, _ => return false
  | levels + 1, path => do
    match ← OnMachine.entries path with
    | .error _ => return (← OnMachine.remove path).isOk
    | .ok found =>
      let all ← forAll (removeTree levels) (found.map fun (name, _) ↦ Path.join path name)
      return all && (← OnMachine.removeDir path).isOk

def remove : Tool := fun c ↦ do
  match Options.ofArguments? "dfiIrRv" "" c.arguments with
  | some (os, operands) =>
    if operands.isEmpty && !os.has 'f' then return .failure
    return .answer (← forAll (fun p ↦ do
      if !(← c.exists? p) then return os.has 'f'
      else if os.has 'r' || os.has 'R' then removeTree Path.sizeLimit (c.path p)
      else return (← OnMachine.remove (c.path p)).isOk) operands)
  | none => return .failure

def removeDirectories : Tool := fun c ↦ do
  match Options.ofArguments? "v" "" c.arguments with
  | some (_, []) | none => return .failure
  | some (_, operands) =>
    return .answer (← forAll (fun p ↦ do
      return (← OnMachine.removeDir (c.path p)).isOk) operands)

def move : Tool := fun c ↦ do
  match Options.ofArguments? "bfinTuv" "S" c.arguments with
  | some (os, operands) =>
    placeAll c (fun source place ↦ do
      if os.has 'n' && (← c.exists? place) then return true
      if Path.names (c.path source) = Path.names (c.path place) then return false
      let copied ← copyTree c Path.sizeLimit source place
      if copied then removeTree Path.sizeLimit (c.path source) else return false) operands
  | none => return .failure

/-- Makes a file, or a directory, of which nobody else knows. -/
def makeTemporary : Tool := fun c ↦ do
  let rec free : Nat → Nat → OnMachine String
    | 0, n => return s!"/tmp/tmp.{n}"
    | fuel + 1, n => do
      let path := s!"/tmp/tmp.{n}"
      if ← OnMachine.exists? path then free fuel (n + 1) else return path
  match Options.ofArguments? "dqt" "" c.arguments with
  | some (os, []) =>
    let _ ← OnMachine.makeDirs "/tmp"
    let path ← free 1000 1000000000
    let made ← if os.has 'd' then OnMachine.makeDirs path else OnMachine.write path .empty
    return if made.isOk then .success (path ++ "\n") else .failure
  | _ => return .failure

def listNames : Tool := fun c ↦ do
  match Options.ofArguments? "1aAbBCdFgGhHiklLmnNopqQrRsStuUvxXZ" "ITw" c.arguments with
  | none => return ⟨.exited 2, .empty, false⟩
  | some (os, operands) =>
    let operands := operands.mergeSort (· ≤ ·)
    let hidden (name : String) : Bool := name.startsWith "." && !(os.has 'a' || os.has 'A')
    let rec namesOf : List String → OnMachine (List String × List (String × List String) × Bool)
      | [] => return ([], [], true)
      | p :: ps => do
        let (files, dirs, all) ← namesOf ps
        match ← OnMachine.entries (c.path p) with
        | .ok found =>
          if os.has 'd' then return (p :: files, dirs, all)
          let names := (found.map Prod.fst).filter (!hidden ·)
          let names := if os.has 'a' then "." :: ".." :: names else names
          return (files, (p, if os.has 'r' then names.reverse else names) :: dirs, all)
        | .error _ =>
          if ← c.exists? p then return (p :: files, dirs, all) else return (files, dirs, false)
    let (files, dirs, all) ← namesOf (if operands.isEmpty then ["."] else operands)
    let inLines (names : List String) : String := String.join (names.map (· ++ "\n"))
    let titled := operands.length > 1
    let blocks := (if files.isEmpty then [] else [inLines files]) ++
      dirs.map fun (p, names) ↦ (if titled then p ++ ":\n" else "") ++ inLines names
    return ⟨.exited (if all then 0 else 2), ("\n".intercalate blocks).toUTF8, false⟩

def touch : Tool := fun c ↦ do
  match Options.ofArguments? "acfhm" "drt" c.arguments with
  | some (_, []) | none => return .failure
  | some (os, operands) =>
    return .answer (← forAll (fun p ↦ do
      if os.has 'c' || (← c.exists? p) then return true
      return (← c.write p .empty).isOk) operands)

/-- A tool that only wants its operands, all but some first ones, to exist. -/
def onExisting (first : Nat) : Tool := fun c ↦ do
  let operands := c.arguments.filter fun a ↦ !a.startsWith "-"
  if operands.length ≤ first then return .failure
  return .answer (← forAll c.exists? (operands.drop first))

/-- Cuts a file or fills it up to a size. -/
def truncate : Tool := fun c ↦ do
  match Options.ofArguments? "co" "s" c.arguments with
  | some ([('s', text)], operands) =>
    match signedAmount? text with
    | none => return .failure
    | some (sign, n) =>
      if operands.isEmpty then return .failure
      return .answer (← forAll (fun p ↦ do
        let content := match ← c.read p with
          | .ok content => content
          | .error _ => .empty
        let n := if sign = '+' then content.size + n
          else if sign = '-' then content.size - n
          else n
        let missing := List.replicate (n - content.size) (0 : UInt8)
        return (← c.write p (content.extract 0 n ++ bytesOf missing)).isOk) operands)
  | _ => return .failure

/-! ## Copying in blocks -/

/-- What a block copy is asked for: names with values. -/
def settings? (arguments : List String) : Option (List (String × String)) :=
  arguments.mapM fun a ↦
    match a.toList.dropWhile (· ≠ '=') with
    | [] => none
    | _ :: value => some (String.ofList (a.toList.takeWhile (· ≠ '=')), String.ofList value)

/-- Copies some blocks of a file, or of the input, to another file or the output. -/
def copyBlocks : Tool := fun c ↦ do
  match settings? c.arguments with
  | none => return .failure
  | some settings =>
    let number? (name : String) (default : Nat) : Option Nat :=
      match settings.lookup name with
      | some text => amount? text
      | none => some default
    let known := ["if", "of", "bs", "ibs", "obs", "count", "skip", "seek", "conv", "status",
      "iflag", "oflag"]
    let sizes := do
      let block ← number? "bs" (← number? "ibs" 512)
      some (block, ← number? "skip" 0, (← number? "seek" 0) * (← number? "bs" 512),
        ← (settings.lookup "count").mapM amount?)
    match sizes with
    | none => return .failure
    | some (block, skipped, before, count) =>
      if !(settings.all fun (name, _) ↦ known.contains name) || block = 0 then return .failure
      let source := (settings.lookup "if").getD "-"
      let found ← match count with
        | some n => c.readStart source ((skipped + n) * block)
        | none => c.read source
      match found with
      | .error _ => return .failure
      | .ok content =>
        let conversions := ((settings.lookup "conv").getD "").splitOn ","
        let change (b : UInt8) : UInt8 :=
          if conversions.contains "ucase" && 97 ≤ b && b ≤ 122 then b - 32
          else if conversions.contains "lcase" && 65 ≤ b && b ≤ 90 then b + 32
          else b
        let content := bytesOf
          ((content.extract (skipped * block) content.size).toList.map change)
        match settings.lookup "of" with
        | none => return ⟨.success, content, source = "-"⟩
        | some place =>
          let keeps := conversions.contains "notrunc"
          let old := match ← c.read place with
            | .ok old => old
            | .error _ => .empty
          let start := old.extract 0 before
          let gap := bytesOf (List.replicate (before - start.size) 0)
          let after := if keeps then old.extract (before + content.size) old.size else .empty
          let written ← c.write place (start ++ gap ++ content ++ after)
          return ⟨(Ending.answer written.isOk).status, .empty, source = "-"⟩

/-! ## Comparing -/

def compareFiles : Tool := fun c ↦ do
  match Options.ofArguments? "blsq" "" c.arguments with
  | some (_, [first, second]) =>
    match ← c.read first, ← c.read second with
    | .ok a, .ok b => return .answer (a == b)
    | _, _ => return ⟨.exited 2, .empty, false⟩
  | _ => return ⟨.exited 2, .empty, false⟩

end HeapSentry.Command.Tool
