import HeapSentry.Command.Shell

/-!
# Running commands

A command is a tool with its arguments, or a shell with a script.  Other programs are not found.
What a script runs is bounded by how often commands may stand inside one another or repeat.  All
this stands in for the programs of a machine: what holds of supervisors holds with any tool that
writes dumps.
-/

namespace HeapSentry.Command

open Storage

/-- How deep commands may stand inside one another, and how often loops may repeat. -/
def depthLimit : Nat := 10000

namespace Shell

/-! ## Programs that run others -/

def dialectOf? (program : String) : Option Dialect :=
  [("sh", .standard), ("dash", .standard), ("bash", .extended)].lookup (Tool.baseName program)

/-- The programs that run a command that is their argument: variables for it, and the command. -/
def wrapped? (program : String) (arguments : List String) :
    Option (List (String × String) × List String) :=
  match Tool.baseName program with
  | "nohup" | "setsid" => some ([], arguments.dropWhile (·.startsWith "-"))
  | "nice" => some ([], match arguments with
    | "-n" :: _ :: rest => rest
    | arguments => arguments.dropWhile (·.startsWith "-"))
  | "timeout" => some ([], (match arguments with
    | "-s" :: _ :: rest | "-k" :: _ :: rest => rest
    | arguments => arguments.dropWhile (·.startsWith "-")).drop 1)
  | "env" =>
    let arguments := arguments.dropWhile (·.startsWith "-")
    let settings := arguments.takeWhile (·.contains '=')
    some (settings.map fun a ↦
      let name := String.ofList (a.toList.takeWhile (· ≠ '='))
      (name, String.ofList (a.toList.drop (name.length + 1))), arguments.drop settings.length)
  | _ => none

/-- The commands that words of the input complete.  They are taken a few at a time, or each in place
of a mark. -/
def fromInput (input : ByteArray) : Option String → Option Nat → List String → List (List String)
  | _, count, "-n" :: n :: rest => fromInput input none (n.toNat?.or count) rest
  | _, count, "-I" :: mark :: rest => fromInput input (some mark) count rest
  | mark, count, option :: rest =>
    if option.startsWith "-" then fromInput input mark count rest
    else complete mark count (option :: rest)
  | mark, count, [] => complete mark count ["echo"]
where
  texts (separators : String) : List String :=
    (((String.fromUTF8? input).getD "").split fun c : Char ↦ separators.contains c).toList.map
      (·.toString) |>.filter (· ≠ "")
  complete (mark : Option String) (count : Option Nat) (command : List String) :
      List (List String) :=
    match mark, count with
    | some mark, _ => (texts "\n").map fun line ↦ command.map fun a ↦ a.replace mark line
    | none, none => [command ++ texts " \t\n"]
    | none, some n => (chunks (n - 1) (texts " \t\n")).map (command ++ ·)
  chunks (n : Nat) : List String → List (List String)
    | [] => []
    | w :: ws => (w :: ws.take n) :: chunks n (ws.drop n)
  termination_by ws => ws.length
  decreasing_by simp only [List.length_drop, List.length_cons]; omega

/-- What a shell is asked to run. -/
inductive Source where
  /-- A script in an argument. -/
  | argument (script : String)
  | file (path : String)
  | input
  /-- Nothing that it understands. -/
  | unclear
  deriving DecidableEq, Repr

/-- The options of a shell, what it runs, and its parameters. -/
def sourceOf (inArgument : Bool) (options : List Char) :
    List String → List Char × Source × List String
  | [] => (options, if inArgument then .unclear else .input, [])
  | argument :: rest =>
    match argument.toList, rest with
    | '-' :: 's' :: [], rest => (options, .input, "sh" :: rest)
    | '-' :: 'o' :: [], name :: rest =>
      sourceOf inArgument (options ++ (optionLetter? name).toList) rest
    | '-' :: '-' :: [], rest => operands rest
    | '-' :: '-' :: _, rest => sourceOf inArgument options rest
    | '-' :: c :: cs, rest =>
      sourceOf (inArgument || (c :: cs).contains 'c')
        (options ++ (c :: cs).filter (· ≠ 'c')) rest
    | '+' :: _ :: _, rest => sourceOf inArgument options rest
    | _, _ => operands (argument :: rest)
where
  /-- What is left when the options are over. -/
  operands : List String → List Char × Source × List String
    | [] => (options, if inArgument then .unclear else .input, [])
    | first :: rest =>
      if inArgument then (options, .argument first, rest)
      else (options, .file first, first :: rest)

/-- A shell that another one starts. -/
def started (s : Shell) (d : Dialect) (options : List Char) (parameters : List String) : Shell :=
  { dialect := d
    process := s.process + 1
    parameters
    bindings := s.bindings.filter fun (name, _) ↦ s.exported.contains name
    exported := s.exported
    directory := s.directory
    ports := s.ports
    gathered := s.gathered
    input := s.input
    options }

/-! ## Words -/

/-- What is cut off a text. -/
def cutText (m : Modifier) (pattern : List MarkedChar) (text : String) : String :=
  let p := Pattern.ofChars pattern
  String.ofList (match m with
    | .cutStart longest => p.cutStart longest text.toList
    | .cutEnd longest => p.cutEnd longest text.toList
    | _ => text.toList)

/-- Whether a parameter has a value, one that is not empty if that counts. -/
def isPresent (emptyToo : Bool) (texts : Option (List String)) : Bool :=
  match texts with
  | none => false
  | some texts => !emptyToo || texts.any (· ≠ "")

/-- A word with the home directory in place of a tilde at its start. -/
def atHome (w : Word) : ShellM Word := do
  match w with
  | [(.text ['~'], false)] =>
    return [(.text ((← valueOf? "HOME").getD "~").toList, true)]
  | (.text ['~'], false) :: (.text ['/'], false) :: rest =>
    return (.text (((← valueOf? "HOME").getD "~") ++ "/").toList, true) :: rest
  | w => return w

/-! ## Around commands -/

/-- Runs something and then lets descriptors lead to where they did before. -/
def keepingPorts (changesInput : Bool) (act : ShellM Course) : ShellM Course := do
  let s ← get
  let course ← act
  modify fun t ↦ { t with ports := s.ports, input := if changesInput then s.input else t.input }
  return course

/-- Runs a loop, out of which commands in it can lead. -/
def inLoop (act : ShellM Course) : ShellM Course := do
  modify fun s ↦ { s with loops := s.loops + 1 }
  let course ← act
  modify fun s ↦ { s with loops := s.loops - 1 }
  return course

/-- Ends a script that does not go on after failures, unless the failure is looked at. -/
def checked (tested : Bool) (act : ShellM Course) : ShellM Course := do
  let course ← act
  let s ← get
  if course = .goesOn && s.status ≠ 0 && !tested && s.hasOption 'e' then return .exits
  else return course

/-- The code of a redirection that fails. -/
def redirectionFault : ShellM UInt8 := do
  return if (← get).dialect = .standard then 2 else 1

/-- Takes over how a program ended. -/
def endLike (name : String) (status : Option Status) : ShellM Course := do
  match status with
  | some status =>
    let _ ← endWith status.code
    if let .killed signal := status then
      modify fun s ↦ { s with killedBy := some signal }
    return .goesOn
  | none =>
    let s ← get
    let stands ← onMachine (({ directory := s.directory } : Call).exists? name)
    endWith (if name.contains '/' && stands then 126 else 127)

/-- The tools of which a shell has its own. -/
def ownTool? (d : Dialect) (name : String) : Option Tool :=
  match d, name with
  | .standard, "echo" => some Tool.plainEcho
  | .standard, "printf" => some Tool.plainPrint
  | .extended, "[[" => some fun c ↦ Tool.testArguments c c.arguments.dropLast
  | _, _ => none

/-- The names of what a shell does by itself besides `builtin?`. -/
def otherBuiltins : List String :=
  ["eval", "exec", "command", "type", "kill", "source", ".", "echo", "printf", "test", "[", "true",
    "false"]

/-- The programs that run others and are no tools. -/
def otherPrograms : List String :=
  ["sh", "dash", "bash", "env", "nice", "nohup", "setsid", "timeout", "xargs", "which"]

/-- Whether there is something of a name that can be run. -/
def isKnown (s : Shell) (name : String) : Bool :=
  (s.functions.lookup name).isSome || (builtin? name []).isSome || otherBuiltins.contains name

/-- Where a program stands, if there is one of a name. -/
def whereIs? (name : String) : Option String :=
  if (Tool.find? name).isSome || otherPrograms.contains name then
    some (if name.contains '/' then name else "/usr/bin/" ++ name)
  else none

/-- Tells what names stand for; one that stands for nothing makes it fail. -/
def describe (names : List String) (missing : UInt8) : ShellM Course := do
  let s ← get
  let found := names.filterMap fun name ↦
    if s.isKnown name then some name else whereIs? name
  emit 1 (String.join (found.map (· ++ "\n"))).toUTF8
  endWith (if found.length = names.length then 0 else missing)

/-- The signal that is asked for, if there is one, and the processes. -/
def signalAndTargets (d : Dialect) (arguments : List String) : Option Nat × List String :=
  match arguments with
  | "-s" :: name :: targets => (signal? d name, targets.dropWhile (· = "--"))
  | "-n" :: name :: targets =>
    (if d = .extended then signal? d name else none, targets.dropWhile (· = "--"))
  | "--" :: targets => (some 15, targets)
  | first :: targets =>
    match first.toList with
    | '-' :: c :: cs => (signal? d (String.ofList (c :: cs)), targets.dropWhile (· = "--"))
    | _ => (some 15, arguments)
  | [] => (some 15, [])

/-- Calls a tool and sends on what it writes. -/
def use (tool : Tool) (arguments : List String) : ShellM Status := do
  let s ← get
  let ending ← onMachine (tool { arguments, input := s.input, directory := s.directory })
  if ending.tookInput then modify fun s ↦ { s with input := .empty }
  emit 1 ending.output
  return ending.status

mutual

/-- Adds the pieces of a word; there is nothing after a fault. -/
def addPieces (t : Taking) : Nat → Fields → Word → ShellM (Option Fields)
  | 0, _, _ => return none
  | _ + 1, f, [] => return some f
  | fuel + 1, f, (piece, quoted) :: rest => do
    match ← addPiece t fuel f piece quoted with
    | some f => addPieces t fuel f rest
    | none => return none

/-- Adds one piece of a word. -/
def addPiece (t : Taking) : Nat → Fields → Piece → Bool → ShellM (Option Fields)
  | 0, _, _, _ => return none
  | fuel + 1, f, piece, quoted => do
    match piece with
    | .text cs => return some (f.extend (cs.map fun c ↦ (c, quoted)))
    | .output c =>
      let (course, output) ← gathering (apart (run fuel false c))
      modify fun s ↦ { s with taken := some s.status }
      match course with
      | .dies _ => return none
      | _ => return some (addValues t .status quoted f [outputText output])
    | .arithmetic w =>
      match ← wholeWord fuel w with
      | none => return none
      | some cs =>
        let s ← get
        let known := s.numbers
        match Arithmetic.evaluate? known (cs.map Prod.fst) with
        | none => fault 2 1
        | some (i, after) =>
          (after.take (after.length - known.length)).reverse.forM fun (name, v) ↦
            assign name (toString v)
          return some (addValues t .status quoted f [toString i])
    | .parameter p m argument => addParameter t fuel f p m argument quoted

/-- Adds what a modifier makes of a parameter. -/
def addParameter (t : Taking) : Nat → Fields → Parameter → Modifier → Word → Bool →
    ShellM (Option Fields)
  | 0, _, _, _, _, _ => return none
  | fuel + 1, f, p, m, argument, quoted => do
    let texts ← values p
    let plain : ShellM (Option Fields) := do
      if texts.isNone && (← get).hasOption 'u' then fault 2 127
      else return some (addValues t p quoted f (texts.getD [""]))
    match m with
    | .plain => plain
    | .unknown => fault 2 1
    | .length =>
      let n := match p with
        | .all _ => (texts.getD []).length
        | _ => (String.join (texts.getD [])).utf8ByteSize
      return some (addValues t .count quoted f [toString n])
    | .orElse emptyToo =>
      if isPresent emptyToo texts then plain else addArgument t fuel f argument quoted
    | .ifPresent emptyToo =>
      if isPresent emptyToo texts then addArgument t fuel f argument quoted
      else return some (if quoted then f.quote "" else f)
    | .orFail emptyToo => if isPresent emptyToo texts then plain else fault 2 127
    | .orAssign emptyToo =>
      if isPresent emptyToo texts then plain
      else
        match ← wholeWord fuel argument, p with
        | some cs, .variable name =>
          assign name (plainText cs)
          return some (addValues t p quoted f [plainText cs])
        | _, _ => fault 2 1
    | .cutStart _ | .cutEnd _ =>
      match ← wholeWord fuel argument with
      | none => return none
      | some pattern =>
        if texts.isNone && (← get).hasOption 'u' then return ← fault 2 127
        return some (addValues t p quoted f ((texts.getD [""]).map (cutText m pattern)))

/-- Adds the argument of a modifier; text in it that is not quoted is split like a value. -/
def addArgument (t : Taking) : Nat → Fields → Word → Bool → ShellM (Option Fields)
  | 0, _, _, _ => return none
  | fuel + 1, f, argument, quoted => do
    match argument with
    | [] => return some (if quoted then f.quote "" else f)
    | (.text cs, false) :: rest =>
      if t.splits then addArgument t fuel (f.splice t.separators (String.ofList cs)) rest false
      else addArgument t fuel (f.extend (cs.map fun c ↦ (c, false))) rest false
    | piece :: rest =>
      match ← addPiece t fuel f piece.1 piece.2, rest with
      | some f, [] => return some f
      | some f, rest => addArgument t fuel f rest quoted
      | none, _ => return none

/-- The one text that a word stands for. -/
def wholeWord : Nat → Word → ShellM (Option (List MarkedChar))
  | 0, _ => return none
  | fuel + 1, w => do
    let separators := (← valueOf? "IFS").getD ""
    return (← addPieces ⟨false, separators⟩ fuel {} (← atHome w)).map Fields.whole

/-- The fields that words stand for. -/
def fields : Nat → List Word → ShellM (Option (List String))
  | 0, _ => return none
  | _ + 1, [] => return some []
  | fuel + 1, w :: ws => do
    let separators := (← valueOf? "IFS").getD ""
    let extended := (← get).dialect = .extended
    match if extended then unbrace (w.length + 1) w else [w] with
    | first :: second :: others =>
      return (← fields fuel (first :: second :: others ++ ws))
    | _ =>
      match ← addPieces ⟨true, separators⟩ fuel {} (← atHome w) with
      | none => return none
      | some f =>
        let first := (← f.toList.mapM paths).flatten
        return (← fields fuel ws).map (first ++ ·)


def assignAll : Nat → List (String × Word) → ShellM (Option Unit)
  | 0, _ => return none
  | _ + 1, [] => return some ()
  | fuel + 1, (name, w) :: rest => do
    match ← wholeWord fuel w with
    | none => return none
    | some cs =>
      if (← get).constants.contains name then fault 2 1
      else
        assign name (plainText cs)
        if (← get).hasOption 'a' then declare true name
        assignAll fuel rest

/-- Follows redirections in order, until one fails. -/
def redirectAll : Nat → List (Redirection Word) → ShellM Bool
  | 0, _ => return false
  | _ + 1, [] => return true
  | fuel + 1, r :: rest => do
    match ← wholeWord fuel r.word with
    | none => return false
    | some cs =>
      if ← redirect r.descriptor r.kind (plainText cs) then redirectAll fuel rest
      else return false

/-- Runs commands; `tested` says that a failure is looked at. -/
def run : Nat → Bool → Script → ShellM Course
  | 0, _, _ => fatal 2
  | fuel + 1, tested, c => do
    match c with
    | .nothing => return .goesOn
    | .simple assignments words redirections =>
      checked tested (simple fuel tested assignments words redirections)
    | .sequence first second =>
      match ← run fuel tested first with
      | .goesOn => run fuel tested second
      | course => return course
    | .ifSucceeds first second =>
      match ← run fuel true first with
      | .goesOn => if (← get).status = 0 then run fuel tested second else return .goesOn
      | course => return course
    | .ifFails first second =>
      match ← run fuel true first with
      | .goesOn => if (← get).status = 0 then return .goesOn else run fuel tested second
      | course => return course
    | .negation body =>
      match ← run fuel true body with
      | .goesOn =>
        let status := (← get).status
        endWith (if status = 0 then 1 else 0)
      | course => return course
    | .pipe first second =>
      let (course, output) ← gathering (apart (run fuel tested first))
      let before ← get
      if course ≠ .goesOn then return course
      set { before with input := output }
      let course ← checked tested (apart (run fuel tested second))
      modify fun s ↦ { s with input := before.input }
      if before.hasOption 'P' && before.status ≠ 0 && (← get).status = 0 then
        checked tested (endWith before.status)
      else return course
    | .background body =>
      let course ← apart (run fuel true body)
      modify fun s ↦ { s with detached := s.status }
      let _ ← endWith 0
      return course
    | .apart body => checked tested (apart do
      modify fun s ↦ { s with traps := s.traps.filter (·.2 = "") }
      conclude fuel (← run fuel tested body))
    | .choice test yes no =>
      match ← run fuel true test with
      | .goesOn => run fuel tested (if (← get).status = 0 then yes else no)
      | course => return course
    | .loop whileSucceeds test body =>
      inLoop (repeated fuel tested whileSucceeds test body 0)
    | .each name words body =>
      match words with
      | none =>
        let parameters := (← get).parameters
        inLoop (each fuel tested name body (parameters.drop 1))
      | some ws =>
        match ← fields fuel ws with
        | none => return .exits
        | some texts =>
          let _ ← endWith 0
          inLoop (each fuel tested name body texts)
    | .cases w branches =>
      match ← wholeWord fuel w with
      | none => return .exits
      | some cs => branch fuel tested (cs.map Prod.fst) branches
    | .function name body =>
      modify fun s ↦ { s with functions := (name, body) :: s.functions }
      endWith 0
    | .redirected body redirections =>
      keepingPorts (redirections.any (·.descriptor = 0)) do
        if ← redirectAll fuel redirections then run fuel tested body
        else checked tested (do endWith (← redirectionFault))

/-- Runs a body as long as a test succeeds, or fails. -/
def repeated : Nat → Bool → Bool → Script → Script → UInt8 → ShellM Course
  | 0, _, _, _, _, _ => fatal 2
  | fuel + 1, tested, whileSucceeds, test, body, last => do
    match ← run fuel true test with
    | .goesOn =>
      if ((← get).status = 0) = (whileSucceeds = true) then
        match ← run fuel tested body with
        | .goesOn | .continues 0 =>
          repeated fuel tested whileSucceeds test body (← get).status
        | .breaks 0 => endWith 0
        | .breaks (n + 1) => return .breaks n
        | .continues (n + 1) => return .continues n
        | course => return course
      else endWith last
    | course => return course

def each : Nat → Bool → String → Script → List String → ShellM Course
  | 0, _, _, _, _ => fatal 2
  | _ + 1, _, _, _, [] => return .goesOn
  | fuel + 1, tested, name, body, text :: rest => do
    assign name text
    match ← run fuel tested body with
    | .goesOn | .continues 0 => each fuel tested name body rest
    | .breaks 0 => endWith 0
    | .breaks (n + 1) => return .breaks n
    | .continues (n + 1) => return .continues n
    | course => return course

/-- Runs what belongs to the first pattern that stands for a text. -/
def branch : Nat → Bool → List Char → List Branch → ShellM Course
  | 0, _, _, _ => fatal 2
  | _ + 1, _, _, [] => endWith 0
  | fuel + 1, tested, cs, (patterns, body) :: rest => do
    match patterns with
    | [] => branch fuel tested cs rest
    | w :: ws =>
      match ← wholeWord fuel w with
      | none => return .exits
      | some pattern =>
        if (Pattern.ofChars pattern).accepts cs then
          let _ ← endWith 0
          run fuel tested body
        else branch fuel tested cs ((ws, body) :: rest)

/-- Runs a simple command: its words first, then its redirections, then its assignments. -/
def simple : Nat → Bool → List (String × Word) → List Word → List (Redirection Word) →
    ShellM Course
  | 0, _, _, _, _ => fatal 2
  | fuel + 1, tested, assignments, words, redirections => do
    modify fun s ↦ { s with taken := none }
    match ← fields fuel words with
    | none => return .exits
    | some texts =>
      let act : ShellM Course := do
        if !(← redirectAll fuel redirections) then
          let code ← redirectionFault
          if code = 2 && isSpecial (texts.headD "") then fatal code else endWith code
        else
          let before ← get
          if (← assignAll fuel assignments).isNone then return .exits
          else
            match texts with
            | [] =>
              let taken := (← get).taken
              endWith (taken.getD 0)
            | name :: arguments =>
              let names := assignments.map Prod.fst
              modify fun s ↦ { s with exported := names ++ s.exported }
              let course ← command fuel tested true name arguments
              if !names.isEmpty && !isSpecial name then
                modify fun s ↦ { s with
                  exported := before.exported
                  bindings := before.bindings.filter (names.contains ·.1) ++
                    s.bindings.filter (!names.contains ·.1) }
              return course
      if texts = ["exec"] then act
      else keepingPorts (redirections.any (·.descriptor = 0)) act

/-- Runs what has a name: a function, something that the shell does by itself, or a program. -/
def command : Nat → Bool → Bool → String → List String → ShellM Course
  | 0, _, _, _, _ => fatal 2
  | fuel + 1, tested, functions, name, arguments => do
    let s ← get
    match if functions && !isSpecial name then s.functions.lookup name else none with
    | some body =>
      set { s with parameters := s.parameters.take 1 ++ arguments, locals := some [] }
      let course ← run fuel tested body
      forgetLocals
      modify fun t ↦ { t with parameters := s.parameters, locals := s.locals }
      return if course = .returns then .goesOn else course
    | none =>
      match name, arguments with
      | "eval", arguments => lines fuel tested (" ".intercalate arguments).toList
      | ".", p :: _ | "source", p :: _ =>
        match ← onMachine (({ directory := s.directory } : Call).read p) with
        | .ok content => lines fuel tested ((String.fromUTF8? content).getD "").toList
        | .error _ => if s.dialect = .standard then fatal 2 else endWith 1
      | "exec", [] => endWith 0
      | "exec", program' :: arguments =>
        match ← endLike program' (← program fuel program' arguments), (← get).killedBy with
        | _, some signal => return .dies signal
        | _, none => return .exits
      | "command", "-v" :: names | "command", "-V" :: names | "type", names =>
        describe names (if s.dialect = .standard then 127 else 1)
      | "which", names => describe names 1
      | "command", arguments =>
        match arguments.dropWhile (· = "-p") with
        | [] => endWith 0
        | first :: rest => command fuel tested false first rest
      | "kill", "-l" :: texts =>
        let names := texts.map fun t ↦
          (t.toNat?.bind fun n ↦ Status.signalName? (n % 128)).map fun n ↦ (n.drop 3).toString
        emit 1 (String.join (names.map fun n ↦ n.getD "" ++ "\n")).toUTF8
        endWith (if names.all Option.isSome then 0 else 2)
      | "kill", arguments =>
        match signalAndTargets s.dialect arguments with
        | (_, []) => endWith 2
        | (none, _) => endWith (if s.dialect = .standard then 2 else 1)
        | (some signal, targets) =>
          let _ ← endWith 0
          send fuel signal targets
      | name, arguments =>
        match builtin? name arguments, ownTool? s.dialect name with
        | some act, _ => act
        | none, some tool => endLike name (some (← use tool arguments))
        | none, none =>
          let course ← endLike name (← program fuel name arguments)
          let s ← get
          let mine := s.sent.filter (·.1 = s.process)
          set { s with sent := s.sent.filter (·.1 ≠ s.process) }
          receive fuel course (mine.map Prod.snd)

/-- Takes the signals that programs have sent. -/
def receive : Nat → Course → List Nat → ShellM Course
  | 0, _, _ => fatal 2
  | _ + 1, course, [] => return course
  | fuel + 1, course, signal :: rest => do
    let status := (← get).status
    match ← send fuel signal [toString (← get).process] with
    | .goesOn =>
      modify fun s ↦ { s with status }
      receive fuel course rest
    | course => return course

/-- Sends a signal to processes; only the shell itself and what it started are known. -/
def send : Nat → Nat → List String → ShellM Course
  | 0, _, _ => fatal 2
  | _ + 1, _, [] => return .goesOn
  | fuel + 1, signal, target :: rest => do
    let s ← get
    let name := ((Status.signalName? signal).map fun n ↦ (n.drop 3).toString).getD
      (toString signal)
    match target.toInt? with
    | none => endWith (if s.dialect = .standard then 2 else 1)
    | some process =>
      if process = s.process + 1 then
        if signal ≠ 0 then set { s with detached := UInt8.ofNat (128 + signal) }
        send fuel signal rest
      else if firstProcess ≤ process && process < s.process then
        set { s with sent := s.sent ++ [(process.toNat, signal)] }
        send fuel signal rest
      else if process ≠ s.process && process ≠ 0 then
        match ← send fuel signal rest with
        | .goesOn => endWith 1
        | course => return course
      else
        match if name = "KILL" then none else s.traps.lookup name with
        | some action =>
          match ← lines fuel false action.toList with
          | .goesOn =>
            modify fun t ↦ { t with status := s.status }
            send fuel signal rest
          | course => return course
        | none =>
          if Status.isHarmless signal || (s.dialect = .extended && name = "QUIT") then
            send fuel signal rest
          else return .dies signal

/-- Runs a program; there is no status if there is no such program. -/
def program : Nat → String → List String → ShellM (Option Status)
  | 0, _, _ => return none
  | fuel + 1, name, arguments => do
    let s ← get
    match dialectOf? name with
    | some d =>
      let (options, source, parameters) := sourceOf false [] arguments
      let text? ← match source with
        | .argument text => pure (some text)
        | .input => pure (String.fromUTF8? s.input)
        | .unclear => pure none
        | .file path => do
          match ← onMachine (({ directory := s.directory } : Call).read path) with
          | .ok content => pure (String.fromUTF8? content)
          | .error _ => pure none
      match text? with
      | none => return some (.exited (if source matches .file _ ∧ d = .extended then 127 else 2))
      | some text =>
        let child := s.started d options (if parameters.isEmpty then [name] else parameters)
        set (if source = .input then { child with input := .empty } else child)
        let status ← script fuel text.toList
        let after ← get
        set { s with gathered := after.gathered, input := after.input, sent := after.sent }
        return some status
    | none =>
      if Tool.baseName name = "xargs" then
        set { s with input := .empty }
        return ← complete fuel true (fromInput s.input none none arguments)
      match wrapped? name arguments with
      | some (_, []) =>
        return some (if ["env", "nice"].contains (Tool.baseName name) then .success
          else .exited 125)
      | some (settings, inner :: arguments) =>
        settings.forM fun (n, value) ↦ declare true (n ++ "=" ++ value)
        let status ← program fuel inner arguments
        modify fun t ↦ { t with bindings := s.bindings, exported := s.exported }
        return some (status.getD (.exited 127))
      | none =>
        match Tool.find? name with
        | none => return none
        | some tool => return some (← use tool arguments)

/-- Runs commands one after the other; answers whether all succeeded. -/
def complete : Nat → Bool → List (List String) → ShellM (Option Status)
  | 0, _, _ => return none
  | _ + 1, all, [] => return some (if all then .success else .exited 123)
  | fuel + 1, all, [] :: rest => complete fuel all rest
  | fuel + 1, all, (name :: arguments) :: rest => do
    match ← program fuel name arguments with
    | none => return some (.exited 127)
    | some status => complete fuel (all && status.succeeded) rest

/-- Runs a script line by line; a line that cannot be read ends it. -/
def lines : Nat → Bool → List Char → ShellM Course
  | 0, _, _ => fatal 2
  | fuel + 1, tested, cs => do
    match Script.toNextCommand cs with
    | [] => return .goesOn
    | cs =>
      match Script.nextLine? (← get).dialect cs with
      | none => fatal 2
      | some (c, rest) =>
        if (← get).hasOption 'n' then return ← lines fuel tested rest
        match ← run fuel tested c with
        | .goesOn => lines fuel tested rest
        | course => return course

/-- Runs a whole script, and what it wants to be done at its exit. -/
def script : Nat → List Char → ShellM Status
  | 0, _ => return .exited 2
  | fuel + 1, cs => do
    let course ← conclude fuel (← lines fuel false cs)
    let s ← get
    match course with
    | .dies signal => return .killed signal
    | .goesOn =>
      let killed := if s.dialect = .extended then s.killedBy else none
      return (killed.map Status.killed).getD (.exited s.status)
    | _ => return .exited s.status

/-- Does what is wanted at the exit of a shell. -/
def conclude : Nat → Course → ShellM Course
  | 0, course => return course
  | fuel + 1, course => do
    let s ← get
    match s.traps.lookup "EXIT" with
    | none => return course
    | some action =>
      if (course matches .dies _) && s.dialect = .standard then return course
      set { s with traps := s.traps.filter (·.1 ≠ "EXIT") }
      match ← lines fuel false action.toList with
      | .dies signal => return .dies signal
      | .exits => return .exits
      | _ =>
        modify fun t ↦ { t with status := s.status }
        return if course matches .dies _ then course else .exits

end

end Shell

/-- Runs a command; there is no status if it cannot be started. -/
def run (program : String) (arguments : List String) : OnMachine (Option Status) := do
  if (program :: arguments).any (·.contains '\x00') then return none
  return (← (Shell.program depthLimit program arguments).run {}).1

end HeapSentry.Command
