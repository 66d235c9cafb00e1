/-!
# Placeholders in commands

The arguments of a dump command can mention the process and the file of the dump.
-/

namespace HeapSentry.Command

/-- Puts a text in place of each occurrence of `first :: rest`, from the left to the right. -/
def replaceAll (first : Char) (rest replacement : List Char) : List Char → List Char
  | [] => []
  | c :: cs =>
    if c = first ∧ rest.isPrefixOf cs then
      replacement ++ replaceAll first rest replacement (cs.drop rest.length)
    else c :: replaceAll first rest replacement cs
termination_by cs => cs.length
decreasing_by all_goals (simp only [List.length_drop, List.length_cons]; omega)

/-- Every placeholder starts with this. -/
def placeholderStart : Char := '\x7b'

def pidMark : List Char := "pid\x7d".toList

def pathMark : List Char := "path\x7d".toList

/-- An argument with its placeholders filled in, first those for the process. -/
def fillIn (pid : Nat) (path argument : String) : String :=
  let numbered := replaceAll placeholderStart pidMark (Nat.toDigits 10 pid) argument.toList
  String.ofList (replaceAll placeholderStart pathMark path.toList numbered)

/-- The arguments with which a dump is taken. -/
def dumpArguments (pid : Nat) (path : String) (command : List String) : List String :=
  command.map (fillIn pid path)

end HeapSentry.Command
