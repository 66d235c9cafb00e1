import HeapSentry.Command.Tool.Edit
import HeapSentry.Command.Tool.Evaluate
import HeapSentry.Command.Tool.Files
import HeapSentry.Command.Tool.Test
import HeapSentry.Command.Tool.Text

/-!
# Finding tools

The tools that are at hand for commands, by name.
-/

namespace HeapSentry.Command.Tool

/-- Whether a text says how long to wait. -/
def isDuration (text : String) : Bool :=
  let cs := text.toList
  let digits := cs.filter Char.isDigit
  let unit := (cs.getLast?.map fun c ↦ "smhd".contains c).getD false
  let number := if unit then cs.dropLast else cs
  digits.length > 0 && number.all (fun c ↦ c.isDigit || c = '.') && number.count '.' ≤ 1

/-- Waiting takes no time here. -/
def sleep : Tool := fun c ↦
  return .answer (!c.arguments.isEmpty && c.arguments.all isDuration)

def all : List (String × Tool) :=
  [("true", ending .success), ("false", ending .failure), ("sleep", sleep),
    ("sync", ending .success), ("echo", echo), ("printf", print), ("seq", sequence),
    ("cat", concatenate), ("tac", reverseLines), ("rev", reverseEach),
    ("head", excerpt headOf), ("tail", excerpt tailOf), ("wc", count), ("tee", tee),
    ("grep", search false false), ("egrep", search true false), ("fgrep", search false true),
    ("sed", edit), ("sort", sort), ("uniq", unique), ("cut", cut), ("tr", translate),
    ("basename", baseNameOf), ("dirname", directoryNameOf), ("sha256sum", digests),
    ("cp", copy), ("mv", move), ("ln", link), ("install", install), ("mkdir", makeDirectories),
    ("rm", remove), ("unlink", remove),
    ("rmdir", removeDirectories), ("mktemp", makeTemporary), ("ls", listNames),
    ("yes", repeatText), ("touch", touch), ("truncate", truncate),
    ("chmod", onExisting 1), ("chown", onExisting 1), ("dd", copyBlocks), ("cmp", compareFiles),
    ("expr", evaluate), ("test", test), ("[", bracketTest)]

/-- The name of a program without the directory where programs stand. -/
def baseName (program : String) : String :=
  match program.dropPrefix? "/usr/bin/", program.dropPrefix? "/bin/" with
  | some name, _ | none, some name => name.toString
  | none, none => program

def find? (program : String) : Option Tool := all.lookup (baseName program)

end HeapSentry.Command.Tool
