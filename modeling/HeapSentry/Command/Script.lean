/-!
# Scripts

What a script is made of: words, whose pieces stand for text, and commands, which run programs and
each other.
-/

namespace HeapSentry.Command

inductive Dialect where
  | standard
  /-- One with more escapes and less strictness. -/
  | extended
  deriving DecidableEq, Repr

inductive Parameter where
  | variable (name : String)
  | positional (index : Nat)
  /-- All but the first positional parameter; in quotes they become one text if they are joined. -/
  | all (joined : Bool)
  /-- How many there are, not counting the first. -/
  | count
  /-- The status of the last command. -/
  | status
  /-- The process that runs the script. -/
  | process
  /-- The last process in the background. -/
  | background
  /-- The letters of the options that are set. -/
  | options
  deriving DecidableEq, Repr

/-- What is made of the value of a parameter.  Some ask whether there is a value, or also whether it
is empty. -/
inductive Modifier where
  | plain
  | length
  | orElse (emptyToo : Bool)
  | orAssign (emptyToo : Bool)
  | orFail (emptyToo : Bool)
  | ifPresent (emptyToo : Bool)
  | cutStart (longest : Bool)
  | cutEnd (longest : Bool)
  /-- One that does not exist. -/
  | unknown
  deriving DecidableEq, Repr

inductive RedirectionKind where
  | input
  | output (append : Bool)
  /-- What goes to one descriptor goes to another one. -/
  | duplicate
  /-- The word itself is the input. -/
  | text
  deriving DecidableEq, Repr

/-- Where a descriptor of a command leads, with the word that says so. -/
structure Redirection (ω : Type) where
  descriptor : Nat
  kind : RedirectionKind
  word : ω

mutual

inductive Piece where
  | text (cs : List Char)
  | parameter (p : Parameter) (m : Modifier) (argument : List (Piece × Bool))
  /-- The output of a command. -/
  | output (c : Script)
  | arithmetic (expression : List (Piece × Bool))

inductive Script where
  /-- Leaves everything as it is. -/
  | nothing
  | simple (assignments : List (String × List (Piece × Bool)))
      (words : List (List (Piece × Bool)))
      (redirections : List (Redirection (List (Piece × Bool))))
  | sequence (first second : Script)
  | ifSucceeds (first second : Script)
  | ifFails (first second : Script)
  | negation (body : Script)
  | pipe (first second : Script)
  | background (body : Script)
  /-- Runs in a copy of the shell. -/
  | apart (body : Script)
  | choice (test yes no : Script)
  /-- Runs as long as the test succeeds, or fails. -/
  | loop (whileSucceeds : Bool) (test body : Script)
  /-- Runs for each word, or for each positional parameter. -/
  | each (name : String) (words : Option (List (List (Piece × Bool)))) (body : Script)
  /-- Runs what belongs to the first pattern that the word matches. -/
  | cases (word : List (Piece × Bool)) (branches : List (List (List (Piece × Bool)) × Script))
  | function (name : String) (body : Script)
  | redirected (body : Script) (redirections : List (Redirection (List (Piece × Bool))))

end

/-- Pieces, with whether they stand in quotes. -/
abbrev Word := List (Piece × Bool)

abbrev Branch := List Word × Script

end HeapSentry.Command
