/-!
# Scripts

The small command language in which the companion of a rehearsal is written:
commands with words and redirections, run one after the other or depending on
each other's status, and choices by pattern or by status. There are no loops
and no variables to set, so every script ends.
-/

namespace LinkTelemetry.Host

/-- A part of a word. What is quoted stands for itself and is never split. -/
inductive Piece where
  | letters (text : List Char) (quoted : Bool)
  /-- The value of a parameter. -/
  | parameter (name : String) (quoted : Bool)
  deriving DecidableEq, Repr

abbrev Word := List Piece

/-- Where output goes. -/
inductive Sink where
  | stdout
  | stderr
  | nowhere
  deriving DecidableEq, Repr

/-- A redirection of standard output (1) or standard error (2). -/
structure Redirection where
  source : Nat
  /-- The stream that it joins; `none` for a file, which nobody reads. -/
  target : Option Nat
  deriving DecidableEq, Repr

inductive Command where
  | nothing
  | simple (words : List Word)
  | redirected (body : Command) (redirections : List Redirection)
  | sequence (first second : Command)
  /-- The second only if the first succeeds. -/
  | andThen (first second : Command)
  /-- The second only if the first fails. -/
  | orElse (first second : Command)
  | negated (body : Command)
  /-- The output of the first is the input of the second. -/
  | piped (first second : Command)
  | branch (test success failure : Command)
  /-- The body if the subject fits one of the patterns, else the rest. -/
  | choose (subject : Word) (patterns : List Word) (body rest : Command)
  /-- Ends only itself when it exits. -/
  | nested (body : Command)
  deriving Repr

/-- The text of a word that has no quotes and no parameters. -/
def Word.plain? : Word → Option (List Char)
  | [] => some []
  | .letters text false :: rest => (Word.plain? rest).map (text ++ ·)
  | _ :: _ => none

end LinkTelemetry.Host
