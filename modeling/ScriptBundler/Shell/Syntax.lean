import ScriptBundler.Shell.Bytes
/-!
# Scripts — what a command script says

A script is made of commands, and a command of words. A word is a row of parts, each of which stands
for text: a character as written, the value of a parameter, the output of a command, or a number.
Whether a part is quoted decides what happens to its text later on.
-/

namespace ScriptBundler.Shell

/-- What stands in for a parameter that has no value. -/
inductive Substitute where
  /-- A word. -/
  | word
  /-- A word, which becomes the value. -/
  | assignment
  /-- A complaint that ends the script. -/
  | complaint
  /-- A word if there is a value, and nothing otherwise. -/
  | alternative
  deriving DecidableEq

/-- Where a redirection leads. -/
inductive Direction where
  /-- From a file. -/
  | input
  /-- To a file, which is emptied. -/
  | output
  /-- To the end of a file. -/
  | append
  /-- To where another descriptor leads. -/
  | duplicate
  /-- From the target itself. -/
  | here
  deriving DecidableEq

mutual

/-- A part of a word. -/
inductive Part where
  /-- A character as written. -/
  | char (c : Char) (quoted : Bool)
  /-- Quotes with nothing in them. -/
  | nothing
  /-- The value of a parameter. -/
  | parameter (name : Bytes) (change : Change) (quoted : Bool)
  /-- The output of a command, without the line ends at its end. -/
  | output (body : Command) (quoted : Bool)
  /-- The number that an expression stands for. -/
  | arithmetic (expression : List Part) (quoted : Bool)
  /-- A parameter that is written wrongly. -/
  | malformed

/-- What is done to the value of a parameter. -/
inductive Change where
  | none
  /-- How many bytes it has. -/
  | size
  /-- What matches a pattern is dropped from its start or end, as much as possible or as little. -/
  | trim (fromEnd longest : Bool) (pattern : List Part)
  /-- Something stands in for it if it has no value; with a colon, also if that is empty. -/
  | substitute (kind : Substitute) (colon : Bool) (word : List Part)

/-- A command. -/
inductive Command where
  /-- Assignments, words and redirections; the line is where it starts. -/
  | simple (line : Nat) (assignments : List (Bytes × List Part)) (words : List (List Part))
      (redirections : List Redirection)
  /-- Each command reads what the one before it writes. -/
  | pipeline (negated : Bool) (stages : List Command)
  /-- The second command runs if the first one succeeds. -/
  | both (first second : Command)
  /-- The second command runs if the first one fails. -/
  | either (first second : Command)
  /-- One command after the other. -/
  | sequence (commands : List Command)
  /-- A command with redirections; on its own if its parameters are its own. -/
  | group (line : Nat) (apart : Bool) (body : Command) (redirections : List Redirection)
  /-- The body after the first condition that succeeds, or the last one. -/
  | choice (branches : List (Command × Command)) (otherwise : Option Command)
  /-- The body behind the first pattern that a word matches. -/
  | selection (subject : List Part) (arms : List (List (List Part) × Command))
  /-- The body as long as the condition succeeds, or as long as it fails. -/
  | loop (untilDone : Bool) (condition body : Command)
  /-- The body for each of some words, or for each argument. -/
  | each (name : Bytes) (words : Option (List (List Part))) (body : Command)
  /-- The body is not waited for. -/
  | background (body : Command)
  /-- The body runs whenever the name is called from now on. -/
  | definition (name : Bytes) (body : Command)

/-- A change of where a descriptor leads. -/
inductive Redirection where
  | mk (descriptor : Nat) (direction : Direction) (target : List Part)

end

/-- A word. -/
abbrev Word := List Part

/-- The characters of a word that is written plainly, without quotes or parameters. -/
def Word.plain? (word : Word) : Option Bytes :=
  word.mapM fun part =>
    match part with
    | .char c false => some c
    | _ => none

/-- A text that can be no script. -/
structure SyntaxFault where
  /-- The line where that shows. -/
  line : Nat
  /-- What is wrong. -/
  message : String
  deriving DecidableEq

/-- What a text says: commands, up to where the text can be no script. -/
structure Script where
  /-- The commands. -/
  commands : List Command
  /-- Why there are no more. -/
  fault : Option SyntaxFault

end ScriptBundler.Shell
