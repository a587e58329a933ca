import ScriptBundler.Script.Word
/-!
# Clauses — `class` and `extends` on a line of code

A clause is a keyword, one blank and a symbol, outside of comments: only the part of a line before
its first `#` counts. A line has at most one clause of a keyword, its last one.
-/

namespace ScriptBundler.Script

/-- The keyword that declares a symbol. -/
def classWord : List Char := ['c', 'l', 'a', 's', 's']

/-- The keyword that names a superclass. -/
def extendsWord : List Char := ['e', 'x', 't', 'e', 'n', 'd', 's']

/-- The lines of a text, without their line ends; there is one more than there are line ends. -/
def splitLines (text : List Char) : List (List Char) :=
  text.splitOn '\n'

/-- Lines put back together, a line end between every two. -/
def joinLines (lines : List (List Char)) : List Char :=
  ['\n'].intercalate lines

/-- The part of a line before its comment. -/
def code (line : List Char) : List Char :=
  line.takeWhile (· != '#')

/-- A line from its comment on. -/
def comment (line : List Char) : List Char :=
  line.dropWhile (· != '#')

/-- A clause at the head of a text: the keyword, one blank and a symbol; gives the symbol and what
follows it. -/
def clause? (keyword text : List Char) : Option (List Char × List Char) :=
  match keyword.isPrefixOf? text with
  | some (c :: rest) => if isGap c then word? isWordPart rest else none
  | _ => none

/-- The last clause in a text, or `found` if there is none. -/
def lastClauseOr (keyword : List Char) (found : Option (List Char × List Char)) :
    List Char → Option (List Char × List Char)
  | [] => found
  | c :: text => lastClauseOr keyword ((clause? keyword (c :: text)).or found) text

/-- The last clause of the code on a line: its symbol, and what follows it in the code. -/
def lineClause? (keyword line : List Char) : Option (List Char × List Char) :=
  lastClauseOr keyword none (code line)

/-- The symbols that a keyword's clauses name, line by line. -/
def clauseNames (keyword text : List Char) : List (List Char) :=
  (splitLines text).filterMap fun line => (lineClause? keyword line).map Prod.fst

/-- A line without its clause, which takes everything before it along. -/
def eraseLineClause (keyword line : List Char) : List Char :=
  match lineClause? keyword line with
  | some (_, rest) => rest ++ comment line
  | none => line

/-- The text without a keyword's clauses. -/
def eraseClauses (keyword text : List Char) : List Char :=
  joinLines ((splitLines text).map (eraseLineClause keyword))

end ScriptBundler.Script
