import ScriptBundler.Text.Escaped
/-!
# Quoted text — a text as one visible line

Messages that show a path or a value between quotes spell what would not be seen: line ends and
tabs by name, quotes and backslashes with a backslash, other invisible characters by number.
-/

namespace ScriptBundler.Text

/-- A number in lower-case hexadecimal digits. -/
def hexadecimal (n : Nat) : String :=
  String.ofList (Nat.toDigits 16 n)

/-- How one character is written between double quotes. -/
def quoteChar (c : Char) : String :=
  if c == '"' then "\\\""
  else if c == '\\' then "\\\\"
  else if c == '\n' then "\\n"
  else if c == '\r' then "\\r"
  else if c == '\t' then "\\t"
  else if c == '\x00' then "\\0"
  else if c.toNat < 0x20 || isEscaped c.toNat then
    "\\u\x7b" ++ hexadecimal c.toNat ++ "\x7d"
  else String.singleton c

/-- A text between double quotes. -/
def quote (text : String) : String :=
  "\"" ++ String.join (text.toList.map quoteChar) ++ "\""

end ScriptBundler.Text
