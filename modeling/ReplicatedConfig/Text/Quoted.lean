import ReplicatedConfig.Text.Hidden

/-!
# Quoted text

A text in double quotes for a reader of diagnostics: the quote and the backslash stand
behind a backslash, the usual controls have a letter, and every other character that
cannot be seen by itself is given by its number in braces.
-/

namespace ReplicatedConfig.Text

/-- A character as it stands between quotes. -/
def quotedChar (c : Char) : List Char :=
  if c = '"' then ['\\', '"']
  else if c = '\\' then ['\\', '\\']
  else if c = '\n' then ['\\', 'n']
  else if c = '\r' then ['\\', 'r']
  else if c = '\t' then ['\\', 't']
  else if c.toNat = 0 then ['\\', '0']
  else if isHidden c then
    '\\' :: 'u' :: Char.ofNat 0x7b :: Nat.toDigits 16 c.toNat ++ [Char.ofNat 0x7d]
  else [c]

/-- A text between quotes. -/
def quoted (s : String) : String := String.ofList ('"' :: s.toList.flatMap quotedChar ++ ['"'])

/-- Texts between brackets, each in quotes. -/
def quotedList (ss : List String) : String := "[" ++ ", ".intercalate (ss.map quoted) ++ "]"

end ReplicatedConfig.Text
