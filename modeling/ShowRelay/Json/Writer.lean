/-
  ShowRelay.Json.Writer

  Writing JSON in its compact form: strings, natural numbers, lists and objects
  without blanks. A character is escaped only where it has to be, by its letter
  if it has one and else by its number.
-/

import ShowRelay.Text.Quoted

namespace ShowRelay.Json

/-- One character between the quotes of a string. -/
def writeChar (c : Char) : List Char :=
  if c = '"' then ['\\', '"']
  else if c = '\\' then ['\\', '\\']
  else if c = '\x08' then ['\\', 'b']
  else if c = '\x0c' then ['\\', 'f']
  else if c = '\n' then ['\\', 'n']
  else if c = '\r' then ['\\', 'r']
  else if c = '\t' then ['\\', 't']
  else if c.toNat < 0x20 then
    ['\\', 'u', '0', '0', Nat.digitChar (c.toNat / 16), Nat.digitChar (c.toNat % 16)]
  else [c]

/-- A string. -/
def writeString (s : String) : List Char := '"' :: s.toList.flatMap writeChar ++ ['"']

/-- A natural number. -/
def writeNatural (n : Nat) : List Char := Nat.toDigits 10 n

/-- A string, or `null` where there is none. -/
def writeOptional : Option String → List Char
  | none => "null".toList
  | some s => writeString s

/-- Written values with commas between them. -/
def writeItems (items : List (List Char)) : List Char := [','].intercalate items

/-- A list of written values. -/
def writeList (items : List (List Char)) : List Char := '[' :: writeItems items ++ [']']

/-- An object of written members, each a name and a value. -/
def writeObject (members : List (String × List Char)) : List Char :=
  '\x7b' :: writeItems (members.map fun (name, value) => writeString name ++ ':' :: value)
    ++ ['\x7d']

end ShowRelay.Json
