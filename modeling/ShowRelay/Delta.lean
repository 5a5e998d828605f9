/-
  ShowRelay.Delta

  The text form of a change to the show: `key:value` tokens separated by single
  spaces. Reading is lenient. A token without a colon is skipped, a token is cut
  at its first colon, and neither keys nor values are interpreted.
-/

import ShowRelay.Text.Cut

namespace ShowRelay

/-- One control parameter and the value given to it. -/
abbrev Setting := String × String

/-- A list of settings in the order in which they were written; where a key
    repeats, the later setting wins when the delta is applied. -/
abbrev Delta := List Setting

namespace Setting

/-- The written form `key:value`. -/
def text (s : Setting) : String := s.1 ++ ":" ++ s.2

/-- The setting written by one token, cut at its first colon. -/
def ofToken? (token : List Char) : Option Setting :=
  (Text.splitFirst? ':' token).map fun (key, value) => (String.ofList key, String.ofList value)

end Setting

namespace Delta

/-- The settings of a message in message order. -/
def decode (message : String) : Delta :=
  (message.toList.splitOn ' ').filterMap Setting.ofToken?

/-- The settings joined with single spaces, in the order given. -/
def encode (settings : Delta) : String :=
  " ".intercalate (settings.map Setting.text)

end Delta

end ShowRelay
