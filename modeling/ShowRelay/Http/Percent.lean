/-
  ShowRelay.Http.Percent

  Percent escapes in a URL. An escape is a percent sign and two hexadecimal
  digits in either case, and stands for one byte; every other character stands
  for its own UTF-8 bytes. The bytes together have to be text.
-/

import ShowRelay.Text.Numeral
import ShowRelay.Text.Utf8

namespace ShowRelay.Http

/-- The byte that two hexadecimal digits write. -/
def escapedByte? (high low : Char) : Option UInt8 := do
  let h ← Text.digitValue? 16 high
  let l ← Text.digitValue? 16 low
  return UInt8.ofNat (16 * h + l)

/-- The bytes of a text with escapes; there are none if an escape is malformed. -/
def unescapedBytes? : List Char → Option Bytes
  | [] => some []
  | '%' :: high :: low :: rest => do
    let byte ← escapedByte? high low
    return byte :: (← unescapedBytes? rest)
  | c :: rest =>
    if c = '%' then none
    else (unescapedBytes? rest).map (String.utf8EncodeChar c ++ ·)

/-- The text that a text with escapes stands for. -/
def unescape? (s : List Char) : Option String := do
  Utf8.decode? (← unescapedBytes? s)

end ShowRelay.Http
