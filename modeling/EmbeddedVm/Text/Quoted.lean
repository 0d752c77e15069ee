import EmbeddedVm.Bytes.LittleEndian
import EmbeddedVm.Text.Unprintable

/-!
# Text between quotes

Texts that appear inside messages and listings stand between double quotes. The quote, the backslash
and the common controls have two-character escapes, and every other character without a form of its
own is written by its code point in braces.
-/

namespace EmbeddedVm.Text

/-- A character as it appears between quotes. -/
def escapeChar (c : Char) : List Char :=
  if c = '\x00' then ['\\', '0']
  else if c = '\t' then ['\\', 't']
  else if c = '\r' then ['\\', 'r']
  else if c = '\n' then ['\\', 'n']
  else if c = '"' then ['\\', '"']
  else if c = '\\' then ['\\', '\\']
  else if isUnprintable c then '\\' :: 'u' :: '\x7b' :: (hexDigits c.toNat ++ ['\x7d'])
  else [c]

/-- A text between quotes. -/
def quoted (s : String) : String :=
  String.ofList ('"' :: (s.toList.flatMap escapeChar ++ ['"']))

end EmbeddedVm.Text
