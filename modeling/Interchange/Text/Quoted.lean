/-
# Quoted text

Text in double quotes, written so that every character can be seen: quotes, backslashes and the
common controls have short escapes, and other characters that do not show on their own are written
by their code point in hexadecimal.  The debug text of a string is written so, and with it that of
every value that holds one.  `escape` follows `escape_debug` of the standard library, inside double
quotes.
-/
import Interchange.Text.Invisible

namespace Interchange
namespace Quoted

/-- The hexadecimal escape of a character, with as many digits as it needs. -/
def codeEscape (c : Char) : List Char :=
  '\\' :: 'u' :: '\x7b' :: (Nat.toDigits 16 c.toNat ++ ['\x7d'])

/-- A character as it is written between double quotes.  The order matters only for the controls,
which do not show on their own either; a single quote shows and needs no escape. -/
def escape (c : Char) : List Char :=
  if c = '\x00' then ['\\', '0']
  else if c = '\t' then ['\\', 't']
  else if c = '\r' then ['\\', 'r']
  else if c = '\n' then ['\\', 'n']
  else if c = '"' then ['\\', '"']
  else if c = '\\' then ['\\', '\\']
  else if isInvisible c then codeEscape c
  else [c]

def write (text : List Char) : List Char := '"' :: (text.flatMap escape ++ ['"'])

/-- Short escapes, a code point, and a single quote, which needs no escape. -/
example : write ['a', '"', '\n', '\x1b', '\''] =
    ['"', 'a', '\\', '"', '\\', 'n', '\\', 'u', '\x7b', '1', 'b', '\x7d', '\'', '"'] := by
  decide +kernel

end Quoted
end Interchange
