import LogQuery.Text.Class

/-!
Texts between quotes, as error messages show them: single quotes unless the text holds one and no
double quote, a backslash before the quote in use and before a backslash, and escapes for the
code points that do not print.
-/

namespace LogQuery.Text

/-- The digit of a value below sixteen, in lower case. -/
def hexDigit (n : Nat) : CodePoint :=
  if n < 10 then Char.ofNat ('0'.toNat + n) else Char.ofNat ('a'.toNat + (n - 10))

/-- The last `width` hexadecimal digits of `n`. -/
def hexText : Nat → Nat → Text
  | 0, _ => []
  | width + 1, n => hexText width (n / 16) ++ [hexDigit (n % 16)]

def quoteFor (cs : Text) : CodePoint :=
  if cs.contains '\x27' && !cs.contains '"' then '"' else '\x27'

def escapeOne (quote c : CodePoint) : Text :=
  if c == quote || c == '\\' then ['\\', c]
  else if c == '\n' then ['\\', 'n']
  else if c == '\r' then ['\\', 'r']
  else if c == '\t' then ['\\', 't']
  else if isPrintable c then [c]
  else if c.toNat < 0x100 then '\\' :: 'x' :: hexText 2 c.toNat
  else if c.toNat < 0x10000 then '\\' :: 'u' :: hexText 4 c.toNat
  else '\\' :: 'U' :: hexText 8 c.toNat

def quoted (s : Text) : Text :=
  let quote := quoteFor s
  quote :: s.flatMap (escapeOne quote) ++ [quote]

/-- The front of the text between quotes, at most so many code points of it. -/
def quotedFront (most : Nat) (s : Text) : Text :=
  (quoted s).take most

end LogQuery.Text
