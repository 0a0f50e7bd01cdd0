import LogQuery.Text.Split

/-!
Integers as text. Written form: a sign if negative, then decimal digits. Reading is more generous:
blanks around it, either sign, digits of any script, and single underscores between digits.
-/

namespace LogQuery.Integer

/-- The most digits that are read. -/
def maxDigits : Nat := 4300

/-- Why a text is no integer. -/
inductive ReadError where
  | malformed
  | tooLong (digits : Nat)
deriving DecidableEq, Repr

def digits (n : Nat) : Text :=
  (Nat.toDigits 10 n).map .char

def zeros (n : Nat) : Text :=
  List.replicate n '0'

def text (n : Int) : Text :=
  match n with
  | .ofNat n => digits n
  | .negSucc n => '-' :: digits (n + 1)

/-- The number that decimal digits of any script denote. -/
def ofDigits (cs : Text) : Nat :=
  cs.foldl (fun n c => n * 10 + (Text.digitValue? c).getD 0) 0

/-- Blanks that may stand around an integer: all but the separator controls. -/
def isPadding (c : CodePoint) : Bool :=
  Text.isBlank c && !(decide (28 ≤ c.toNat) && decide (c.toNat ≤ 31))

def isDigitOrBar (c : CodePoint) : Bool :=
  Text.isDecimal c || c == '_'

/-- Every underscore stands between two digits. -/
def barsSeparate : Text → Bool
  | [] => true
  | [.char '_'] => false
  | .char '_' :: .char '_' :: _ => false
  | _ :: cs => barsSeparate cs

/-- Read the digits of an integer and what follows them. -/
def readUnsigned (cs : Text) : Except ReadError Nat :=
  let body := cs.takeWhile isDigitOrBar
  let rest := cs.dropWhile isDigitOrBar
  let ds := body.filter Text.isDecimal
  if ds.isEmpty || body.head? == some '_' || !barsSeparate body then .error .malformed
  else if maxDigits < ds.length then .error (.tooLong ds.length)
  else if rest.all isPadding then .ok (ofDigits ds)
  else .error .malformed

def read (s : Text) : Except ReadError Int :=
  match s.dropWhile isPadding with
  | .char '+' :: cs => (readUnsigned cs).map Int.ofNat
  | .char '-' :: cs => (readUnsigned cs).map fun n => -Int.ofNat n
  | cs => (readUnsigned cs).map Int.ofNat

end LogQuery.Integer
