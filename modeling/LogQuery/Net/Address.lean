import LogQuery.Number.Integer
import LogQuery.Text.Quoted

/-!
Internet addresses of both families, their textual forms and their canonical form. In the canonical
form of the longer family the longest run of at least two zero groups, the first of several, is
left out.
-/

namespace LogQuery.Net

inductive Family where
  | v4
  | v6
deriving DecidableEq, Repr

def Family.width : Family → Nat
  | .v4 => 32
  | .v6 => 128

/-- An address as a number. -/
structure Address where
  family : Family
  value : Nat
deriving DecidableEq, Repr

namespace Address

/-- One of four decimal groups: one to three digits without a leading zero, at most 255. -/
def octet? (cs : Text) : Option Nat :=
  if cs.isEmpty || !cs.all CodePoint.isDigit || decide (3 < cs.length) then none
  else if decide (1 < cs.length) && cs.head? == some '0' then none
  else if Integer.ofDigits cs ≤ 255 then some (Integer.ofDigits cs)
  else none

/-- One of eight hexadecimal groups: one to four digits. -/
def group? (cs : Text) : Option Nat :=
  if cs.isEmpty || decide (4 < cs.length) then none
  else cs.foldlM (fun n c => (Text.hexValue? c).map (n * 16 + ·)) 0

/-- The number that groups of a common size denote. -/
def ofGroups (size : Nat) (groups : List Nat) : Nat :=
  groups.foldl (fun n g => n * size + g) 0

/-- The value of four decimal groups with points between them. -/
def dotted? (cs : Text) : Option Nat := do
  let octets ← (Text.splitOn '.' cs).mapM octet?
  if octets.length = 4 then some (ofGroups 256 octets) else none

/-- The pieces between colons, a dotted form at the end counting as two groups. -/
def pieces? (cs : Text) : Option (List Text) :=
  let pieces := Text.splitOn ':' cs
  if pieces.length < 3 then none
  else
    let last := pieces.getLastD []
    if last.contains '.' then
      (dotted? last).map fun n =>
        pieces.dropLast ++ [Text.hexText 4 (n / 65536), Text.hexText 4 (n % 65536)]
    else some pieces

/-- One side of a gap: an empty outer piece must stand alone there and then counts as nothing. -/
def besideGap? (outer : Text) (side : List Text) : Option (List Text) :=
  if outer.isEmpty then
    if side.length = 1 then some [] else none
  else some side

/-- The value of eight hexadecimal groups, of which a run of at least one may be left out. -/
def colons? (cs : Text) : Option Nat := do
  let pieces ← pieces? cs
  if 9 < pieces.length then none
  let first := pieces.headD []
  let last := pieces.getLastD []
  let middle := (pieces.drop 1).dropLast
  match Text.splitWhere List.isEmpty middle with
  | [_] =>
    let groups ← pieces.mapM group?
    if groups.length = 8 then some (ofGroups 65536 groups) else none
  | [left, right] =>
    let left ← besideGap? first (first :: left)
    let right ← besideGap? last (right ++ [last])
    if 7 < left.length + right.length then none
    let left ← left.mapM group?
    let right ← right.mapM group?
    let gap := List.replicate (8 - (left.length + right.length)) 0
    some (ofGroups 65536 (left ++ gap ++ right))
  | _ => none

/-- Read an address without a zone. -/
def read? (cs : Text) : Option Address :=
  match dotted? cs with
  | some value => some ⟨.v4, value⟩
  | none => (colons? cs).map fun value => ⟨.v6, value⟩

/-- The text is an address; one of the longer family may name a zone after a percent sign. -/
def isAddress (cs : Text) : Bool :=
  if cs.contains '/' then false
  else if (dotted? cs).isSome then true
  else
    match Text.splitFirst (· == '%') cs with
    | (body, none) => (colons? body).isSome
    | (body, some zone) => (colons? body).isSome && !zone.isEmpty && !zone.contains '%'

/-- The last `count` groups of a number, the highest first. -/
def groups (size : Nat) : Nat → Nat → List Nat
  | 0, _ => []
  | count + 1, n => groups size count (n / size) ++ [n % size]

/-- A hexadecimal group without leading zeros. -/
def groupText (n : Nat) : Text :=
  match (Text.hexText 4 n).dropWhile (fun c : CodePoint => c == '0') with
  | [] => ['0']
  | cs => cs

/-- The first longest run of zeros, as where it starts and how long it is. -/
def longestZeros : Nat → List Nat → Nat × Nat
  | _, [] => (0, 0)
  | start, g :: gs =>
    let here := ((g :: gs).takeWhile (· == 0)).length
    let later := longestZeros (start + 1) gs
    if later.2 ≤ here then (start, here) else later

/-- Texts with a separator between them. -/
def between (sep : CodePoint) : List Text → Text
  | [] => []
  | [t] => t
  | t :: ts => t ++ sep :: between sep ts

/-- Eight groups, the first longest run of at least two zeros left out. -/
def colonText (gs : List Nat) : Text :=
  let (start, count) := longestZeros 0 gs
  let render (gs : List Nat) := between ':' (gs.map groupText)
  if count < 2 then render gs
  else render (gs.take start) ++ "::" ++ render (gs.drop (start + count))

def text (a : Address) : Text :=
  match a.family with
  | .v4 => between '.' ((groups 256 4 a.value).map Integer.digits)
  | .v6 => colonText (groups 65536 8 a.value)

end Address

end LogQuery.Net
