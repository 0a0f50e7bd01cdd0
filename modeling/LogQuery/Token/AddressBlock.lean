import LogQuery.Net.Block
import LogQuery.Token.Field

/-!
Tokens that match a block of addresses, as bounds on the field. A dotted address may lack its last
groups, which are then zero.
-/

namespace LogQuery.Token.AddressBlock

/-- A group of one to three digits. -/
def isShortGroup (cs : Text) : Bool :=
  !cs.isEmpty && decide (cs.length ≤ 3) && cs.all Text.isDecimal

/-- Two to four groups of one to three digits. -/
def isDotted (groups : List Text) : Bool :=
  decide (2 ≤ groups.length) && decide (groups.length ≤ 4) && groups.all isShortGroup

def isColonForm (cs : Text) : Bool :=
  !cs.isEmpty && cs.all fun c => Text.isHex c || c == ':'

/-- Fill up to four groups with zeros. -/
def pad (groups : List Text) : Text :=
  Net.Address.between '.' (groups ++ List.replicate (4 - groups.length) ("0" : Text))

/-- The full form of the address before a slash, if it looks like one. -/
def fullAddress? (address : Text) : Option Text :=
  let groups := Text.splitOn '.' address
  if isDotted groups then some (pad groups)
  else if isColonForm address then some address
  else none

/-- The block that a value stands for. -/
def block? (value : Text) : Option Net.Block := do
  let (address, bits) := Text.partition '/' value
  Net.Block.read? (← fullAddress? address) bits

/-- The condition that a token stands for. -/
def condition? (token : Text) : Option Json := do
  let (field, value) ← fieldAndValue? token
  let block ← block? value
  return Clause.range field [("gte", .str block.first.text), ("lte", .str block.last.text)]

end LogQuery.Token.AddressBlock
