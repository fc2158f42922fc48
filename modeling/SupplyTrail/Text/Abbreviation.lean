/-!
# Abbreviated keys

A long key is shown by its two ends with an ellipsis between them.
-/
namespace SupplyTrail.Text

/-- The first and last `ends` characters around an ellipsis; a key of at most twice that many stays as it is. -/
def abbreviate (key : String) (ends : Nat) : String :=
  let cs := key.toList
  if ends = 0 ∨ cs.length ≤ 2 * ends then key
  else String.ofList (cs.take ends ++ '…' :: cs.drop (cs.length - ends))

end SupplyTrail.Text
