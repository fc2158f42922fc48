/-!
# Searching

A list is searched for a pattern from its head on; the search ends at the first place where the pattern stands.
-/
namespace SupplyTrail.Text

variable {α : Type} [DecidableEq α]

/-- What follows the first place where a pattern stands in a list, if it stands anywhere. -/
def afterFirst? (pattern : List α) : List α → Option (List α)
  | [] => if pattern = [] then some [] else none
  | a :: text =>
    if pattern.isPrefixOf (a :: text) then some ((a :: text).drop pattern.length) else afterFirst? pattern text

end SupplyTrail.Text
