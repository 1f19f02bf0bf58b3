/-!
# Sets of characters

A large set of characters is given as a list of ranges of their numbers, each with its
first and its last member.  The tables of this folder are such lists.
-/

namespace ReplicatedConfig.Text

/-- Whether a character's number lies in one of the ranges. -/
def inRanges (ranges : List (Nat × Nat)) (c : Char) : Bool :=
  ranges.any fun (first, last) => first ≤ c.toNat && c.toNat ≤ last

end ReplicatedConfig.Text
