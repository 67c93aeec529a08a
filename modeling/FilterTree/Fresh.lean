import FilterTree.Model

/-!
# Fresh identifiers

An edit that makes nodes needs identifiers that no node has had before. They come from a supply: an
endless row of batches, of which some have been used.
-/

namespace FilterTree

/-- Identifiers for the nodes that one edit may make: at most one condition, one group and one root
group. -/
structure Fresh where
  root : NodeId
  group : NodeId
  condition : NodeId
  deriving DecidableEq

/-- The digits of `n`, of which there are `count`, in lower case. -/
def hexDigits (count n : Nat) : List Char :=
  (List.range count).map fun i => Nat.digitChar ((n >>> (4 * (count - 1 - i))) % 16)

/-- The identifier at place `k` of the row that the seed starts: 32 hexadecimal digits, spread by an odd
multiplier, so that the first 2^128 of them differ and neighbours differ in their first digits. -/
def NodeId.scattered (seed k : Nat) : NodeId :=
  ⟨String.ofList (hexDigits 32 (seed + k * 0x9e3779b97f4a7c15f39cc0605cedc835))⟩

/-- An endless row of batches, of which the first `used` are spent. -/
structure Supply where
  batch : Nat → Fresh
  used : Nat := 0

namespace Supply

def next (s : Supply) : Fresh := s.batch s.used

def rest (s : Supply) : Supply := { s with used := s.used + 1 }

def scattered (seed : Nat) : Supply where
  batch n :=
    ⟨.scattered seed (3 * n), .scattered seed (3 * n + 1), .scattered seed (3 * n + 2)⟩

end Supply

/-- A new group holding the seed, if there is one, and then a blank condition. -/
def Group.blank (kind : Kind) (fresh : Fresh) (seed : Option Node) : Group :=
  ⟨fresh.group, kind, seed.toList ++ [.condition (.blank fresh.condition)]⟩

/-- One AND root over one AND group over one blank condition. The inner group gives every insertion
beside a group something to stand next to. -/
def Model.blank (fresh : Fresh) : Model :=
  ⟨[⟨fresh.root, .and, [.group (Group.blank .and fresh none)]⟩]⟩

end FilterTree
