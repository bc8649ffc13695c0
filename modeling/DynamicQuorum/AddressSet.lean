/-
  DynamicQuorum/AddressSet.lean
  =============================
  **Sets of accounts.**

  Accounts in ascending order, so equal sets are equal values, whatever the order in which
  their members were added.
-/
import DynamicQuorum.Address
import DynamicQuorum.Ascending

namespace DynamicQuorum

abbrev AddressSet := Ascending Address Address.toNat

namespace AddressSet

def empty : AddressSet := Ascending.empty

def insert (s : AddressSet) (a : Address) : AddressSet := s.put a

def contains (s : AddressSet) (a : Address) : Bool := a ∈ s.toList

def ofList (addresses : List Address) : AddressSet := addresses.foldl insert empty

end AddressSet

end DynamicQuorum
