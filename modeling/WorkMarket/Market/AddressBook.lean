import WorkMarket.Chain.Identity

/-!
# Fresh addresses

Addresses are taken from a series, one after the other, so that none is handed
out twice as long as the series does not repeat itself.
-/

namespace WorkMarket

/-- A series of addresses and how many were handed out. -/
structure AddressBook where
  addressAt : Nat → Address
  issued : Nat

namespace AddressBook

/-- The series of hashes of a seed and a count. -/
def ofSeed
    (seed : FixedBytes 32) :
    AddressBook :=
  ⟨fun count => hash160 (seed.toList ++ LittleEndian.encode 8 count), 0⟩

/-- The next address. -/
def issue
    (book : AddressBook) :
    Address × AddressBook :=
  (book.addressAt book.issued, { book with issued := book.issued + 1 })

/-- Several addresses, one after the other. -/
def issueMany : (count : Nat) → AddressBook → List Address × AddressBook
  | 0, book => ([], book)
  | count + 1, book =>
      let (first, book) := book.issue
      let (others, book) := issueMany count book
      (first :: others, book)

end AddressBook

end WorkMarket
