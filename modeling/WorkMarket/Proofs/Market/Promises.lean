import WorkMarket.Market.AddressBook
import WorkMarket.Market.Output
import WorkMarket.Proofs.Script.Naming

/-!
# What a chain and an address book promise

Each output comes with one script, which was built or read.  Where the hash has
no collisions, names tell the scripts of a chain apart.  No address is handed
out twice.
-/

namespace WorkMarket

/-- Which outputs pay which scripts, as a chain shows it: every script was
built somehow, and no output comes with two scripts. -/
structure IsChain (pays : LockingScript → Outpoint → Prop) : Prop where
  built : ∀ script outpoint, pays script outpoint → script.IsBuilt
  oneScript : ∀ script other outpoint, pays script outpoint → pays other outpoint →
    script = other

/-- Whether names tell the scripts of a chain apart. -/
def NamesDiffer
    (pays : LockingScript → Outpoint → Prop) : Prop :=
  ∀ script other outpoint otherOutpoint, pays script outpoint → pays other otherOutpoint →
    script.isValid = true → other.isValid = true → script.id = other.id → script = other

/-- A hash without collisions on scripts that were built names them apart. -/
theorem namesDiffer_of_built
    {pays : LockingScript → Outpoint → Prop}
    (built : ∀ script outpoint, pays script outpoint → script.IsBuilt)
    (noCollision : ∀ script other outpoint otherOutpoint, pays script outpoint →
      pays other otherOutpoint → hash256 script.write = hash256 other.write →
      script.write = other.write) :
    NamesDiffer pays := by
  intro script other outpoint otherOutpoint paid otherPaid valid otherValid same
  exact LockingScript.eq_of_id_eq valid otherValid (built script outpoint paid).isRegular
    (built other otherOutpoint otherPaid).isRegular
    (noCollision script other outpoint otherOutpoint paid otherPaid) same

namespace AddressBook

/-- Whether an address was handed out. -/
def HasIssued
    (book : AddressBook)
    (address : Address) : Prop :=
  ∃ count < book.issued, book.addressAt count = address

/-- Whether all addresses that were handed out differ. -/
def NeverRepeats
    (book : AddressBook) : Prop :=
  ∀ first second, first < book.issued → second < book.issued →
    book.addressAt first = book.addressAt second → first = second

theorem HasIssued.issue
    {book : AddressBook}
    {address : Address}
    (issued : book.HasIssued address) :
    book.issue.2.HasIssued address := by
  obtain ⟨count, earlier, rfl⟩ := issued
  exact ⟨count, Nat.lt_succ_of_lt earlier, rfl⟩

theorem hasIssued_issue
    (book : AddressBook) :
    book.issue.2.HasIssued book.issue.1 :=
  ⟨book.issued, Nat.lt_succ_self _, rfl⟩

/-- In a series without repetition the next address is new. -/
theorem NeverRepeats.not_hasIssued
    {book : AddressBook}
    (distinct : book.issue.2.NeverRepeats) :
    ¬book.HasIssued book.issue.1 := by
  rintro ⟨count, earlier, same⟩
  have equal := distinct count book.issued (Nat.lt_succ_of_lt earlier) (Nat.lt_succ_self _) same
  exact Nat.lt_irrefl _ (equal ▸ earlier)

/-- A series that does not repeat itself did not before. -/
theorem NeverRepeats.of_issue
    {book : AddressBook}
    (distinct : book.issue.2.NeverRepeats) :
    book.NeverRepeats :=
  fun first second firstIssued secondIssued same =>
    distinct first second (Nat.lt_succ_of_lt firstIssued) (Nat.lt_succ_of_lt secondIssued) same

/-- The series of the counts themselves. -/
def counting : AddressBook :=
  ⟨fun count => ⟨LittleEndian.encode 20 count, LittleEndian.length_encode 20 count⟩, 0⟩

/-- Counts below the number of addresses do not repeat themselves. -/
theorem neverRepeats_of_counting
    {book : AddressBook}
    (series : book.addressAt = counting.addressAt)
    (bounded : book.issued ≤ Nat.pow 256 20) :
    book.NeverRepeats := by
  intro first second firstIssued secondIssued same
  rw [series] at same
  have encoded := congrArg (fun address : Address => LittleEndian.decode address.toList) same
  simp only [counting, LittleEndian.decode_encode] at encoded
  rw [Nat.mod_eq_of_lt (Nat.lt_of_lt_of_le firstIssued bounded),
    Nat.mod_eq_of_lt (Nat.lt_of_lt_of_le secondIssued bounded)] at encoded
  exact encoded

end AddressBook
end WorkMarket
