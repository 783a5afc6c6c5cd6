import WalletScan.Table

/-!
# Watched addresses

The scanner never derives addresses. It only asks which source owns an address, and a watch list
answers from a fixed registry.

Specification: section 4.4, the ownership predicate, and the watched addresses of section 10.3.
-/

set_option autoImplicit false

namespace WalletScan

/-- Answers the source key that owns an address, if any. -/
abbrev Owners := String → Option String

/-- An address and the source that owns it. -/
structure WatchEntry where
  address : String
  sourceKey : String
deriving DecidableEq, Repr

/-- A registry of addresses and the sources that own them. -/
abbrev WatchList := Table String String

namespace WatchList

/-- Registers an address in place of an earlier registration. -/
def watch (address sourceKey : String) (w : WatchList) : WatchList := w.insert address sourceKey

/-- The registry of a list of entries, later ones replacing earlier ones. -/
def ofEntries (entries : List WatchEntry) : WatchList :=
  entries.foldl (fun w e => watch e.address e.sourceKey w) []

/-- The watched addresses. -/
def addresses (w : WatchList) : List String := w.map (·.1)

/-- The owners that the registry knows. -/
def owners (w : WatchList) : Owners := fun address => w.lookup address

end WatchList

end WalletScan
