/-!
Ledgers: what size was asked for at each address. Entries stand in ascending order of address, so
two ledgers with the same entries are equal.
-/
namespace Keystream

abbrev Ledger := List (Int × Int)

namespace Ledger

def size? (ledger : Ledger) (addr : Int) : Option Int := ledger.lookup addr

/-- Takes the place of an entry at the same address. -/
def enter (addr size : Int) : Ledger → Ledger
  | [] => [(addr, size)]
  | (a, n) :: rest =>
    if addr < a then (addr, size) :: (a, n) :: rest
    else if addr = a then (addr, size) :: rest
    else (a, n) :: enter addr size rest

def strike? (addr : Int) : Ledger → Option Ledger
  | [] => none
  | (a, n) :: rest => if addr = a then some rest else (strike? addr rest).map ((a, n) :: ·)

theorem size?_enter (ledger : Ledger) (addr size other : Int) :
    size? (enter addr size ledger) other =
      if other = addr then some size else size? ledger other := by
  induction ledger with
  | nil => simp only [enter, size?, List.lookup_cons, List.lookup_nil]; grind
  | cons entry rest ih =>
    obtain ⟨a, n⟩ := entry
    simp only [enter, size?, List.lookup_cons] at ih ⊢
    grind

end Ledger

end Keystream
