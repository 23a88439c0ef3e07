/-!
Lists cut into segments of one length, and places in lists, which may be counted from the end.
-/
namespace Keystream

/-- Consecutive groups of `n`, the last one shorter if need be; no groups at all for `n = 0`. -/
def segments (n : Nat) (xs : List α) : List (List α) :=
  if _h : n = 0 ∨ xs = [] then [] else xs.take n :: segments n (xs.drop n)
termination_by xs.length
decreasing_by
  have : 0 < xs.length := List.length_pos_iff.2 fun e => _h (.inr e)
  simp only [List.length_drop]
  omega

/-- The place that `i` names in a list of `n`; negative places count back from the end. -/
def place? (n : Nat) (i : Int) : Option Nat :=
  if 0 ≤ i ∧ i < n then some i.toNat
  else if -n ≤ i ∧ i < 0 then some (i + n).toNat
  else none

def isNumbered (i : Int) : Bool := -0x8000000000000000 ≤ i && i < 0x8000000000000000

theorem place?_lt {n : Nat} {i : Int} {k : Nat} (h : place? n i = some k) : k < n := by
  unfold place? at h
  split at h
  · cases h; omega
  · split at h
    · cases h; omega
    · cases h

/-- How many of `n` elements stand before the cut `i`; negative cuts count back from the end. -/
def cut (n : Nat) (i : Int) : Nat :=
  if i < 0 then (i + n).toNat else min i.toNat n

end Keystream
