import Keystream.Proofs.Cipher.Rounds
/-!
The rounds on lists of any integers and of any length, at places counted from either end. What they
leave depends on the residues of the integers alone.
-/
namespace Keystream.Round

open Keystream.Action Word

/-- The place that `v` names in a list of `n`, counted from the front. -/
def spot (n : Nat) (v : Int) : Nat := (v % n).toNat

theorem place?_eq_spot {n : Nat} {v : Int} (low : -n ≤ v) (high : v < n) :
    place? n v = some (spot n v) := by
  unfold place? spot
  split
  · next front => rw [Int.emod_eq_of_lt front.1 front.2]
  · next back =>
    have wrapped : v % n = v + n := by
      rw [← Int.add_emod_right]
      exact Int.emod_eq_of_lt (by omega) (by omega)
    rw [if_pos (by omega), wrapped]

def residueAt (xs : List Int) (v : Int) : Word := ofInt (xs.getD (spot xs.length v) 0)

section

variable {xs : List Int} {a b c d : Int}

theorem places_spot (valid : ∀ v ∈ [a, b, c, d], -xs.length ≤ v ∧ v < xs.length)
    (apart : ([a, b, c, d].map (spot xs.length)).Nodup) :
    Places xs.length a b c d (spot xs.length a) (spot xs.length b) (spot xs.length c)
      (spot xs.length d) := by
  simp only [List.forall_mem_cons] at valid
  obtain ⟨validA, validB, validC, validD, _⟩ := valid
  exact ⟨place?_eq_spot validA.1 validA.2, place?_eq_spot validB.1 validB.2,
    place?_eq_spot validC.1 validC.2, place?_eq_spot validD.1 validD.2, apart⟩

theorem effect_quarterRound_spot
    (p : Places xs.length a b c d (spot xs.length a) (spot xs.length b) (spot xs.length c)
      (spot xs.length d)) :
    (quarterRound a b c d).effect xs =
      let (w, x, y, z) := Standard.quarter (residueAt xs a) (residueAt xs b) (residueAt xs c)
        (residueAt xs d)
      (.ok (), putFour xs (spot xs.length a) (spot xs.length b) (spot xs.length c)
        (spot xs.length d) (toInt w) (toInt x) (toInt y) (toInt z)) := by
  have found {v : Int} (named : place? xs.length v = some (spot xs.length v)) :
      xs[spot xs.length v]? = some (xs.getD (spot xs.length v) 0) := by
    simp [place?_lt named]
  exact effect_quarterRound p (found p.first) (found p.second) (found p.third) (found p.fourth)

end

/-- A quarter round at any four different places of any list leaves there the standard's quarter
round of the residues, and all else as it was. So a double round leaves the standard's in the first
sixteen places, and touches nothing behind them. -/
theorem rounds_mix_residues :
    (∀ (xs : List Int) (a b c d : Int),
      (∀ v ∈ [a, b, c, d], -xs.length ≤ v ∧ v < xs.length) →
      ([a, b, c, d].map (spot xs.length)).Nodup →
      ∃ ys w x y z, (quarterRound a b c d).effect xs = (.ok (), ys) ∧ ys.length = xs.length ∧
        Standard.quarter (residueAt xs a) (residueAt xs b) (residueAt xs c) (residueAt xs d) =
          (w, x, y, z) ∧
        ys[spot xs.length a]? = some (toInt w) ∧ ys[spot xs.length b]? = some (toInt x) ∧
        ys[spot xs.length c]? = some (toInt y) ∧ ys[spot xs.length d]? = some (toInt z) ∧
        (∀ v ∈ [w, x, y, z], 0 ≤ toInt v ∧ toInt v < 0x100000000) ∧
        ∀ i, i ∉ [a, b, c, d].map (spot xs.length) → ys[i]? = xs[i]?) ∧
    ∀ xs : List Int, 16 ≤ xs.length →
      doubleRound.effect xs =
        (.ok (), integers (Standard.innerBlock (residues xs)) ++ xs.drop 16) := by
  refine ⟨fun xs a b c d valid apart => ?_, fun xs => effect_doubleRound_of_length⟩
  have p := places_spot valid apart
  have effect := effect_quarterRound_spot p
  rcases mixed : Standard.quarter (residueAt xs a) (residueAt xs b) (residueAt xs c)
    (residueAt xs d) with ⟨w, x, y, z⟩
  rw [mixed] at effect
  have left := getElem?_putFour (w := toInt w) (x := toInt x) (y := toInt y) (z := toInt z) p
  refine ⟨_, w, x, y, z, effect, length_putFour .., rfl, getElem?_putFour_first p,
    getElem?_putFour_second p, ?_, getElem?_putFour_fourth p, fun v _ => toInt_mem_range v,
    fun i other => ?_⟩
  · have apart := p.apart
    rw [left]
    grind
  · simp only [List.map_cons, List.map_nil, List.mem_cons, List.not_mem_nil, or_false, not_or]
      at other
    rw [left, if_neg other.1, if_neg other.2.1, if_neg other.2.2.1, if_neg other.2.2.2]

/-- The example of RFC 8439, section 2.1.1, with multiples of `2^32` added to its words, at places
counted from both ends; and a list of seventeen integers below zero. -/
theorem rounds_mix_residues_of_example :
    let xs : List Int := [0x511111111, 0x01020304 - 2 ^ 40, 0x9b8d6f43, 7, 0x01234567 - 2 ^ 32]
    let minus : List Int := List.replicate 17 (-1)
    (∀ v ∈ [0, -4, 2, -1], -(xs.length : Int) ≤ v ∧ v < xs.length) ∧
      ([0, -4, 2, -1].map (spot xs.length)).Nodup ∧
      (∃ ys, (quarterRound 0 (-4) 2 (-1)).effect xs = (.ok (), ys) ∧ ys.length = 5 ∧
        ys[0]? = some 0xea2a92f4 ∧ ys[1]? = some 0xcb1cf8ce ∧ ys[2]? = some 0x4581472e ∧
        ys[3]? = some 7 ∧ ys[4]? = some 0x5881c4bb) ∧
      16 ≤ minus.length ∧
      doubleRound.effect minus =
        (.ok (), integers (Standard.innerBlock (.replicate 16 0xffffffff)) ++ [-1]) := by
  intro xs minus
  have valid : ∀ v ∈ [0, -4, 2, -1], -(xs.length : Int) ≤ v ∧ v < xs.length := by decide
  have apart : ([0, -4, 2, -1].map (spot xs.length)).Nodup := by decide
  have mixes : Standard.quarter (residueAt xs 0) (residueAt xs (-4)) (residueAt xs 2)
      (residueAt xs (-1)) = (0xea2a92f4, 0xcb1cf8ce, 0x4581472e, 0x5881c4bb) := by decide +kernel
  have reduced : residues minus = .replicate 16 0xffffffff := by decide +kernel
  have long : 16 ≤ minus.length := by decide
  obtain ⟨mix, double⟩ := rounds_mix_residues
  obtain ⟨ys, w, x, y, z, effect, length, mixed, first, second, third, fourth, _, kept⟩ :=
    mix xs 0 (-4) 2 (-1) valid apart
  cases mixes.symm.trans mixed
  have turned := double minus long
  rw [reduced] at turned
  exact ⟨valid, apart, ⟨ys, effect, length, first, second, third, kept 3 (by decide), fourth⟩,
    long, turned⟩

end Keystream.Round
