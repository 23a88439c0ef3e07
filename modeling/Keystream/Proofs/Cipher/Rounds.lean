import Keystream.Cipher.Round
import Keystream.Proofs.Cipher.Residue
import Keystream.Proofs.Effect
import Mathlib.Data.Fin.Basic
import Mathlib.Data.List.Nodup
/-!
The rounds on a list of integers are the standard's rounds on the words that the integers are
congruent to. A quarter round touches four places; elsewhere the list stays as it is.
-/
namespace Keystream.Round

open Keystream.Action Word

theorem effect_fetch {xs : List Int} {a x : Int} {i : Nat} (place : place? xs.length a = some i)
    (found : xs[i]? = some x) : (fetch a).effect xs = (.ok x, xs) := by
  simp [fetch, place, found]

theorem effect_store {xs : List Int} {a : Int} {i : Nat} (place : place? xs.length a = some i)
    (x : Int) : (store a x).effect xs = (.ok (), xs.set i x) := by
  simp [store, place]

theorem effect_add {xs : List Int} {a b x y : Int} {i j : Nat}
    (placeA : place? xs.length a = some i) (placeB : place? xs.length b = some j)
    (foundA : xs[i]? = some x) (foundB : xs[j]? = some y) :
    (add a b).effect xs = (.ok (), xs.set i (toInt (ofInt x + ofInt y))) := by
  rw [add, effect_bind_of_ok (effect_fetch placeA foundA),
    effect_bind_of_ok (effect_fetch placeB foundB), effect_store placeA, low_eq_toNat, ofInt_add]
  rfl

theorem effect_twist {xs : List Int} {d a x y : Int} {l i r : Nat}
    (placeD : place? xs.length d = some l) (placeA : place? xs.length a = some i)
    (foundD : xs[l]? = some x) (foundA : xs[i]? = some y) (turn : 0 < r ∧ r < 32) :
    (twist d a r).effect xs =
      (.ok (), xs.set l (toInt (Standard.rotate (ofInt x ^^^ ofInt y) r))) := by
  rw [twist, effect_bind_of_ok (effect_fetch placeD foundD),
    effect_bind_of_ok (effect_fetch placeA foundA), effect_store placeD,
    rotateLeft_eq_rotate _ turn, ofInt_xor]
  rfl

/-- `a`, `b`, `c` and `d` name four different places in a list of `n`. -/
structure Places (n : Nat) (a b c d : Int) (i j k l : Nat) : Prop where
  first : place? n a = some i
  second : place? n b = some j
  third : place? n c = some k
  fourth : place? n d = some l
  apart : [i, j, k, l].Nodup

theorem Places.swap {n : Nat} {a b c d : Int} {i j k l : Nat} (p : Places n a b c d i j k l) :
    Places n c d a b k l i j :=
  ⟨p.third, p.fourth, p.first, p.second,
    (@List.perm_append_comm _ [i, j] [k, l]).nodup_iff.1 p.apart⟩

def putFour (xs : List Int) (i j k l : Nat) (w x y z : Int) : List Int :=
  (((xs.set i w).set j x).set k y).set l z

@[simp] theorem length_putFour (xs : List Int) (i j k l : Nat) (w x y z : Int) :
    (putFour xs i j k l w x y z).length = xs.length := by
  simp [putFour]

section

variable {xs : List Int} {a b c d w x y z : Int} {i j k l : Nat}

theorem putFour_self (foundA : xs[i]? = some w) (foundB : xs[j]? = some x)
    (foundC : xs[k]? = some y) (foundD : xs[l]? = some z) : putFour xs i j k l w x y z = xs := by
  apply List.ext_getElem?
  intro m
  simp only [putFour, List.getElem?_set]
  grind

theorem putFour_swap (p : Places xs.length a b c d i j k l) :
    putFour xs k l i j y z w x = putFour xs i j k l w x y z := by
  have apart := p.apart
  apply List.ext_getElem?
  intro m
  simp only [putFour, List.getElem?_set]
  grind

theorem getElem?_putFour (p : Places xs.length a b c d i j k l) (m : Nat) :
    (putFour xs i j k l w x y z)[m]? =
      if m = i then some w else if m = j then some x else if m = k then some y
      else if m = l then some z else xs[m]? := by
  have apart := p.apart
  have := place?_lt p.first
  have := place?_lt p.second
  have := place?_lt p.third
  have := place?_lt p.fourth
  simp only [putFour, List.getElem?_set, List.length_set]
  grind

theorem getElem?_putFour_first (p : Places xs.length a b c d i j k l) :
    (putFour xs i j k l w x y z)[i]? = some w := by
  rw [getElem?_putFour p, if_pos rfl]

theorem getElem?_putFour_second (p : Places xs.length a b c d i j k l) :
    (putFour xs i j k l w x y z)[j]? = some x := by
  have apart := p.apart
  rw [getElem?_putFour p]
  grind

theorem getElem?_putFour_fourth (p : Places xs.length a b c d i j k l) :
    (putFour xs i j k l w x y z)[l]? = some z := by
  have apart := p.apart
  rw [getElem?_putFour p]
  grind

theorem set_putFour_first (p : Places xs.length a b c d i j k l) (v : Int) :
    (putFour xs i j k l w x y z).set i v = putFour xs i j k l v x y z := by
  have apart := p.apart
  apply List.ext_getElem?
  intro m
  simp only [putFour, List.getElem?_set, List.length_set]
  grind

theorem set_putFour_fourth (v : Int) :
    (putFour xs i j k l w x y z).set l v = putFour xs i j k l w x y v := by
  simp [putFour]

theorem effect_mix (p : Places xs.length a b c d i j k l) {r : Nat} (turn : 0 < r ∧ r < 32) :
    (mix a b d r).effect (putFour xs i j k l w x y z) =
      (.ok (), putFour xs i j k l (toInt (ofInt w + ofInt x)) x y
        (toInt (Standard.rotate (ofInt z ^^^ (ofInt w + ofInt x)) r))) := by
  have added : (add a b).effect (putFour xs i j k l w x y z) =
      (.ok (), putFour xs i j k l (toInt (ofInt w + ofInt x)) x y z) := by
    rw [effect_add (i := i) (j := j) (by simpa using p.first) (by simpa using p.second)
      (getElem?_putFour_first p) (getElem?_putFour_second p), set_putFour_first p]
  rw [mix, effect_bind_of_ok added, effect_twist (i := i) (l := l) (by simpa using p.fourth)
    (by simpa using p.first) (getElem?_putFour_fourth p) (getElem?_putFour_first p) turn,
    set_putFour_fourth, ofInt_toInt]

theorem effect_mix_swap (p : Places xs.length a b c d i j k l) {r : Nat} (turn : 0 < r ∧ r < 32) :
    (mix c d b r).effect (putFour xs i j k l w x y z) =
      (.ok (), putFour xs i j k l w (toInt (Standard.rotate (ofInt x ^^^ (ofInt y + ofInt z)) r))
        (toInt (ofInt y + ofInt z)) z) := by
  rw [← putFour_swap p, effect_mix p.swap turn, putFour_swap p]

theorem effect_quarterRound (p : Places xs.length a b c d i j k l) (foundA : xs[i]? = some w)
    (foundB : xs[j]? = some x) (foundC : xs[k]? = some y) (foundD : xs[l]? = some z) :
    (quarterRound a b c d).effect xs =
      let (w, x, y, z) := Standard.quarter (ofInt w) (ofInt x) (ofInt y) (ofInt z)
      (.ok (), putFour xs i j k l (toInt w) (toInt x) (toInt y) (toInt z)) := by
  have whole := putFour_self foundA foundB foundC foundD
  have first := effect_mix (w := w) (x := x) (y := y) (z := z) p (r := 16) (by decide)
  rw [whole] at first
  have steps : quarterRound a b c d =
      mix a b d (16 : Nat) >>= fun _ => mix c d b (12 : Nat) >>= fun _ =>
        mix a b d (8 : Nat) >>= fun _ => mix c d b (7 : Nat) := rfl
  rw [steps, effect_bind_of_ok first, effect_bind_of_ok (effect_mix_swap p (by decide)),
    effect_bind_of_ok (effect_mix p (by decide)), effect_mix_swap p (by decide)]
  simp only [ofInt_toInt]
  rfl

end

def integers (x : Vector Word 16) : List Int := x.toList.map toInt

theorem place?_natCast {n k : Nat} (h : k < n) : place? n k = some k := by
  unfold place?
  rw [if_pos (by omega)]
  rfl

theorem getElem?_integers (x : Vector Word 16) {i : Nat} (h : i < 16) :
    (integers x)[i]? = some (toInt x[i]) := by
  simp [integers, h]

theorem get_quarterAt (x : Vector Word 16) {a b c d : Fin 16} (apart : [a, b, c, d].Nodup)
    (i : Fin 16) :
    let (wa, wb, wc, wd) := Standard.quarter (x.get a) (x.get b) (x.get c) (x.get d)
    (Standard.quarterAt x a b c d).get i =
      if i = a then wa else if i = b then wb else if i = c then wc else if i = d then wd
      else x.get i := by
  have place (y : Vector Word 16) (k : Fin 16) : y.get k = y[k.val] := rfl
  simp only [Standard.quarterAt, place, Fin.getElem_fin, Vector.getElem_set]
  grind

def residues (xs : List Int) : Vector Word 16 := .ofFn fun i => ofInt (xs.getD i 0)

/-- Whether a list that came of `start` has integers congruent to the words of `x` at its first
sixteen places, these words themselves at the places in `done`, and the rest as it was. -/
structure Spells (done : List (Fin 16)) (x : Vector Word 16) (start xs : List Int) : Prop where
  congruent : ∀ i : Fin 16,
    ∃ v, xs[i.val]? = some v ∧ ofInt v = x.get i ∧ (i ∈ done → v = toInt (x.get i))
  rest : xs.drop 16 = start.drop 16

theorem spells_residues {xs : List Int} (long : 16 ≤ xs.length) :
    Spells [] (residues xs) xs xs := by
  refine ⟨fun i => ⟨xs.getD i 0, ?_, ?_, fun none => absurd none List.not_mem_nil⟩, rfl⟩
  · have inside : i.val < xs.length := by omega
    simp [inside]
  · show _ = (residues xs)[i.val]
    simp [residues]

theorem Spells.quarterRound {done : List (Fin 16)} {x : Vector Word 16} {start xs : List Int}
    (s : Spells done x start xs) (a b c d : Fin 16) (apart : [a, b, c, d].Nodup) :
    ∃ ys, (quarterRound a.val b.val c.val d.val).effect xs = (.ok (), ys) ∧
      Spells ([a, b, c, d] ++ done) (Standard.quarterAt x a b c d) start ys := by
  obtain ⟨va, foundA, wordA, _⟩ := s.congruent a
  obtain ⟨vb, foundB, wordB, _⟩ := s.congruent b
  obtain ⟨vc, foundC, wordC, _⟩ := s.congruent c
  obtain ⟨vd, foundD, wordD, _⟩ := s.congruent d
  have inside {i : Fin 16} {v : Int} (found : xs[i.val]? = some v) : i.val < xs.length :=
    (List.getElem?_eq_some_iff.1 found).1
  have places : Places xs.length a.val b.val c.val d.val a.val b.val c.val d.val :=
    ⟨place?_natCast (inside foundA), place?_natCast (inside foundB), place?_natCast (inside foundC),
      place?_natCast (inside foundD), List.nodup_map_iff Fin.val_injective |>.2 apart⟩
  have effect := effect_quarterRound places foundA foundB foundC foundD
  have put := get_quarterAt x apart
  rw [wordA, wordB, wordC, wordD] at effect
  generalize Standard.quarter (x.get a) (x.get b) (x.get c) (x.get d) = mixed at effect put
  obtain ⟨wa, wb, wc, wd⟩ := mixed
  refine ⟨_, effect, fun i => ?_, ?_⟩
  · obtain ⟨v, found, word, reduced⟩ := s.congruent i
    simp only [getElem?_putFour places, Fin.val_inj, put]
    split_ifs with first second third fourth
    · exact ⟨_, rfl, ofInt_toInt wa, fun _ => rfl⟩
    · exact ⟨_, rfl, ofInt_toInt wb, fun _ => rfl⟩
    · exact ⟨_, rfl, ofInt_toInt wc, fun _ => rfl⟩
    · exact ⟨_, rfl, ofInt_toInt wd, fun _ => rfl⟩
    · refine ⟨v, found, word, fun member => reduced ?_⟩
      simpa [first, second, third, fourth] using member
  · apply List.ext_getElem?
    intro m
    simp only [← s.rest, List.getElem?_drop, getElem?_putFour places]
    rw [if_neg (by omega), if_neg (by omega), if_neg (by omega), if_neg (by omega)]

theorem Spells.eq_integers {done : List (Fin 16)} {x : Vector Word 16} {start xs : List Int}
    (s : Spells done x start xs) (all : ∀ i, i ∈ done) : xs = integers x ++ start.drop 16 := by
  have front : xs.take 16 = integers x := by
    apply List.ext_getElem?
    intro m
    rw [List.getElem?_take]
    split
    · next small =>
      obtain ⟨v, found, _, reduced⟩ := s.congruent ⟨m, small⟩
      rw [found, getElem?_integers x small, reduced (all _)]
      rfl
    · next large =>
      exact (List.getElem?_eq_none (by simp [integers]; omega)).symm
  rw [← front, ← s.rest, List.take_append_drop]

def quarterRounds : List Standard.Quarter → Action (List Int) Unit
  | [] => Pure.pure ()
  | q :: rest => do
    quarterRound q.a.val q.b.val q.c.val q.d.val
    quarterRounds rest

theorem doubleRound_eq : doubleRound = quarterRounds Standard.quarters := by
  simp only [doubleRound, columnRound, diagonalRound, quarterRounds, Standard.quarters,
    bind_assoc, bind_pure_unit]
  rfl

theorem Spells.quarterRounds {done : List (Fin 16)} {x : Vector Word 16} {start xs : List Int}
    (s : Spells done x start xs) (qs : List Standard.Quarter) (apart : ∀ q ∈ qs, q.places.Nodup) :
    ∃ ys, (quarterRounds qs).effect xs = (.ok (), ys) ∧
      Spells (qs.foldl (fun done q => q.places ++ done) done)
        (qs.foldl (fun x q => Standard.quarterAt x q.a q.b q.c q.d) x) start ys := by
  induction qs generalizing done x xs with
  | nil => exact ⟨xs, rfl, s⟩
  | cons q qs ih =>
    obtain ⟨first, apart⟩ := List.forall_mem_cons.1 apart
    obtain ⟨ys, turned, s⟩ := s.quarterRound q.a q.b q.c q.d first
    obtain ⟨zs, rest, s⟩ := ih s apart
    exact ⟨zs, (effect_bind_of_ok turned _).trans rest, s⟩

/-- A double round depends on the residues of the first sixteen integers, and leaves words in their
places and the rest as it was. -/
theorem effect_doubleRound_of_length {xs : List Int} (long : 16 ≤ xs.length) :
    doubleRound.effect xs =
      (.ok (), integers (Standard.innerBlock (residues xs)) ++ xs.drop 16) := by
  obtain ⟨ys, turned, s⟩ := (spells_residues long).quarterRounds Standard.quarters (by decide)
  rw [doubleRound_eq, turned, s.eq_integers (by decide), ← Standard.innerBlock_eq_foldl]

theorem residues_integers (x : Vector Word 16) : residues (integers x) = x := by
  apply Vector.ext
  intro i small
  simp [residues, integers, ofInt_toInt]

theorem effect_doubleRound (x : Vector Word 16) :
    doubleRound.effect (integers x) = (.ok (), integers (Standard.innerBlock x)) := by
  have length : (integers x).length = 16 := by simp [integers]
  rw [effect_doubleRound_of_length length.ge, residues_integers, List.drop_of_length_le length.le,
    List.append_nil]

theorem effect_doubleRounds (n : Nat) (x : Vector Word 16) :
    (doubleRounds n).effect (integers x) = (.ok (), integers (Standard.rounds n x)) := by
  induction n generalizing x with
  | zero => rfl
  | succ n ih =>
    rw [doubleRounds, effect_bind_of_ok (effect_doubleRound x), ih]
    rfl

end Keystream.Round
