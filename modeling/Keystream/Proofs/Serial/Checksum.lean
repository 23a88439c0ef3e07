import Keystream.Serial.Frame
import Mathlib.NumberTheory.Multiplicity
import Mathlib.RingTheory.Coprime.Lemmas
import Mathlib.Tactic.Ring
/-!
What the checksum catches. It is a number in base 31337, of a digit for each byte, taken modulo
`2^32`. The base is odd, so a change of one byte or of two neighbours is seen however much follows
it; and `31337^k - 1` holds no more factors of two than `8 * k`, so bytes that changed places are.
-/
namespace Keystream

def digit (b : UInt8) : Int := (b ^^^ 0x5a).toNat

theorem digit_nonneg (b : UInt8) : 0 ≤ digit b := Int.natCast_nonneg _

theorem digit_lt (b : UInt8) : digit b < 256 := by
  have := (b ^^^ 0x5a).toNat_lt
  unfold digit
  omega

theorem digit_inj {a b : UInt8} (same : digit a = digit b) : a = b :=
  (UInt8.xor_left_inj 0x5a).1 (UInt8.toNat_inj.1 (Int.natCast_inj.1 same))

/-- The number that the digits of some bytes spell. -/
def weight : Bytes → Int
  | [] => 0
  | b :: s => digit b * 31337 ^ s.length + weight s

theorem weight_append (s t : Bytes) : weight (s ++ t) = weight s * 31337 ^ t.length + weight t := by
  induction s with
  | nil => simp [weight]
  | cons b s ih =>
    rw [List.cons_append, weight, weight, ih, List.length_append, pow_add]
    ring

theorem weight_set {s : Bytes} {i : Nat} {a : UInt8} (here : s[i]? = some a) (b : UInt8) :
    weight (s.set i b) = weight s + (digit b - digit a) * 31337 ^ (s.length - 1 - i) := by
  induction s generalizing i with
  | nil => cases here
  | cons c s ih =>
    cases i with
    | zero =>
      cases here
      rw [List.set_cons_zero, weight, weight, List.length_cons, Nat.add_sub_cancel, Nat.sub_zero]
      ring
    | succ i =>
      have exponent : s.length + 1 - 1 - (i + 1) = s.length - 1 - i := by omega
      rw [List.set_cons_succ, weight, weight, ih here, List.length_set, List.length_cons, exponent]
      ring

theorem toInt_checksumStep (sum : Word) (b : UInt8) :
    Word.toInt (checksumStep sum b) ≡ Word.toInt sum * 31337 + digit b [ZMOD 2 ^ 32] := by
  have base : UInt32.toNat 31337 = 31337 := rfl
  rw [Int.ModEq, checksumStep, Word.toInt, Word.toInt, digit, UInt32.toNat_add, UInt32.toNat_mul,
    UInt8.toNat_toUInt32, base]
  omega

theorem toInt_foldl_checksumStep (sum : Word) (s : Bytes) :
    Word.toInt (s.foldl checksumStep sum) ≡
      Word.toInt sum * 31337 ^ s.length + weight s [ZMOD 2 ^ 32] := by
  induction s generalizing sum with
  | nil => simp [weight]
  | cons b s ih =>
    have step := ((toInt_checksumStep sum b).mul_right (31337 ^ s.length)).add_right (weight s)
    have spelled : (Word.toInt sum * 31337 + digit b) * 31337 ^ s.length + weight s =
        Word.toInt sum * 31337 ^ (b :: s).length + weight (b :: s) := by
      rw [weight, List.length_cons]
      ring
    rw [List.foldl_cons, ← spelled]
    exact (ih _).trans step

theorem dvd_of_checksum_eq {s t : Bytes} (length : s.length = t.length)
    (same : checksum s = checksum t) : (2 : Int) ^ 32 ∣ weight s - weight t := by
  have folded : s.foldl checksumStep 0xDEADBEEF = t.foldl checksumStep 0xDEADBEEF :=
    (UInt32.xor_left_inj _).1 same
  have first := toInt_foldl_checksumStep 0xDEADBEEF s
  have second := toInt_foldl_checksumStep 0xDEADBEEF t
  rw [folded, length] at first
  exact (Int.ModEq.add_left_cancel' _ (second.symm.trans first)).dvd

theorem isCoprime_base (k : Nat) : IsCoprime ((2 : Int) ^ 32) (31337 ^ k) :=
  IsCoprime.pow (Int.isCoprime_iff_gcd_eq_one.2 (by decide))

theorem dvd_of_dvd_mul_base {v : Int} {k : Nat} (multiple : (2 : Int) ^ 32 ∣ v * 31337 ^ k) :
    (2 : Int) ^ 32 ∣ v :=
  (isCoprime_base k).dvd_of_dvd_mul_right multiple

theorem eq_of_dvd_weight {m n : Bytes} (length : m.length = n.length) (short : m.length ≤ 2)
    (multiple : (2 : Int) ^ 32 ∣ weight m - weight n) : m = n := by
  match m, n, length with
  | [], [], _ => rfl
  | [a], [b], _ =>
    have := digit_nonneg a; have := digit_nonneg b
    have := digit_lt a; have := digit_lt b
    have same : digit a = digit b := by
      simp only [weight, List.length_nil, pow_zero] at multiple
      omega
    rw [digit_inj same]
  | [a, b], [c, d], _ =>
    have := digit_nonneg a; have := digit_nonneg b; have := digit_nonneg c
    have := digit_nonneg d
    have := digit_lt a; have := digit_lt b; have := digit_lt c; have := digit_lt d
    have same : digit a = digit c ∧ digit b = digit d := by
      simp only [weight, List.length_nil, List.length_singleton, pow_zero, pow_one] at multiple
      have zero := Int.eq_zero_of_abs_lt_dvd multiple (abs_lt.2 ⟨by omega, by omega⟩)
      omega
    rw [digit_inj same.1, digit_inj same.2]
  | _ :: _ :: _ :: _, _, _ => cases Nat.le_of_succ_le_succ (Nat.le_of_succ_le_succ short)

/-- A power of the base less one has no more factors of two than its exponent times eight. -/
theorem emultiplicity_base_pow_sub_one (k : Nat) :
    emultiplicity 2 ((31337 : Int) ^ k - 1) = 3 + emultiplicity 2 (k : Int) := by
  have base : emultiplicity 2 ((31337 : Int) - 1) = 3 :=
    emultiplicity_eq_coe.2 ⟨by decide, by decide⟩
  have lifted := Int.two_pow_sub_pow' (x := 31337) (y := 1) k (by decide) (by decide)
  rwa [one_pow, base] at lifted

/-- The difference of two digits that are exchanged over less than `2^22` bytes is seen. -/
theorem not_dvd_exchange {d : Int} {k : Nat} (differ : d ≠ 0) (small : |d| < 2 ^ 8)
    (apart : 0 < k) (near : k < 2 ^ 22) : ¬(2 : Int) ^ 32 ∣ d * (31337 ^ k - 1) := by
  have first : emultiplicity 2 d ≤ 7 := by
    refine Order.le_of_lt_add_one ((emultiplicity_lt_iff_not_dvd (k := 8)).2 fun multiple => ?_)
    exact differ (Int.eq_zero_of_abs_lt_dvd multiple small)
  have second : emultiplicity 2 (k : Int) ≤ 21 := by
    refine Order.le_of_lt_add_one ((emultiplicity_lt_iff_not_dvd (k := 22)).2 fun multiple => ?_)
    exact absurd (Nat.le_of_dvd apart (by exact_mod_cast multiple)) (Nat.not_le.2 near)
  rw [pow_dvd_iff_le_emultiplicity, emultiplicity_mul Int.prime_two,
    emultiplicity_base_pow_sub_one, not_le]
  calc emultiplicity 2 d + (3 + emultiplicity 2 (k : Int))
    _ ≤ 7 + (3 + 21) := add_le_add first (add_le_add_right second 3)
    _ < 32 := by decide

theorem not_dvd_of_lt {d : Int} {m n : Nat} (differ : d ≠ 0) (small : |d| < 2 ^ 8) (behind : n < m)
    (near : m < 2 ^ 22) : ¬(2 : Int) ^ 32 ∣ d * (31337 ^ m - 31337 ^ n) := by
  have parts : d * ((31337 : Int) ^ m - 31337 ^ n) = d * (31337 ^ (m - n) - 1) * 31337 ^ n := by
    rw [mul_assoc, sub_mul, ← pow_add, Nat.sub_add_cancel behind.le, one_mul]
  rw [parts]
  exact fun multiple =>
    not_dvd_exchange differ small (by omega) (by omega) (dvd_of_dvd_mul_base multiple)

/-- Whether two strings of one length differ, and in no more than two neighbouring places. -/
structure DifferNearby (s t : Bytes) : Prop where
  differ : s ≠ t
  length : s.length = t.length
  nearby : ∃ i, ∀ j, s[j]? ≠ t[j]? → j = i ∨ j = i + 1

/-- Whether `t` is `s` with two unequal bytes in each other's place. -/
def Exchanged (s t : Bytes) : Prop :=
  ∃ i j a b, s[i]? = some a ∧ s[j]? = some b ∧ a ≠ b ∧ t = (s.set i b).set j a

theorem Exchanged.length {s t : Bytes} (e : Exchanged s t) : s.length = t.length := by
  obtain ⟨i, j, a, b, _, _, _, rfl⟩ := e
  rw [List.length_set, List.length_set]

theorem differNearby_set {s : Bytes} {i : Nat} {b : UInt8} (inside : i < s.length)
    (changed : s[i]? ≠ some b) : DifferNearby (s.set i b) s where
  differ same := by
    refine changed ?_
    rw [← same, List.getElem?_set_self inside]
  length := List.length_set
  nearby := ⟨i, fun j apart => .inl (by_contra fun other =>
    apart (List.getElem?_set_ne (Ne.symm other)))⟩

theorem differNearby_swap {s t : Bytes} {a b : UInt8} (unequal : a ≠ b) :
    DifferNearby (s ++ a :: b :: t) (s ++ b :: a :: t) where
  differ same := unequal (List.cons.inj (List.append_cancel_left same)).1
  length := by simp
  nearby := by
    refine ⟨s.length, fun j apart => by_contra fun other => apart ?_⟩
    rcases lt_or_ge j s.length with before | behind
    · rw [List.getElem?_append_left before, List.getElem?_append_left before]
    · obtain ⟨k, rfl⟩ : ∃ k, j = s.length + (k + 2) := ⟨j - s.length - 2, by omega⟩
      rw [List.getElem?_append_right behind, List.getElem?_append_right behind,
        Nat.add_sub_cancel_left]
      rfl

theorem DifferNearby.exists_window {s t : Bytes} (d : DifferNearby s t) :
    ∃ front m n back, s = front ++ m ++ back ∧ t = front ++ n ++ back ∧
      m.length = n.length ∧ m.length ≤ 2 ∧ m ≠ n := by
  obtain ⟨differ, length, i, only⟩ := d
  have elsewhere (j : Nat) (other : ¬(j = i ∨ j = i + 1)) : s[j]? = t[j]? :=
    not_not.1 (mt (only j) other)
  have front : s.take i = t.take i := by
    refine List.ext_getElem? fun j => ?_
    rw [List.getElem?_take, List.getElem?_take]
    split
    · exact elsewhere j (by omega)
    · rfl
  have back : s.drop (i + 2) = t.drop (i + 2) := by
    refine List.ext_getElem? fun j => ?_
    rw [List.getElem?_drop, List.getElem?_drop]
    exact elsewhere _ (by omega)
  have split (u : Bytes) : u = u.take i ++ (u.drop i).take 2 ++ u.drop (i + 2) := by
    rw [List.append_assoc, ← List.drop_drop, List.take_append_drop, List.take_append_drop]
  refine ⟨s.take i, (s.drop i).take 2, (t.drop i).take 2, s.drop (i + 2), split s, ?_, ?_,
    List.length_take_le .., fun same => differ ?_⟩
  · rw [front, back]
    exact split t
  · simp only [List.length_take, List.length_drop, length]
  · rw [split s, split t, front, back, same]

theorem DifferNearby.checksum_ne {s t : Bytes} (d : DifferNearby s t) :
    checksum s ≠ checksum t := by
  intro same
  have multiple := dvd_of_checksum_eq d.length same
  obtain ⟨front, m, n, back, rfl, rfl, length, short, differ⟩ := d.exists_window
  have window : weight (front ++ m ++ back) - weight (front ++ n ++ back) =
      (weight m - weight n) * 31337 ^ back.length := by
    simp only [weight_append, length]
    ring
  rw [window] at multiple
  exact differ (eq_of_dvd_weight length short (dvd_of_dvd_mul_base multiple))

theorem Exchanged.checksum_ne {s t : Bytes} (e : Exchanged s t) (short : s.length ≤ 2 ^ 22) :
    checksum s ≠ checksum t := by
  intro same
  have multiple := dvd_of_checksum_eq e.length same
  obtain ⟨i, j, a, b, first, second, unequal, rfl⟩ := e
  have apart : i ≠ j := by
    rintro rfl
    exact unequal (Option.some.inj (first.symm.trans second))
  have still : (s.set i b)[j]? = some b := by rw [List.getElem?_set_ne apart, second]
  have weights : weight s - weight ((s.set i b).set j a) =
      (digit a - digit b) * (31337 ^ (s.length - 1 - i) - 31337 ^ (s.length - 1 - j)) := by
    rw [weight_set still, weight_set first, List.length_set]
    ring
  have differ : digit a - digit b ≠ 0 := fun equal => unequal (digit_inj (sub_eq_zero.1 equal))
  have small : |digit a - digit b| < 2 ^ 8 := by
    have := digit_nonneg a; have := digit_nonneg b
    have := digit_lt a; have := digit_lt b
    exact abs_lt.2 ⟨by omega, by omega⟩
  have inside := (List.getElem?_eq_some_iff.1 first).1
  have inside' := (List.getElem?_eq_some_iff.1 second).1
  rw [weights] at multiple
  rcases apart.lt_or_gt with before | behind
  · exact not_dvd_of_lt differ small (by omega) (by omega) multiple
  · rw [← neg_sub ((31337 : Int) ^ _), mul_neg, dvd_neg] at multiple
    exact not_dvd_of_lt differ small (by omega) (by omega) multiple

theorem Exchanged.checksum_ne_of_fits {s t : Bytes} (e : Exchanged s t)
    (fits : s.length ≤ Frame.maxTransfer) : checksum s ≠ checksum t := by
  unfold Frame.maxTransfer at fits
  exact e.checksum_ne (by omega)

end Keystream
