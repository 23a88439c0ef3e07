import Keystream.Proofs.Effect
import Keystream.Proofs.Machine
import Keystream.Text.Numeral
/-!
Numerals in base ten. What `k` digits spell is below `10^k`, so a machine can write what it reads.
-/
namespace Keystream.Numeral

variable {machine : Machine} {value n k : Nat} {c : Char} {s : List Char}

theorem digit?_lt {base d : Nat} (digit : digit? base c = some d) : d < base :=
  of_decide_eq_true (Option.filter_eq_some_iff.1 digit).2

theorem ne_underscore {d : Nat} (digit : digit? 10 c = some d) : c ≠ '_' := by
  rintro rfl
  have none : digit? 10 '_' = none := by decide
  cases none.symm.trans digit

theorem digits_of_cons_lt {d : Nat} (before : value < 10 ^ k) (digit : digit? 10 c = some d)
    (rest : value * 10 + d < 10 ^ (k + 1) → n < 10 ^ (k + 1 + (s.filter (· != '_')).length)) :
    n < 10 ^ (k + ((c :: s).filter (· != '_')).length) := by
  have small := digit?_lt digit
  have more : value * 10 + d < 10 ^ (k + 1) := by
    rw [Nat.pow_succ]
    omega
  rw [List.filter_cons_of_pos (by simp [ne_underscore digit]), List.length_cons, Nat.add_comm _ 1,
    ← Nat.add_assoc]
  exact rest more

theorem lt_of_digitsAfter (before : value < 10 ^ k) (read : digitsAfter 10 value s = some n) :
    n < 10 ^ (k + (s.filter (· != '_')).length) := by
  fun_induction digitsAfter 10 value s generalizing k with
  | case1 =>
    cases read
    exact before
  | case2 value c rest ih =>
    obtain ⟨d, digit, read⟩ := Option.bind_eq_some_iff.1 read
    rw [List.filter_cons_of_neg (by decide)]
    exact digits_of_cons_lt before digit fun more => ih d more read
  | case3 value c rest _ ih =>
    obtain ⟨d, digit, read⟩ := Option.bind_eq_some_iff.1 read
    exact digits_of_cons_lt before digit fun more => ih d more read

theorem lt_of_digits (read : digits 10 s = some n) : n < 10 ^ (s.filter (· != '_')).length := by
  cases s with
  | nil => cases read
  | cons c rest =>
    obtain ⟨d, digit, read⟩ := Option.bind_eq_some_iff.1 read
    have below : 0 < 10 ^ 0 := by decide
    have less := digits_of_cons_lt (s := rest) below digit fun more =>
      lt_of_digitsAfter (by simpa using more) read
    rwa [Nat.zero_add] at less

/-- A numeral with more digits than the machine writes is not read. -/
theorem spells_of_decimal (read : decimal s = .ok n) : Machine.Spells n := by
  simp only [decimal] at read
  split at read
  · next found =>
    split at read
    · cases read
    next short =>
    split at read <;> cases read
    refine Machine.spells_iff.2 ((Nat.eq_zero_or_pos machine.digits).imp_right fun bounded => ?_)
    have few : _ ≤ machine.digits := Nat.le_of_not_lt fun many => short ⟨by omega, many⟩
    exact Nat.lt_of_lt_of_le (lt_of_digits found) (Nat.pow_le_pow_right (by decide) few)
  · cases read

theorem spells_of_read {text : String} {v : Int} (done : read text = .ok v) :
    Machine.Spells v := by
  have spells {sign : Nat → Int} (size : ∀ n, (sign n).natAbs = n) {s : List Char}
      (done : (decimal s).map sign = .ok v) : Machine.Spells v := by
    rcases found : decimal s with e | n <;> rw [found] at done <;> cases done
    have spells := spells_of_decimal found
    rwa [Machine.Spells, Int.natAbs_natCast, ← size n] at spells
  unfold read signed at done
  split at done
  · exact spells (fun n => by rw [Int.natAbs_neg, Int.natAbs_natCast]) done
  · exact spells (fun n => rfl) done
  · exact spells (fun n => rfl) done

end Keystream.Numeral
