import Keystream.Machine
import Mathlib.Algebra.Group.Nat.Defs
/-!
Which sizes a machine has room for and which numbers it writes, and what is wrong with the others.
-/
namespace Keystream.Machine

variable {machine : Machine}

theorem checkRoom_eq (size : Int) :
    checkRoom size =
      if size < -limit ∨ limit ≤ size then .error .sizeTooLarge
      else if room ≤ size then .error .noRoom
      else .ok () := by
  unfold checkRoom
  split
  · rfl
  · split <;> rfl

theorem checkRoom_eq_ok_iff {size : Int} :
    checkRoom size = .ok () ↔ -limit ≤ size ∧ size < room := by
  have counted := machine.counted
  rw [checkRoom_eq]
  split
  · next uncounted => exact ⟨fun ok => (nomatch ok), fun fits => by omega⟩
  · split
    · next large => exact ⟨fun ok => (nomatch ok), fun fits => by omega⟩
    · next small => exact ⟨fun _ => by omega, fun _ => rfl⟩

theorem checkRoom_of_lt {n : Nat} (small : (n : Int) < room) : checkRoom n = .ok () :=
  checkRoom_eq_ok_iff.2 ⟨by unfold limit; omega, small⟩

theorem checkRoom_of_small {n : Nat} (small : n < 0x100000) : checkRoom n = .ok () := by
  have ample := machine.ample
  exact checkRoom_of_lt (by omega)

theorem error_of_checkRoom {size : Int} {e : Error} (failed : checkRoom size = .error e) :
    e = .sizeTooLarge ∨ e = .noRoom := by
  rw [checkRoom_eq] at failed
  split at failed
  · cases failed
    exact .inl rfl
  · split at failed
    · cases failed
      exact .inr rfl
    · cases failed

theorem kind_of_checkRoom {size : Int} {e : Error} (failed : checkRoom size = .error e) :
    e.kind ≠ .index := by
  rcases error_of_checkRoom failed with rfl | rfl <;> decide

theorem spells_iff {n : Int} : Spells n ↔ digits = 0 ∨ n.natAbs < 10 ^ digits := by
  rcases Nat.eq_zero_or_pos digits with free | bounded
  · exact ⟨fun _ => .inl free, fun _ => .inl free⟩
  · exact or_congr_right (Nat.length_toDigits_le_iff (by decide) bounded)

theorem spells_of_lt {n : Int} {k : Nat} (short : k ≤ 640) (small : n.natAbs < 10 ^ k) :
    Spells n :=
  spells_iff.2 (machine.legible.imp_right fun least =>
    Nat.lt_of_lt_of_le small (Nat.pow_le_pow_right (by decide) (Nat.le_trans short least)))

theorem spells_of_word {n : Int} (small : n.natAbs < 2 ^ 32) : Spells n :=
  spells_of_lt (k := 10) (by decide) (Nat.lt_trans small (by decide))

theorem telling_of_spells {n : Int} (spells : Spells n) (e : Error) : telling n e = e :=
  if_pos spells

theorem kind_telling {n : Int} {e : Error} (value : e.kind = .value) :
    (telling n e).kind = .value := by
  unfold telling
  split
  · exact value
  · rfl

theorem decimal_of_spells {n : Int} (spells : Spells n) : decimal n = .ok (toString n) :=
  if_pos spells

theorem decimal_of_not_spells {n : Int} (long : ¬Spells n) :
    decimal n = .error (.tooManyDigits digits none) :=
  if_neg long

end Keystream.Machine
