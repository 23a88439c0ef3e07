import Keystream.Proofs.Segments
import Keystream.Text.Hex
import Keystream.Text.Written
import Mathlib.Data.List.Basic
/-!
The digits of base sixteen that numbers and bytes are written with, and numbers read from them.
-/
namespace Keystream

def Hex.valueAfter (value : Nat) : List Char → Option Nat
  | [] => some value
  | c :: rest => (digit? c).bind fun d => valueAfter (16 * value + d) rest

def Text.readHex (s : List Char) : Option Int :=
  if s.head? = some '-' then (Hex.valueAfter 0 s.tail).map fun n : Nat => -(n : Int)
  else (Hex.valueAfter 0 s).map Int.ofNat

section

variable {p : Char → Prop} (digits : ∀ d : Fin 16, p (Nat.digitChar d))
include digits

theorem Text.forall_mem_toDigits (n : Nat) : ∀ c ∈ Nat.toDigits 16 n, p c := by
  induction n using Nat.strongRecOn with
  | ind n ih =>
    rw [Nat.toDigits_eq_if (by decide)]
    split
    · next small => exact List.forall_mem_singleton.2 (digits ⟨n, small⟩)
    · refine List.forall_mem_append.2 ⟨ih (n / 16) (by omega), ?_⟩
      exact List.forall_mem_singleton.2 (digits ⟨n % 16, by omega⟩)

theorem Text.forall_mem_hexFilled (sign : p '-') (width : Nat) (v : Int) :
    ∀ c ∈ (hexFilled width v).toList, p c := by
  rw [hexFilled, zeroFilled, String.toList_ofList]
  refine List.forall_mem_append.2
    ⟨List.forall_mem_append.2 ⟨?_, ?_⟩, forall_mem_toDigits digits _⟩
  · split
    · exact List.forall_mem_singleton.2 sign
    · exact List.forall_mem_nil _
  · exact fun c filled => List.eq_of_mem_replicate filled ▸ digits 0

theorem Hex.forall_mem_byteDigits (b : UInt8) : ∀ c ∈ byteDigits b, p c := by
  have := b.toNat_lt
  exact List.forall_mem_cons.2 ⟨digits ⟨b.toNat / 16, by omega⟩,
    List.forall_mem_singleton.2 (digits ⟨b.toNat % 16, by omega⟩)⟩

end

theorem Hex.filter_encodeChars {p : Char → Bool} {sep : List Char}
    (digits : ∀ d : Fin 16, p (Nat.digitChar d)) (nothing : sep.filter p = []) (s : Bytes) :
    (encodeChars s sep).filter p = s.flatMap byteDigits := by
  have kept (b : UInt8) : (byteDigits b).filter p = byteDigits b :=
    List.filter_eq_self.2 (forall_mem_byteDigits (p := fun c => p c = true) digits b)
  rw [encodeChars, filter_intercalate nothing, List.flatMap_map]
  exact congrArg (List.flatMap · s) (funext kept)

namespace Hex

theorem valueAfter_digit {d : Nat} (small : d < 16) (value : Nat) (rest : List Char) :
    valueAfter value (Nat.digitChar d :: rest) = valueAfter (16 * value + d) rest :=
  congrArg (Option.bind · _) (digit?_digitChar ⟨d, small⟩)

theorem valueAfter_append (value : Nat) (s t : List Char) :
    valueAfter value (s ++ t) = (valueAfter value s).bind (valueAfter · t) := by
  induction s generalizing value with
  | nil => rfl
  | cons c s ih =>
    simp only [List.cons_append, valueAfter, ih, Option.bind_assoc]

theorem valueAfter_zeros (count : Nat) (rest : List Char) :
    valueAfter 0 (List.replicate count '0' ++ rest) = valueAfter 0 rest := by
  induction count with
  | zero => rfl
  | succ count ih => exact ih

theorem valueAfter_toDigits (n : Nat) : valueAfter 0 (Nat.toDigits 16 n) = some n := by
  induction n using Nat.strongRecOn with
  | ind n ih =>
    rw [Nat.toDigits_eq_if (by decide)]
    split
    · next small =>
      rw [valueAfter_digit small, Nat.zero_add]
      rfl
    · rw [valueAfter_append, ih (n / 16) (by omega), Option.bind_some,
        valueAfter_digit (Nat.mod_lt n (by decide)), Nat.div_add_mod]
      rfl

end Hex

theorem Text.takeWhile_hexFilled (width : Nat) (v : Int) (rest : List Char) :
    ((hexFilled width v).toList ++ ' ' :: rest).takeWhile (· ≠ ' ') =
      (hexFilled width v).toList := by
  have whole := forall_mem_hexFilled (p := (· ≠ ' ')) (by decide) (by decide) width v
  rw [List.takeWhile_append_of_pos fun c digit => decide_eq_true (whole c digit),
    List.takeWhile_cons_of_neg (by decide), List.append_nil]

theorem Text.readHex_hexFilled (width : Nat) (v : Int) :
    readHex (hexFilled width v).toList = some v := by
  have value (count : Nat) :
      Hex.valueAfter 0 (List.replicate count '0' ++ hexDigits v) = some v.natAbs := by
    rw [Hex.valueAfter_zeros, hexDigits, Hex.valueAfter_toDigits]
  by_cases negative : v < 0
  · have text : (hexFilled width v).toList =
        '-' :: (List.replicate (width - 1 - (hexDigits v).length) '0' ++ hexDigits v) := by
      simp [hexFilled, zeroFilled, negative]
    have back : -(v.natAbs : Int) = v := by omega
    rw [text, readHex, List.head?_cons, if_pos rfl, List.tail_cons, value, Option.map_some, back]
  · have text : (hexFilled width v).toList =
        List.replicate (width - (hexDigits v).length) '0' ++ hexDigits v := by
      simp [hexFilled, zeroFilled, negative]
    have unsigned : (hexFilled width v).toList.head? ≠ some '-' := by
      rw [text]
      intro signed
      have digits : ∀ d : Fin 16, Nat.digitChar d ≠ '-' := by decide
      obtain zero | digit := List.mem_append.1 (List.mem_of_head? signed)
      · exact absurd (List.eq_of_mem_replicate zero) (by decide)
      · exact forall_mem_toDigits (p := (· ≠ '-')) digits _ _ digit rfl
    have back : Int.ofNat v.natAbs = v := Int.natAbs_of_nonneg (by omega)
    rw [readHex, if_neg unsigned, text, value, Option.map_some, back]

end Keystream
