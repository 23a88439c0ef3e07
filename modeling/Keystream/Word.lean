/-!
Words: 32-bit numbers, their place among the integers, and their four bytes, least significant
first.
-/
namespace Keystream

abbrev Bytes := List UInt8

abbrev Word := UInt32

namespace Word

def ofInt (v : Int) : Word := .ofNat (v % 0x100000000).toNat

def toInt (w : Word) : Int := w.toNat

def signed (w : Word) : Int := Int.bmod w.toNat 0x100000000

theorem toInt_ofInt (v : Int) : toInt (ofInt v) = v % 0x100000000 := by
  simp only [toInt, ofInt, UInt32.toNat_ofNat']
  omega

theorem ofInt_toInt (w : Word) : ofInt (toInt w) = w := by
  apply UInt32.toNat_inj.1
  have := w.toNat_lt
  simp only [toInt, ofInt, UInt32.toNat_ofNat']
  omega

theorem ofInt_signed (w : Word) : ofInt (signed w) = w := by
  have residue : signed w % 0x100000000 = toInt w % 0x100000000 :=
    @Int.bmod_emod w.toNat 0x100000000
  calc ofInt (signed w) = ofInt (toInt w) := by simp only [ofInt, residue]
    _ = w := ofInt_toInt w

def ofBytes (a b c d : UInt8) : Word :=
  .ofNat (a.toNat + 0x100 * b.toNat + 0x10000 * c.toNat + 0x1000000 * d.toNat)

def bytes (w : Word) : Bytes :=
  [.ofNat w.toNat, .ofNat (w.toNat / 0x100), .ofNat (w.toNat / 0x10000),
    .ofNat (w.toNat / 0x1000000)]

/-- The words spelled by groups of four bytes; a last group that is short spells none. -/
def unpack : Bytes → List Word
  | a :: b :: c :: d :: rest => ofBytes a b c d :: unpack rest
  | _ => []

def pack (ws : List Word) : Bytes := ws.flatMap bytes

@[simp] theorem length_bytes (w : Word) : (bytes w).length = 4 := rfl

theorem length_unpack (s : Bytes) : (unpack s).length = s.length / 4 := by
  fun_induction unpack s with
  | case1 a b c d rest ih => simp only [List.length_cons, ih]; omega
  | case2 s h =>
    match s with
    | [] | [_] | [_, _] | [_, _, _] => simp
    | a :: b :: c :: d :: rest => exact absurd rfl (h a b c d rest)

@[simp] theorem length_pack (ws : List Word) : (pack ws).length = 4 * ws.length := by
  induction ws with
  | nil => rfl
  | cons w ws ih =>
    simp only [pack, List.flatMap_cons, List.length_append, length_bytes, List.length_cons] at ih ⊢
    omega

theorem ofBytes_bytes (w : Word) : unpack (bytes w) = [w] := by
  have := w.toNat_lt
  simp only [bytes, unpack, ofBytes, List.cons.injEq, and_true]
  apply UInt32.toNat_inj.1
  simp only [UInt8.toNat_ofNat', UInt32.toNat_ofNat']
  omega

theorem bytes_ofBytes (a b c d : UInt8) : bytes (ofBytes a b c d) = [a, b, c, d] := by
  have := a.toNat_lt; have := b.toNat_lt; have := c.toNat_lt; have := d.toNat_lt
  simp only [bytes, ofBytes, List.cons.injEq, and_true, UInt32.toNat_ofNat']
  refine ⟨?_, ?_, ?_, ?_⟩ <;>
  · apply UInt8.toNat_inj.1
    simp only [UInt8.toNat_ofNat']
    omega

theorem unpack_append_bytes (w : Word) (s : Bytes) : unpack (bytes w ++ s) = w :: unpack s := by
  have h := ofBytes_bytes w
  simp only [bytes, unpack, List.cons.injEq, and_true] at h
  simp only [bytes, List.cons_append, List.nil_append, unpack, h]

@[simp] theorem unpack_pack (ws : List Word) : unpack (pack ws) = ws := by
  induction ws with
  | nil => rfl
  | cons w ws ih =>
    simp only [pack, List.flatMap_cons] at ih ⊢
    rw [unpack_append_bytes, ih]

theorem pack_unpack {s : Bytes} (h : s.length % 4 = 0) : pack (unpack s) = s := by
  fun_induction unpack s with
  | case1 a b c d rest ih =>
    simp only [List.length_cons] at h
    have ih := ih (by omega)
    simp only [pack, List.flatMap_cons] at ih ⊢
    rw [ih, bytes_ofBytes]
    rfl
  | case2 s hs =>
    match s with
    | [] => rfl
    | [_] | [_, _] | [_, _, _] => simp at h
    | a :: b :: c :: d :: rest => exact absurd rfl (hs a b c d rest)

end Word

end Keystream
