import Keystream.Memory
import Keystream.Proofs.Effect
import Mathlib.Data.List.Basic
/-!
Memory as a map from addresses to bytes. A read inside gives the bytes that stand there, a write
inside changes the bytes in its range and no others, and an access that is not inside fails and
changes nothing.
-/
namespace Keystream.Memory

open Keystream.Action

def byteAt? (m : Memory) (a : Int) : Option UInt8 :=
  if m.base ≤ a then m.bytes[(a - m.base).toNat]? else none

def Holds (m : Memory) (addr : Int) (n : Nat) : Prop :=
  m.base ≤ addr ∧ addr + n ≤ m.base + m.size

instance (m : Memory) (addr : Int) (n : Nat) : Decidable (m.Holds addr n) :=
  inferInstanceAs (Decidable (_ ∧ _))

def stretch (m : Memory) (addr : Int) (n : Nat) : Bytes :=
  (List.range n).map fun i : Nat => (m.byteAt? (addr + i)).getD 0

def written (m : Memory) (addr : Int) (s : Bytes) : Memory :=
  { m with bytes := overwrite m.bytes (addr - m.base).toNat s }

@[simp] theorem length_stretch (m : Memory) (addr : Int) (n : Nat) :
    (m.stretch addr n).length = n := by
  simp [stretch]

@[simp] theorem base_written (m : Memory) (addr : Int) (s : Bytes) :
    (m.written addr s).base = m.base := rfl

@[simp] theorem heap_written (m : Memory) (addr : Int) (s : Bytes) :
    (m.written addr s).heap = m.heap := rfl

@[simp] theorem size_written (m : Memory) (addr : Int) (s : Bytes) :
    (m.written addr s).size = m.size :=
  size_overwrite ..

@[simp] theorem holds_written (m : Memory) (addr : Int) (s : Bytes) (a : Int) (n : Nat) :
    (m.written addr s).Holds a n ↔ m.Holds a n := by
  simp only [Holds, base_written, size_written]

section

variable {m : Memory} {addr : Int} {s : Bytes} {n : Nat}

theorem byteAt?_of_le {a : Int} (known : m.base ≤ a) :
    m.byteAt? a = m.bytes[(a - m.base).toNat]? :=
  if_pos known

theorem byteAt?_of_lt {a : Int} (unknown : ¬m.base ≤ a) : m.byteAt? a = none :=
  if_neg unknown

theorem offset_of_holds (inside : m.Holds addr n) :
    m.offset addr n = .ok (addr - m.base).toNat := by
  obtain ⟨low, high⟩ := inside
  exact if_neg (by omega)

theorem offset_of_not_holds (outside : ¬m.Holds addr n) :
    m.offset addr n = .error (.outside addr n m.base (m.base + m.size)) := by
  unfold Holds at outside
  exact if_pos (by omega)

theorem put_of_holds (inside : m.Holds addr s.length) : m.put addr s = .ok (m.written addr s) := by
  rw [put, offset_of_holds inside]
  rfl

theorem put_of_not_holds (outside : ¬m.Holds addr s.length) :
    m.put addr s = .error (.outside addr s.length m.base (m.base + m.size)) := by
  rw [put, offset_of_not_holds outside]
  rfl

theorem slice_eq_stretch (inside : m.Holds addr n) :
    m.slice (addr - m.base).toNat n = m.stretch addr n := by
  obtain ⟨low, high⟩ := inside
  have reach : cut m.size ((addr - m.base).toNat + n) = (addr - m.base).toNat + n := by
    unfold cut
    rw [if_neg (by omega)]
    omega
  apply List.ext_getElem
  · simp only [slice, reach, Array.length_toList, Array.size_extract, length_stretch]
    have : m.bytes.size = m.size := rfl
    omega
  · intro i first second
    rw [length_stretch] at second
    have place : (addr + i - m.base).toNat = (addr - m.base).toNat + i := by omega
    have some : (addr - m.base).toNat + i < m.bytes.size := by
      have : m.bytes.size = m.size := rfl
      omega
    simp only [slice, stretch, Array.getElem_toList, Array.getElem_extract, List.getElem_map,
      List.getElem_range, byteAt?, place]
    rw [if_pos (by omega), Array.getElem?_eq_getElem some]
    rfl

theorem bytesAt_of_holds (inside : m.Holds addr n) : m.bytesAt addr n = .ok (m.stretch addr n) := by
  rw [bytesAt, offset_of_holds inside, ← slice_eq_stretch inside]
  rfl

theorem bytesAt_of_not_holds (outside : ¬m.Holds addr n) :
    m.bytesAt addr n = .error (.outside addr n m.base (m.base + m.size)) := by
  rw [bytesAt, offset_of_not_holds outside]
  rfl

theorem byteAt?_written (inside : m.Holds addr s.length) (a : Int) :
    (m.written addr s).byteAt? a =
      if addr ≤ a ∧ a < addr + s.length then s[(a - addr).toNat]? else m.byteAt? a := by
  obtain ⟨low, high⟩ := inside
  have room : (addr - m.base).toNat + s.length ≤ m.bytes.size := by
    have : m.bytes.size = m.size := rfl
    omega
  by_cases known : m.base ≤ a
  · rw [byteAt?_of_le (m := m.written addr s) known, byteAt?_of_le known]
    show (overwrite m.bytes (addr - m.base).toNat s)[(a - m.base).toNat]? = _
    rw [getElem?_overwrite _ _ _ _ room]
    have within : ((addr - m.base).toNat ≤ (a - m.base).toNat ∧
        (a - m.base).toNat < (addr - m.base).toNat + s.length) ↔
          (addr ≤ a ∧ a < addr + s.length) := by omega
    have place : (a - m.base).toNat - (addr - m.base).toNat = (a - addr).toNat := by omega
    rw [place]
    simp only [within]
  · rw [byteAt?_of_lt (m := m.written addr s) known, byteAt?_of_lt known, if_neg (by omega)]

theorem stretch_written_self (inside : m.Holds addr s.length) :
    (m.written addr s).stretch addr s.length = s := by
  apply List.ext_getElem
  · simp
  · intro i first second
    have place : (addr + i - addr).toNat = i := by omega
    simp only [stretch, List.getElem_map, List.getElem_range, byteAt?_written inside, place]
    rw [if_pos (by omega), List.getElem?_eq_getElem second]
    rfl

theorem stretch_congr {g : Memory}
    (same : ∀ a, addr ≤ a → a < addr + n → g.byteAt? a = m.byteAt? a) :
    g.stretch addr n = m.stretch addr n := by
  apply List.map_congr_left
  intro i member
  have := List.mem_range.1 member
  rw [same _ (by omega) (by omega)]

theorem byteAt?_written_of_apart {a : Int} (inside : m.Holds addr s.length)
    (apart : a < addr ∨ addr + s.length ≤ a) : (m.written addr s).byteAt? a = m.byteAt? a := by
  rw [byteAt?_written inside, if_neg (by omega)]

theorem stretch_written_of_apart {a : Int} (inside : m.Holds addr s.length)
    (apart : a + n ≤ addr ∨ addr + s.length ≤ a) :
    (m.written addr s).stretch a n = m.stretch a n :=
  stretch_congr fun _ low high => byteAt?_written_of_apart inside (by omega)

end

/-! Reads and writes as actions; tracing them changes nothing. -/

@[simp] theorem effect_trace (arrows : String) (addr : Int) (s : Bytes) (m : Memory) :
    (trace arrows addr s).effect m = (.ok (), m) := by
  simp only [trace, effect_get_bind]
  split <;> rfl

theorem effect_read (m : Memory) (addr size : Int) :
    (read addr size).effect m = (m.bytesAt addr size, m) := by
  simp only [read, effect_bind, effect_get, effect_liftM]
  cases m.bytesAt addr size <;> simp

theorem effect_write (m : Memory) (addr : Int) (s : Bytes) :
    (write addr s).effect m =
      match m.put addr s with
      | .ok g => (.ok (), g)
      | .error e => (.error e, m) := by
  simp only [write, effect_bind, effect_get, effect_liftM]
  cases m.put addr s <;> simp

theorem effect_read_of_holds {m : Memory} {addr : Int} {n : Nat} (inside : m.Holds addr n) :
    (read addr n).effect m = (.ok (m.stretch addr n), m) := by
  rw [effect_read, bytesAt_of_holds inside]

theorem effect_write_of_holds {m : Memory} {addr : Int} {s : Bytes}
    (inside : m.Holds addr s.length) :
    (write addr s).effect m = (.ok (), m.written addr s) := by
  rw [effect_write, put_of_holds inside]

/-- Whether memory is as it was but for the bytes at some addresses. -/
structure ChangedOnly (may : Int → Prop) (m g : Memory) : Prop where
  base : g.base = m.base
  heap : g.heap = m.heap
  size : g.size = m.size
  byteAt? : ∀ a, ¬may a → g.byteAt? a = m.byteAt? a

section

variable {machine : Machine} {may : Int → Prop} {m g h : Memory} {addr : Int} {s : Bytes}

theorem ChangedOnly.refl (may : Int → Prop) (m : Memory) : ChangedOnly may m m :=
  ⟨rfl, rfl, rfl, fun _ _ => rfl⟩

theorem ChangedOnly.trans (first : ChangedOnly may m g) (second : ChangedOnly may g h) :
    ChangedOnly may m h where
  base := second.base.trans first.base
  heap := second.heap.trans first.heap
  size := second.size.trans first.size
  byteAt? a spared := (second.byteAt? a spared).trans (first.byteAt? a spared)

theorem ChangedOnly.mono {more : Int → Prop} (only : ChangedOnly may m g)
    (wider : ∀ a, may a → more a) : ChangedOnly more m g :=
  ⟨only.base, only.heap, only.size, fun a spared => only.byteAt? a (mt (wider a) spared)⟩

theorem changedOnly_write (within : ∀ a, addr ≤ a → a < addr + s.length → may a) (m : Memory) :
    ChangedOnly may m ((write addr s).effect m).2 := by
  by_cases inside : m.Holds addr s.length
  · rw [effect_write_of_holds inside]
    refine ⟨rfl, rfl, size_written .., fun a spared => byteAt?_written_of_apart inside ?_⟩
    by_contra met
    exact spared (within a (by omega) (by omega))
  · rw [effect_write, put_of_not_holds inside]
    exact .refl ..

theorem keeps_changed_read (addr size : Int) : Keeps (ChangedOnly may m) (read addr size) :=
  keeps_of_unchanged fun g => by rw [effect_read]

theorem keeps_changed_write (within : ∀ a, addr ≤ a → a < addr + s.length → may a) :
    Keeps (ChangedOnly may m) (write addr s) :=
  fun g first => first.trans (changedOnly_write within g)

theorem keeps_changed_aligned (addr : Int) : Keeps (ChangedOnly may m) (aligned addr) :=
  keeps_ite (fun _ => keeps_throw _) fun _ => keeps_pure _

theorem keeps_changed_fill {value size : Int}
    (within : ∀ a, addr ≤ a → a < addr + size → may a) :
    Keeps (ChangedOnly may m) (fill addr value size) :=
  (keeps_liftM _).bind fun _ => keeps_get.bind fun _ => (keeps_liftM _).bind fun _ =>
    keeps_changed_write fun a low high =>
      within a low (by rw [List.length_replicate] at high; omega)

end

end Keystream.Memory
