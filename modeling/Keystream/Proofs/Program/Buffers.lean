import Keystream.Program.Buffers
import Keystream.Proofs.Memory.Isolation
/-!
The buffers of a run. If the heap has room for them they are allocated, apart from each other and
from all that is live, and filled with zeros; and they can be given back.
-/
namespace Keystream

/-- Whether buffers of these sizes can be allocated one after another. -/
def Heap.HasRoom : List Int → Heap → Prop
  | [], _ => True
  | size :: sizes, h => ∃ addr g, h.allocate 4 size = .ok (addr, g) ∧ HasRoom sizes g

namespace Memory

open Keystream.Action

/-- What one more buffer of `n` bytes at `addr` makes of memory `m`. -/
structure Lends (m : Memory) (addr : Int) (n : Nat) (g : Memory) : Prop where
  wellFormed : g.WellFormed
  base : g.base = m.base
  size : g.size = m.size
  space : Heap.SameSpace m.heap g.heap
  live : ∀ entry, entry ∈ g.heap.sizes ↔ entry = (addr, (n : Int)) ∨ entry ∈ m.heap.sizes
  apart : ∀ entry ∈ m.heap.sizes, Heap.Apart 16 entry (addr, n)
  blank : g.stretch addr n = List.replicate n 0
  kept : ∀ a, a < addr ∨ addr + n ≤ a → g.byteAt? a = m.byteAt? a

variable {m g : Memory} {addr : Int} {n : Nat}

theorem Lends.kept_of_live (l : m.Lends addr n g) {entry : Int × Int} (live : entry ∈ m.heap.sizes)
    {a : Int} (low : entry.1 ≤ a) (high : a < entry.1 + entry.2) : g.byteAt? a = m.byteAt? a := by
  have clear := (l.apart entry live).clear (by decide)
  simp only at clear
  exact l.kept a (by omega)

theorem exists_lends [Machine] (w : m.WellFormed) {heap : Heap}
    (allocated : m.heap.allocate 4 n = .ok (addr, heap)) (small : n < 0x100000) :
    ∃ g, (allocate n 4).effect m = (.ok addr, g) ∧ m.Lends addr n g ∧ g.heap = heap := by
  obtain ⟨wellFormed, space, live, apart⟩ := w.heap.allocate allocated
  have w' := w.of_sameSpace wellFormed space
  have inside : Holds { m with heap } addr (List.replicate n (0 : UInt8)).length := by
    rw [List.length_replicate]
    exact w.holds_allocated allocated
  have blank := stretch_written_self inside
  rw [List.length_replicate] at blank
  refine ⟨Memory.written { m with heap } addr (List.replicate n 0), ?_,
    ⟨w'.written addr _, rfl, size_written .., space, live, w.block ▸ apart, blank,
      fun a outside => ?_⟩, rfl⟩
  · rw [effect_allocate w, allocated, Machine.checkRoom_of_small small, Int.toNat_natCast]
  · exact byteAt?_written_of_apart inside (by rwa [List.length_replicate])

/-- What buffers of these addresses and sizes make of memory `m`, lent one after another. -/
structure LendsAll (m : Memory) (entries : List (Int × Int)) (g : Memory) : Prop where
  wellFormed : g.WellFormed
  base : g.base = m.base
  size : g.size = m.size
  space : Heap.SameSpace m.heap g.heap
  live : ∀ entry, entry ∈ g.heap.sizes ↔ entry ∈ entries ∨ entry ∈ m.heap.sizes
  distinct : (entries.map Prod.fst).Nodup
  apart : ∀ entry ∈ m.heap.sizes, ∀ addr ∈ entries.map Prod.fst, entry.1 ≠ addr
  kept : ∀ entry ∈ m.heap.sizes, ∀ a, entry.1 ≤ a → a < entry.1 + entry.2 →
    g.byteAt? a = m.byteAt? a

theorem LendsAll.nil (w : m.WellFormed) : m.LendsAll [] m :=
  ⟨w, rfl, rfl, ⟨rfl, rfl, rfl⟩, by simp, List.nodup_nil, by simp, fun _ _ _ _ _ => rfl⟩

theorem Lends.cons {h : Memory} {entries : List (Int × Int)} (first : m.Lends addr n g)
    (rest : g.LendsAll entries h) : m.LendsAll ((addr, (n : Int)) :: entries) h := by
  have own : (addr, (n : Int)) ∈ g.heap.sizes := (first.live _).2 (.inl rfl)
  have stays (entry) (live : entry ∈ m.heap.sizes) : entry ∈ g.heap.sizes :=
    (first.live entry).2 (.inr live)
  refine ⟨rest.wellFormed, rest.base.trans first.base, rest.size.trans first.size,
    first.space.trans rest.space, fun entry => ?_, ?_, ?_, ?_⟩
  · rw [rest.live, first.live, List.mem_cons]
    tauto
  · rw [List.map_cons, List.nodup_cons]
    exact ⟨fun member => rest.apart _ own addr member rfl, rest.distinct⟩
  · intro entry live a member
    rw [List.map_cons, List.mem_cons] at member
    rcases member with rfl | member
    · exact (first.apart entry live).ne (by decide)
    · exact rest.apart entry (stays entry live) a member
  · intro entry live a low high
    exact (rest.kept entry (stays entry live) a low high).trans
      (first.kept_of_live live low high)

theorem exists_release (w : m.WellFormed) {size : Int} (live : (addr, size) ∈ m.heap.sizes) :
    ∃ heap, (release addr).effect m = (.ok (), { m with heap }) ∧
      WellFormed { m with heap } ∧
      ∀ entry, entry ∈ heap.sizes ↔ entry ∈ m.heap.sizes ∧ entry.1 ≠ addr := by
  obtain ⟨heap, released⟩ := w.heap.exists_release live
  obtain ⟨wellFormed, space, left⟩ := w.heap.release released
  refine ⟨heap, ?_, w.of_sameSpace wellFormed space, left⟩
  rw [release, effect_step, released]
  rfl

end Memory

namespace Buffers

open Keystream.Action Memory

def entries (b : Buffers) : List (Int × Int) :=
  [(b.key, 32), (b.nonce, 12), (b.state, 64), (b.output, 64)]

/-- What the four buffers `b` make of memory `m`. -/
structure Lent (m : Memory) (b : Buffers) (g : Memory) : Prop extends m.LendsAll b.entries g where
  blank : g.stretch b.output 64 = List.replicate 64 0

theorem exists_lent [Machine] {m : Memory} (w : m.WellFormed)
    (room : m.heap.HasRoom [32, 12, 64, 64]) :
    ∃ b g, Buffers.allocate.effect m = (.ok b, g) ∧ Lent m b g := by
  obtain ⟨key, h1, allocated1, nonce, h2, allocated2, state, h3, allocated3, output, h4,
    allocated4, _⟩ := room
  obtain ⟨g1, done1, lends1, rfl⟩ := exists_lends (n := 32) w allocated1 (by decide)
  obtain ⟨g2, done2, lends2, rfl⟩ := exists_lends (n := 12) lends1.wellFormed allocated2 (by decide)
  obtain ⟨g3, done3, lends3, rfl⟩ := exists_lends (n := 64) lends2.wellFormed allocated3 (by decide)
  obtain ⟨g4, done4, lends4, rfl⟩ := exists_lends (n := 64) lends3.wellFormed allocated4 (by decide)
  have all := lends1.cons (lends2.cons (lends3.cons (lends4.cons (.nil lends4.wellFormed))))
  refine ⟨{ key, nonce, state, output }, g4, ?_, all, lends4.blank⟩
  refine (effect_bind_of_ok done1 _).trans ((effect_bind_of_ok done2 _).trans ?_)
  exact (effect_bind_of_ok done3 _).trans (effect_bind_of_ok done4 _)

theorem Lent.bounds {m g : Memory} {b : Buffers} (lent : Lent m b g) {addr : Int}
    (member : addr ∈ b.addresses) : m.heap.start ≤ addr ∧ addr < m.base + m.size := by
  have w := lent.wellFormed
  obtain ⟨⟨_, n⟩, own, rfl⟩ := List.mem_map.1 (show addr ∈ b.entries.map Prod.fst from member)
  obtain ⟨low, high⟩ := w.heap.bounds ((lent.live _).2 (.inl own))
  have some := mul_pos w.heap.positive (Heap.blocksFor_pos g.heap.block n)
  rw [w.high, lent.base, lent.size] at high
  rw [lent.space.start] at low
  simp only at low high ⊢
  omega

theorem exists_release {m : Memory} {b : Buffers} (w : m.WellFormed) (distinct : b.addresses.Nodup)
    (live : ∀ entry ∈ b.entries, entry ∈ m.heap.sizes) :
    ∃ heap, b.release.effect m = (.ok (), { m with heap }) ∧
      ∀ entry, entry ∈ heap.sizes ↔ entry ∈ m.heap.sizes ∧ entry.1 ∉ b.addresses := by
  simp only [addresses, List.nodup_cons, List.mem_cons, List.not_mem_nil, or_false,
    not_or] at distinct
  simp only [entries, List.forall_mem_cons] at live
  obtain ⟨⟨keyNonce, keyState, keyOutput⟩, ⟨nonceState, nonceOutput⟩, stateOutput, _⟩ := distinct
  obtain ⟨liveKey, liveNonce, liveState, liveOutput, _⟩ := live
  obtain ⟨h1, done1, w1, left1⟩ := Memory.exists_release w liveKey
  obtain ⟨h2, done2, w2, left2⟩ :=
    Memory.exists_release w1 ((left1 _).2 ⟨liveNonce, Ne.symm keyNonce⟩)
  obtain ⟨h3, done3, w3, left3⟩ := Memory.exists_release w2
    ((left2 _).2 ⟨(left1 _).2 ⟨liveState, Ne.symm keyState⟩, Ne.symm nonceState⟩)
  obtain ⟨h4, done4, w4, left4⟩ := Memory.exists_release w3 ((left3 _).2
    ⟨(left2 _).2 ⟨(left1 _).2 ⟨liveOutput, Ne.symm keyOutput⟩, Ne.symm nonceOutput⟩,
      Ne.symm stateOutput⟩)
  refine ⟨h4, ?_, fun entry => ?_⟩
  · exact (effect_bind_of_ok done1 _).trans ((effect_bind_of_ok done2 _).trans
      ((effect_bind_of_ok done3 _).trans done4))
  · rw [left4, left3, left2, left1]
    simp only [addresses, List.mem_cons, List.not_mem_nil, or_false, not_or, and_assoc]

end Buffers

end Keystream
