import Keystream.Proofs.Effect
import Keystream.Proofs.Heap.Tracked
/-!
Well-formed heaps: aligned, with a tracked row of runs over the whole. Creation gives one, and
allocating and releasing keep it so. What is allocated stands apart from all that is live.
-/
namespace Keystream.Heap

def first (h : Heap) : Int := h.start.fdiv h.block

def stop (h : Heap) : Int := h.start + h.block * h.count

structure WellFormed (h : Heap) : Prop where
  positive : 0 < h.block
  aligned : h.block * h.first = h.start
  tracked : Run.Tracked h.block h.first (h.first + h.count) h.runs h.sizes

structure SameSpace (h g : Heap) : Prop where
  start : g.start = h.start
  block : g.block = h.block
  count : g.count = h.count

/-- Two entries of a ledger whose blocks do not overlap. -/
def Apart (block : Int) (a b : Int × Int) : Prop :=
  a.1 + block * blocksFor block a.2 ≤ b.1 ∨ b.1 + block * blocksFor block b.2 ≤ a.1

theorem Apart.symm {block : Int} {a b : Int × Int} (h : Apart block a b) : Apart block b a :=
  Or.symm h

instance (block : Int) : Std.Symm (Apart block) := ⟨fun _ _ => Apart.symm⟩

theorem Apart.ne {block : Int} (positive : 0 < block) {a b : Int × Int} (h : Apart block a b) :
    a.1 ≠ b.1 := by
  have first := mul_pos positive (blocksFor_pos block a.2)
  have second := mul_pos positive (blocksFor_pos block b.2)
  rcases h with h | h <;> omega

theorem Apart.clear {block : Int} (positive : 0 < block) {a b : Int × Int} (h : Apart block a b) :
    a.1 + a.2 ≤ b.1 ∨ b.1 + b.2 ≤ a.1 := by
  have first := le_mul_blocksFor positive a.2
  have second := le_mul_blocksFor positive b.2
  rcases h with before | behind
  · exact .inl (by omega)
  · exact .inr (by omega)

theorem SameSpace.trans {f g h : Heap} (a : SameSpace f g) (b : SameSpace g h) : SameSpace f h :=
  ⟨b.start.trans a.start, b.block.trans a.block, b.count.trans a.count⟩

theorem SameSpace.stop {g h : Heap} (s : SameSpace h g) : g.stop = h.stop := by
  rw [Heap.stop, Heap.stop, s.start, s.block, s.count]

theorem mul_fdiv_of_fmod_eq_zero {a b : Int} (h : a.fmod b = 0) : b * a.fdiv b = a := by
  have := Int.mul_fdiv_add_fmod a b
  omega

theorem wellFormed_of_create {start stop block : Int} {h : Heap} (positive : 0 < block)
    (created : create start stop block = .ok h) :
    h.WellFormed ∧ h.start = start ∧ h.block = block ∧ h.stop = stop := by
  simp only [create, check_eq_ok, not_not] at created
  obtain ⟨_, startAligned, stopAligned, proper, same⟩ := created
  cases same
  have startAligned := mul_fdiv_of_fmod_eq_zero startAligned
  have stopAligned := mul_fdiv_of_fmod_eq_zero stopAligned
  have whole : (stop - start).fdiv block = stop.fdiv block - start.fdiv block := by
    have apart : stop - start = block * (stop.fdiv block - start.fdiv block) := by
      rw [mul_sub, startAligned, stopAligned]
    rw [apart, Int.mul_fdiv_cancel_left _ positive.ne']
  have some : 0 < stop.fdiv block - start.fdiv block := by
    apply (mul_pos_iff_of_pos_left positive).1
    rw [mul_sub, startAligned, stopAligned]
    omega
  refine ⟨⟨positive, startAligned, ?_⟩, rfl, rfl, ?_⟩
  · show Run.Tracked block (start.fdiv block) (start.fdiv block + (stop - start).fdiv block)
      [⟨(stop - start).fdiv block, false⟩] []
    rw [whole]
    exact .free some (by simp) (.nil _)
  · show start + block * (stop - start).fdiv block = stop
    rw [whole, mul_sub, startAligned, stopAligned]
    omega

namespace WellFormed

variable {h : Heap}

theorem bounds (w : h.WellFormed) {entry : Int × Int} (live : entry ∈ h.sizes) :
    h.start ≤ entry.1 ∧ entry.1 + h.block * blocksFor h.block entry.2 ≤ h.stop := by
  have inside := w.tracked.bounds w.positive live
  rwa [mul_add, w.aligned] at inside

theorem apart (w : h.WellFormed) {a b : Int × Int} (liveA : a ∈ h.sizes) (liveB : b ∈ h.sizes)
    (ne : a ≠ b) : Apart h.block a b := by
  have ordered : h.sizes.Pairwise (Apart h.block) := (w.tracked.pairwise w.positive).imp .inl
  exact ordered.forall liveA liveB ne

theorem clear (w : h.WellFormed) {a b : Int × Int} (liveA : a ∈ h.sizes) (liveB : b ∈ h.sizes)
    (ne : a.1 ≠ b.1) : a.1 + a.2 ≤ b.1 ∨ b.1 + b.2 ≤ a.1 :=
  (w.apart liveA liveB fun same => ne (congrArg Prod.fst same)).clear w.positive

end WellFormed

theorem allocate_eq_ok {h g : Heap} {align size addr : Int} (positive : 0 < h.block)
    (allocated : h.allocate align size = .ok (addr, g)) :
    ∃ step pos runs, 0 < step ∧
      Run.place step (blocksFor h.block size) h.first h.runs = some (pos, runs) ∧
      addr = h.block * pos ∧ g = { h with runs, sizes := h.sizes.enter addr size } := by
  simp only [Heap.allocate, check_eq_ok] at allocated
  obtain ⟨_, _, allocated⟩ := allocated
  have step : 0 < (max align h.block).fdiv h.block := by
    have parts := Int.mul_fdiv_add_fmod (max align h.block) h.block
    have rest := Int.fmod_lt_of_pos (max align h.block) positive
    have larger : h.block ≤ max align h.block := le_max_right ..
    apply (mul_pos_iff_of_pos_left positive).1
    omega
  split at allocated
  · cases allocated
  · next pos runs placed =>
    cases allocated
    exact ⟨_, pos, runs, step, placed, rfl, rfl⟩

theorem WellFormed.allocate {h g : Heap} {align size addr : Int} (w : h.WellFormed)
    (allocated : h.allocate align size = .ok (addr, g)) :
    g.WellFormed ∧ SameSpace h g ∧
      (∀ entry, entry ∈ g.sizes ↔ entry = (addr, size) ∨ entry ∈ h.sizes) ∧
      ∀ entry ∈ h.sizes, Apart h.block entry (addr, size) := by
  obtain ⟨step, pos, runs, some, placed, rfl, rfl⟩ := allocate_eq_ok w.positive allocated
  obtain ⟨tracked, before, after, whole, entered⟩ := w.tracked.place w.positive some placed
  have ordered := tracked.pairwise w.positive
  rw [entered] at ordered
  refine ⟨⟨w.positive, w.aligned, tracked⟩, ⟨rfl, rfl, rfl⟩, fun entry => ?_, fun entry live => ?_⟩
  · show entry ∈ Ledger.enter _ _ _ ↔ _
    rw [entered, whole]
    simp only [List.mem_append, List.mem_cons]
    tauto
  · rw [whole] at live
    have ordered := List.pairwise_append.1 ordered
    rcases List.mem_append.1 live with live | live
    · exact .inl (ordered.2.2 entry live _ List.mem_cons_self)
    · exact .inr ((List.pairwise_cons.1 ordered.2.1).1 entry live)

theorem release_eq_ok {h g : Heap} {addr : Int} (released : h.release addr = .ok g) :
    ∃ runs sizes, addr.fmod h.block = 0 ∧
      Run.release ((addr - h.start).fdiv h.block) h.runs = .ok runs ∧
      h.sizes.strike? addr = some sizes ∧ g = { h with runs, sizes } := by
  simp only [Heap.release, check_eq_ok, not_not] at released
  obtain ⟨aligned, _, _, released⟩ := released
  obtain ⟨runs, freed, released⟩ := bind_eq_ok.1 released
  split at released
  · cases released
  · next sizes struck =>
    cases released
    exact ⟨runs, sizes, aligned, freed, struck, rfl⟩

theorem WellFormed.address {h : Heap} (w : h.WellFormed) {addr : Int}
    (aligned : addr.fmod h.block = 0) :
    h.block * (h.first + (addr - h.start).fdiv h.block) = addr := by
  have addressed := mul_fdiv_of_fmod_eq_zero aligned
  have distance : addr - h.start = h.block * (addr.fdiv h.block - h.first) := by
    rw [mul_sub, addressed, w.aligned]
  rw [distance, Int.mul_fdiv_cancel_left _ w.positive.ne', ← addressed]
  congr 1
  rw [addressed]
  omega

theorem WellFormed.release {h g : Heap} {addr : Int} (w : h.WellFormed)
    (released : h.release addr = .ok g) :
    g.WellFormed ∧ SameSpace h g ∧ ∀ entry, entry ∈ g.sizes ↔ entry ∈ h.sizes ∧ entry.1 ≠ addr := by
  obtain ⟨runs, sizes, aligned, freed, struck, rfl⟩ := release_eq_ok released
  obtain ⟨before, size, after, whole, left, tracked⟩ := w.tracked.release w.positive freed
  rw [w.address aligned] at whole left
  cases struck.symm.trans left
  refine ⟨⟨w.positive, w.aligned, tracked⟩, ⟨rfl, rfl, rfl⟩, fun entry => ?_⟩
  have ordered := (w.tracked.pairwise w.positive).imp fun {a b} le =>
    Apart.ne w.positive (Or.inl le : Apart h.block a b)
  rw [whole, List.pairwise_append, List.pairwise_cons] at ordered
  obtain ⟨_, ⟨behind, _⟩, ahead⟩ := ordered
  show entry ∈ before ++ after ↔ _
  rw [whole]
  simp only [List.mem_append, List.mem_cons]
  constructor
  · rintro (live | live)
    · exact ⟨.inl live, ahead entry live _ List.mem_cons_self⟩
    · exact ⟨.inr (.inr live), (behind entry live).symm⟩
  · rintro ⟨live | rfl | live, other⟩
    · exact .inl live
    · exact absurd rfl other
    · exact .inr live

theorem WellFormed.exists_release {h : Heap} (w : h.WellFormed) {addr size : Int}
    (live : (addr, size) ∈ h.sizes) : ∃ g, h.release addr = .ok g := by
  obtain ⟨k, rfl⟩ : ∃ k, addr = h.block * k := w.tracked.exists_block live
  have inside : h.start ≤ h.block * k ∧
      h.block * k + h.block * blocksFor h.block size ≤ h.stop := w.bounds live
  have aligned : (h.block * k).fmod h.block = 0 := Int.mul_fmod_right ..
  have distance : h.block * k - h.start = h.block * (k - h.first) := by rw [mul_sub, w.aligned]
  have index : (h.block * k - h.start).fdiv h.block = k - h.first := by
    rw [distance, Int.mul_fdiv_cancel_left _ w.positive.ne']
  have place : h.first + (k - h.first) = k := by omega
  have counted : ¬h.count ≤ k - h.first := by
    intro beyond
    have some := mul_pos w.positive (blocksFor_pos h.block size)
    have far := mul_le_mul_of_nonneg_left beyond w.positive.le
    have low : h.block * k = h.start + h.block * (k - h.first) := by omega
    have high : h.stop = h.start + h.block * h.count := rfl
    omega
  obtain ⟨runs, freed⟩ := w.tracked.release_of_mem w.positive (place.symm ▸ live)
  obtain ⟨before, size, after, _, struck, _⟩ := w.tracked.release w.positive freed
  rw [place] at struck
  refine ⟨{ h with runs, sizes := before ++ after }, ?_⟩
  simp only [Heap.release, check_eq_ok, bind_eq_ok, index, struck, not_not]
  exact ⟨aligned, by omega, counted, runs, freed, rfl⟩

end Keystream.Heap
