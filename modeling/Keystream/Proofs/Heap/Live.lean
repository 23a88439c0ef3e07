import Keystream.Proofs.Heap.Coherent
import Mathlib.Algebra.Order.BigOperators.Group.List
/-!
Live allocations, as the ledger and the runs know them together: an address, the blocks of the used
run that begins there, and the size that was asked for. Which block is free and which is used is
read off the runs.
-/
namespace Keystream

namespace Heap

structure Live (h : Heap) (addr blocks size : Int) : Prop where
  known : h.sizes.size? addr = some size
  run : (addr, ⟨blocks, true⟩) ∈ h.placed

/-- Whether `addr` lies in a run that is used, or in one that is free. -/
def Covered (h : Heap) (used : Bool) (addr : Int) : Prop :=
  ∃ first run, (first, run) ∈ h.placed ∧ run.used = used ∧
    first ≤ addr ∧ addr < first + h.block * run.blocks

variable {h g : Heap} {addr : Int}

theorem WellFormed.live_iff (w : h.WellFormed) {blocks size : Int} :
    h.Live addr blocks size ↔ (addr, size) ∈ h.sizes ∧ blocks = blocksFor h.block size := by
  have placed := w.tracked.mem_placed_iff addr blocks
  rw [← w.placed_eq] at placed
  constructor
  · rintro ⟨entered, run⟩
    obtain ⟨other, member, rfl⟩ := placed.1 run
    cases entered.symm.trans (w.size?_eq_some_iff.2 member)
    exact ⟨member, rfl⟩
  · rintro ⟨member, rfl⟩
    exact ⟨w.size?_eq_some_iff.2 member, placed.2 ⟨size, member, rfl⟩⟩

theorem WellFormed.live_allocate {align size : Int} (w : h.WellFormed)
    (allocated : h.allocate align size = .ok (addr, g)) (a n s : Int) :
    g.Live a n s ↔ h.Live a n s ∨ (a, n, s) = (addr, blocksFor h.block size, size) := by
  obtain ⟨w', space, lives, _⟩ := w.allocate allocated
  rw [w'.live_iff, w.live_iff, lives, space.block]
  simp only [Prod.mk.injEq]
  constructor
  · rintro ⟨⟨rfl, rfl⟩ | member, rfl⟩
    · exact .inr ⟨rfl, rfl, rfl⟩
    · exact .inl ⟨member, rfl⟩
  · rintro (⟨member, rfl⟩ | ⟨rfl, rfl, rfl⟩)
    · exact ⟨.inr member, rfl⟩
    · exact ⟨.inl ⟨rfl, rfl⟩, rfl⟩

theorem WellFormed.live_release (w : h.WellFormed) (released : h.release addr = .ok g)
    (a n s : Int) : g.Live a n s ↔ h.Live a n s ∧ a ≠ addr := by
  obtain ⟨w', space, left⟩ := w.release released
  rw [w'.live_iff, w.live_iff, left, space.block]
  tauto

end Heap

namespace Run

variable {block start a first : Int} {runs : List Run} {run : Run}

theorem sum_blocks_nonneg (filled : ∀ run ∈ runs, 0 < run.blocks) :
    0 ≤ (runs.map Run.blocks).sum := by
  refine List.sum_nonneg fun n member => ?_
  obtain ⟨run, held, rfl⟩ := List.mem_map.1 member
  exact (filled run held).le

theorem bounds_of_mem_placed (positive : 0 < block) (filled : ∀ run ∈ runs, 0 < run.blocks)
    (member : (first, run) ∈ placed block start runs) :
    start ≤ first ∧ first + block * run.blocks ≤ start + block * (runs.map Run.blocks).sum := by
  induction runs generalizing start with
  | nil => cases member
  | cons head rest ih =>
    obtain ⟨headFilled, filled⟩ := List.forall_mem_cons.1 filled
    have wide := mul_pos positive headFilled
    have behind := mul_nonneg positive.le (sum_blocks_nonneg filled)
    rw [List.map_cons, List.sum_cons, mul_add]
    rcases List.mem_cons.1 member with same | member
    · cases same
      constructor <;> linarith
    · obtain ⟨low, high⟩ := ih filled member
      constructor <;> linarith

theorem existsUnique_placed (positive : 0 < block) (filled : ∀ run ∈ runs, 0 < run.blocks)
    (low : start ≤ a) (high : a < start + block * (runs.map Run.blocks).sum) :
    ∃! place : Int × Run, place ∈ placed block start runs ∧
      place.1 ≤ a ∧ a < place.1 + block * place.2.blocks := by
  induction runs generalizing start with
  | nil => simp at high; omega
  | cons head rest ih =>
    obtain ⟨headFilled, filled⟩ := List.forall_mem_cons.1 filled
    have wide := mul_pos positive headFilled
    by_cases inside : a < start + block * head.blocks
    · refine ⟨(start, head), ⟨List.mem_cons_self, low, inside⟩, ?_⟩
      rintro place ⟨member, before, _⟩
      refine (List.mem_cons.1 member).resolve_right fun behind => ?_
      have := (bounds_of_mem_placed positive filled behind).1
      omega
    · rw [List.map_cons, List.sum_cons, mul_add, ← add_assoc] at high
      obtain ⟨place, ⟨member, within⟩, only⟩ := ih filled (by omega) high
      refine ⟨place, ⟨List.mem_cons_of_mem _ member, within⟩, ?_⟩
      rintro other ⟨member, before, after⟩
      refine only other ⟨(List.mem_cons.1 member).resolve_left fun same => ?_, before, after⟩
      cases same
      exact inside after

theorem eq_of_mem_placed {second : Int} {other : Run} (positive : 0 < block)
    (filled : ∀ run ∈ runs, 0 < run.blocks) (member : (first, run) ∈ placed block start runs)
    (within : first ≤ a ∧ a < first + block * run.blocks)
    (member' : (second, other) ∈ placed block start runs)
    (within' : second ≤ a ∧ a < second + block * other.blocks) :
    (first, run) = (second, other) := by
  obtain ⟨low, high⟩ := bounds_of_mem_placed positive filled member
  have one := existsUnique_placed positive filled (low.trans within.1) (within.2.trans_le high)
  exact one.unique ⟨member, within⟩ ⟨member', within'⟩

end Run

namespace Heap

variable {h g : Heap} {addr : Int}

theorem WellFormed.covered_true_iff (w : h.WellFormed) :
    h.Covered true addr ↔
      ∃ first blocks size, h.Live first blocks size ∧
        first ≤ addr ∧ addr < first + h.block * blocks := by
  constructor
  · rintro ⟨first, ⟨blocks, _⟩, member, rfl, within⟩
    have placed := member
    rw [w.placed_eq] at placed
    obtain ⟨size, entered, rfl⟩ := (w.tracked.mem_placed_iff first blocks).1 placed
    exact ⟨first, _, size, w.live_iff.2 ⟨entered, rfl⟩, within⟩
  · rintro ⟨first, blocks, size, live, within⟩
    exact ⟨first, _, live.run, rfl, within⟩

theorem WellFormed.covered_false_iff (w : h.WellFormed) :
    h.Covered false addr ↔ h.start ≤ addr ∧ addr < h.stop ∧ ¬h.Covered true addr := by
  have coherent := w.coherent
  have filled := coherent.positive
  have whole : h.stop = h.start + h.block * (h.runs.map Run.blocks).sum := by
    rw [coherent.total, stop]
  constructor
  · rintro ⟨first, run, member, free, within⟩
    have bounds := Run.bounds_of_mem_placed w.positive filled member
    refine ⟨bounds.1.trans within.1, whole ▸ within.2.trans_le bounds.2, ?_⟩
    rintro ⟨other, run', member', used, within'⟩
    cases Run.eq_of_mem_placed w.positive filled member within member' within'
    rw [free] at used
    cases used
  · rintro ⟨low, high, notUsed⟩
    obtain ⟨⟨first, run⟩, ⟨member, within⟩, _⟩ :=
      Run.existsUnique_placed w.positive filled low (whole ▸ high)
    refine ⟨first, run, member, ?_, within⟩
    cases free : run.used with
    | false => rfl
    | true => exact absurd ⟨first, run, member, free, within⟩ notUsed

end Heap

end Keystream
