import Keystream.Proofs.Heap.Canonical
import Keystream.Proofs.Heap.Live
/-!
Giving back. A release takes back the live allocation at its address, and frees exactly its blocks.
At every other address it is refused, and changes nothing.
-/
namespace Keystream

namespace Run

theorem release_refused {block start distance : Int} {runs : List Run} (positive : 0 < block)
    (filled : ∀ run ∈ runs, 0 < run.blocks) (inside : 0 ≤ distance)
    (free : ∀ run, (start + block * distance, run) ∈ placed block start runs → run.used = false) :
    release distance runs =
      .error (if start + block * distance ∈ (placed block start runs).map Prod.fst then .alreadyFree
        else .notAllocated) := by
  induction runs generalizing start distance with
  | nil => rfl
  | cons run rest ih =>
    obtain ⟨headFilled, filled⟩ := List.forall_mem_cons.1 filled
    rcases Int.lt_or_eq_of_le inside with behind | here
    · have place : start + block * run.blocks + block * (distance - run.blocks) =
          start + block * distance := by ring
      have other : start + block * distance ≠ start := by
        have := mul_pos positive behind
        omega
      rw [release_of_pos behind]
      simp only [placed, List.map_cons, List.mem_cons, other, false_or]
      by_cases within : distance < run.blocks
      · have absent : start + block * distance ∉
            (placed block (start + block * run.blocks) rest).map Prod.fst := by
          rintro member
          obtain ⟨⟨_, next⟩, member, rfl⟩ := List.mem_map.1 member
          have low := (bounds_of_mem_placed positive filled member).1
          have := mul_lt_mul_of_pos_left within positive
          omega
        rw [release_of_neg (by omega), if_neg absent]
        rfl
      · rw [ih filled (by omega) fun next member => free next ?_, place]
        · rfl
        · exact List.mem_cons_of_mem _ (place ▸ member)
    · subst here
      have first : start + block * 0 = start := by ring
      rw [first] at free ⊢
      have notUsed : run.used = false := free run List.mem_cons_self
      rw [release_zero, notUsed, placed, List.map_cons, if_pos List.mem_cons_self]
      rfl

end Run

namespace Heap

open Keystream.Action

variable {h g : Heap} {addr : Int}

/-- What a release is refused with where nothing is live. -/
def refusal (h : Heap) (addr : Int) : Error :=
  if addr.fmod h.block ≠ 0 then .freeUnaligned
  else if addr < h.start then .freeBelow
  else if h.stop ≤ addr then .freeBeyond
  else if addr ∈ h.placed.map Prod.fst then .alreadyFree
  else .notAllocated

theorem kind_refusal (h : Heap) (addr : Int) : (h.refusal addr).kind = .value := by
  unfold refusal
  split_ifs <;> rfl

theorem WellFormed.release_of_not_live (w : h.WellFormed)
    (dead : ¬∃ blocks size, h.Live addr blocks size) :
    h.release addr = .error (h.refusal addr) := by
  unfold refusal
  simp only [Heap.release, check_eq_error]
  by_cases unaligned : addr.fmod h.block ≠ 0
  · exact .inl ⟨unaligned, (if_pos unaligned).symm⟩
  refine .inr ⟨unaligned, ?_⟩
  rw [if_neg unaligned]
  by_cases below : addr < h.start
  · exact .inl ⟨below, (if_pos below).symm⟩
  refine .inr ⟨below, ?_⟩
  rw [if_neg below]
  obtain ⟨index, isIndex⟩ : ∃ index, (addr - h.start).fdiv h.block = index := ⟨_, rfl⟩
  have place : h.start + h.block * index = addr := by
    have address := w.address (not_not.1 unaligned)
    rwa [isIndex, mul_add, w.aligned] at address
  rw [isIndex]
  have beyond_iff : h.count ≤ index ↔ h.stop ≤ addr := by
    rw [← place, stop, add_le_add_iff_left, mul_le_mul_iff_right₀ w.positive]
  by_cases beyond : h.count ≤ index
  · exact .inl ⟨beyond, (if_pos (beyond_iff.1 beyond)).symm⟩
  refine .inr ⟨beyond, ?_⟩
  rw [if_neg (mt beyond_iff.2 beyond)]
  have inside : 0 ≤ index := by
    refine nonneg_of_mul_nonneg_right ?_ w.positive
    omega
  have free : ∀ run, (h.start + h.block * index, run) ∈ h.placed → run.used = false := by
    intro run member
    rw [place] at member
    refine Bool.eq_false_of_not_eq_true fun used => dead ?_
    obtain ⟨size, known⟩ := (w.coherent.live addr).2 ⟨run, member, used⟩
    exact ⟨run.blocks, size, known, used ▸ member⟩
  rw [Run.release_refused w.positive w.coherent.positive inside free, place]
  rfl

section

variable {blocks size : Int} (w : h.WellFormed) (live : h.Live addr blocks size)
  (released : h.release addr = .ok g) (a : Int)
include w live released

theorem WellFormed.covered_true_release :
    g.Covered true a ↔ h.Covered true a ∧ ¬(addr ≤ a ∧ a < addr + h.block * blocks) := by
  obtain ⟨w', space, _⟩ := w.release released
  simp only [w'.covered_true_iff, w.covered_true_iff, w.live_release released, space.block]
  constructor
  · rintro ⟨first, n, s, ⟨other, ne⟩, within⟩
    refine ⟨⟨first, n, s, other, within⟩, fun inside => ne ?_⟩
    exact congrArg Prod.fst
      (Run.eq_of_mem_placed w.positive w.coherent.positive other.run within live.run inside)
  · rintro ⟨⟨first, n, s, other, within⟩, outside⟩
    refine ⟨first, n, s, ⟨other, ?_⟩, within⟩
    rintro rfl
    cases other.known.symm.trans live.known
    rw [(w.live_iff.1 live).2, ← (w.live_iff.1 other).2] at outside
    exact outside within

theorem WellFormed.covered_false_release :
    g.Covered false a ↔ h.Covered false a ∨ (addr ≤ a ∧ a < addr + h.block * blocks) := by
  obtain ⟨w', space, _⟩ := w.release released
  rw [w'.covered_false_iff, w.covered_false_iff, space.start, space.stop,
    w.covered_true_release live released]
  constructor
  · rintro ⟨low, high, free⟩
    by_cases within : addr ≤ a ∧ a < addr + h.block * blocks
    · exact .inr within
    · exact .inl ⟨low, high, fun was => free ⟨was, within⟩⟩
  · rintro (⟨low, high, free⟩ | within)
    · exact ⟨low, high, fun was => free was.1⟩
    · obtain ⟨member, rfl⟩ := w.live_iff.1 live
      obtain ⟨least, most⟩ : h.start ≤ addr ∧
        addr + h.block * blocksFor h.block size ≤ h.stop := w.bounds member
      exact ⟨by omega, by omega, fun was => was.2 within⟩

end

/-- A release succeeds at the addresses of live allocations and no others. It takes back what is
live there and frees its blocks, and all else is as before; where it is refused nothing changes. -/
theorem release_is_exact {start stop block : Int} (positive : 0 < block)
    (created : create start stop block = .ok h) (history : History) (addr : Int) :
    let g := history.leaves h
    (∀ blocks size, g.Live addr blocks size → ∃ f, (releaseAt addr).effect g = (.ok (), f) ∧
      (∀ a n s, f.Live a n s ↔ g.Live a n s ∧ a ≠ addr) ∧
      ∀ a, (f.Covered true a ↔
          g.Covered true a ∧ ¬(addr ≤ a ∧ a < addr + block * blocks)) ∧
        (f.Covered false a ↔
          g.Covered false a ∨ (addr ≤ a ∧ a < addr + block * blocks))) ∧
    ((¬∃ blocks size, g.Live addr blocks size) →
      (releaseAt addr).effect g = (.error (g.refusal addr), g) ∧
      (g.refusal addr).kind = .value) := by
  intro g
  obtain ⟨new, _, sameBlock, _⟩ := wellFormed_of_create positive created
  obtain ⟨w, space⟩ := new.leaves history
  have isBlock : g.block = block := space.block.trans sameBlock
  have effect := effect_releaseAt addr g
  refine ⟨fun blocks size live => ?_, fun dead => ⟨?_, g.kind_refusal addr⟩⟩
  · obtain ⟨f, released⟩ := w.exists_release (w.live_iff.1 live).1
    rw [released] at effect
    refine ⟨f, effect, w.live_release released, fun a => ?_⟩
    rw [← isBlock]
    exact ⟨w.covered_true_release live released a, w.covered_false_release live released a⟩
  · rw [w.release_of_not_live dead] at effect
    exact effect

/-- A block between two others is given back, once. -/
theorem release_is_exact_between_others :
    let h : Heap := ⟨32, 16, 8, [⟨8, false⟩], []⟩
    let upTo (rest : History) : History := .call (.allocateBlocks 5) <|
      .call (.allocateBlocks 20) <| .call (.allocateBlocks 1) rest
    let g := (upTo .done).leaves h
    let f := (upTo (.call (.release 48) .done)).leaves h
    (0 : Int) < 16 ∧ create 32 160 16 = .ok h ∧ g.Live 48 2 20 ∧
      f.runs = [⟨1, true⟩, ⟨2, false⟩, ⟨1, true⟩, ⟨4, false⟩] ∧
      (releaseAt 48).effect g = (.ok (), f) ∧ (∀ a n s, f.Live a n s ↔ g.Live a n s ∧ a ≠ 48) ∧
      (releaseAt 48).effect f = (.error .alreadyFree, f) := by
  intro h upTo g f
  have created : create 32 160 16 = .ok h := rfl
  have exact_at (history : History) := release_is_exact (by decide) created history 48
  have live : g.Live 48 2 20 := ⟨by decide +kernel, by decide +kernel⟩
  have effect : (releaseAt 48).effect g = (.ok (), f) := by decide +kernel
  have refused : f.refusal 48 = .alreadyFree := by decide +kernel
  obtain ⟨f', released, lives, _⟩ := (exact_at (upTo .done)).1 2 20 live
  obtain rfl : f = f' := congrArg Prod.snd (effect.symm.trans released)
  have again := (exact_at (upTo (.call (.release 48) .done))).2 fun ⟨n, s, still⟩ =>
    ((lives 48 n s).1 still).2 rfl
  rw [show (upTo (.call (.release 48) .done)).leaves h = f from rfl, refused] at again
  exact ⟨by decide, created, live, by decide +kernel, effect, lives, again.1⟩

end Heap

end Keystream
