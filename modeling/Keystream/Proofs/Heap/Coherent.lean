import Keystream.Proofs.Machine
import Keystream.Proofs.Memory.Reachable
import Mathlib.Data.List.Chain
import Mathlib.Data.Rat.Floor
/-!
Coherent heaps: the runs cover the whole, no two free ones stand side by side, and the ledger says
of each used run, by the address it begins at, what was asked for. Every heap is coherent, whatever
was asked of it and whether that succeeded or failed.
-/
namespace Keystream

namespace Run

/-- The runs of a row that begins at `addr`, each with the address where it begins. -/
def placed (block addr : Int) : List Run → List (Int × Run)
  | [] => []
  | run :: rest => (addr, run) :: placed block (addr + block * run.blocks) rest

end Run

namespace Heap

def placed (h : Heap) : List (Int × Run) := Run.placed h.block h.start h.runs

/-- The blocks that `size` bytes fill, the last of them perhaps in part; one at least. -/
def wholeBlocks (block size : Int) : Int := max 1 ⌈(size / block : ℚ)⌉

structure Coherent (h : Heap) : Prop where
  positive : ∀ run ∈ h.runs, 0 < run.blocks
  total : (h.runs.map Run.blocks).sum = h.count
  joined : h.runs.IsChain fun run next => run.used = true ∨ next.used = true
  live : ∀ addr, (∃ size, h.sizes.size? addr = some size) ↔
    ∃ run, (addr, run) ∈ h.placed ∧ run.used = true
  whole : ∀ addr size run, h.sizes.size? addr = some size → (addr, run) ∈ h.placed →
    run.used = true → run.blocks = wholeBlocks h.block size

theorem blocksFor_eq_wholeBlocks {block : Int} (positive : 0 < block) (size : Int) :
    blocksFor block size = wholeBlocks block size := by
  have parts := Int.mul_fdiv_add_fmod (size + block - 1) block
  have low := Int.fmod_nonneg_of_pos (size + block - 1) positive
  have high := Int.fmod_lt_of_pos (size + block - 1) positive
  have filled : ⌈(size / block : ℚ)⌉ = (size + block - 1).fdiv block := by
    have divisor : (0 : ℚ) < block := by exact_mod_cast positive
    rw [Int.ceil_eq_iff, lt_div_iff₀ divisor, div_le_iff₀ divisor]
    constructor
    · have short : ((size + block - 1).fdiv block - 1) * block < size := by linarith
      exact_mod_cast short
    · have enough : size ≤ (size + block - 1).fdiv block * block := by linarith
      exact_mod_cast enough
  rw [blocksFor, wholeBlocks, filled]

end Heap

namespace Run

open Heap

theorem total_add_total (runs : List Run) :
    total false runs + total true runs = (runs.map Run.blocks).sum := by
  induction runs with
  | nil => rfl
  | cons run rest ih =>
    rw [List.map_cons, List.sum_cons, ← ih]
    cases h : run.used <;> simp only [total, h] <;> simp <;> ring

namespace Tracked

variable {block pos stop : Int} {runs : List Run} {ledger : Ledger}

theorem blocks_pos (t : Tracked block pos stop runs ledger) : ∀ run ∈ runs, 0 < run.blocks := by
  induction t with
  | nil => exact List.forall_mem_nil _
  | free positive _ _ ih => exact List.forall_mem_cons.2 ⟨positive, ih⟩
  | used _ ih => exact List.forall_mem_cons.2 ⟨blocksFor_pos .., ih⟩

theorem sum_blocks (t : Tracked block pos stop runs ledger) :
    pos + (runs.map Run.blocks).sum = stop := by
  induction t with
  | nil => exact add_zero _
  | free _ _ _ ih | used _ ih => rw [List.map_cons, List.sum_cons, ← add_assoc, ih]

theorem isChain (t : Tracked block pos stop runs ledger) :
    runs.IsChain fun run next => run.used = true ∨ next.used = true := by
  induction t with
  | nil => exact .nil
  | free _ next _ ih => exact List.isChain_cons.2 ⟨fun run first => .inr (next run first), ih⟩
  | used _ ih => exact List.isChain_cons.2 ⟨fun _ _ => .inl rfl, ih⟩

theorem mem_placed_iff (t : Tracked block pos stop runs ledger) (addr n : Int) :
    (addr, ⟨n, true⟩) ∈ placed block (block * pos) runs ↔
      ∃ size, (addr, size) ∈ ledger ∧ n = blocksFor block size := by
  induction t with
  | nil => simp [placed]
  | @free pos stop m runs ledger _ _ _ ih =>
    rw [placed, ← mul_add, List.mem_cons, ih]
    simp
  | @used pos stop size runs ledger _ ih =>
    rw [placed, ← mul_add, List.mem_cons, ih]
    constructor
    · rintro (here | ⟨other, member, same⟩)
      · obtain ⟨rfl, same⟩ := Prod.mk.inj here
        exact ⟨size, List.mem_cons_self, (Run.mk.inj same).1⟩
      · exact ⟨other, List.mem_cons_of_mem _ member, same⟩
    · rintro ⟨other, member, rfl⟩
      rcases List.mem_cons.1 member with here | member
      · obtain ⟨rfl, rfl⟩ := Prod.mk.inj here
        exact .inl rfl
      · exact .inr ⟨other, member, rfl⟩

theorem size?_eq_some_iff (t : Tracked block pos stop runs ledger) (positive : 0 < block)
    {addr size : Int} : ledger.size? addr = some size ↔ (addr, size) ∈ ledger := by
  rw [Ledger.size?, List.lookup_eq_some_iff]
  constructor
  · rintro ⟨before, after, whole, _⟩
    rw [whole]
    exact List.mem_append_right _ List.mem_cons_self
  · intro member
    obtain ⟨before, after, whole⟩ := List.append_of_mem member
    have ordered := t.pairwise positive
    rw [whole, List.pairwise_append] at ordered
    refine ⟨before, after, whole, fun entry earlier => bne_iff_ne.2 ?_⟩
    have behind := ordered.2.2 entry earlier _ List.mem_cons_self
    exact (Apart.ne positive (Or.inl behind : Apart block entry (addr, size))).symm

end Tracked

end Run

namespace Heap

open Keystream.Action

variable {h : Heap}

theorem WellFormed.placed_eq (w : h.WellFormed) :
    h.placed = Run.placed h.block (h.block * h.first) h.runs := by
  rw [placed, w.aligned]

theorem WellFormed.size?_eq_some_iff (w : h.WellFormed) {addr size : Int} :
    h.sizes.size? addr = some size ↔ (addr, size) ∈ h.sizes :=
  w.tracked.size?_eq_some_iff w.positive

theorem WellFormed.coherent (w : h.WellFormed) : h.Coherent where
  positive := w.tracked.blocks_pos
  total := by
    have := w.tracked.sum_blocks
    omega
  joined := w.tracked.isChain
  live addr := by
    simp only [w.size?_eq_some_iff, w.placed_eq]
    constructor
    · rintro ⟨size, member⟩
      exact ⟨_, (w.tracked.mem_placed_iff addr _).2 ⟨size, member, rfl⟩, rfl⟩
    · rintro ⟨⟨n, _⟩, member, rfl⟩
      obtain ⟨size, member, _⟩ := (w.tracked.mem_placed_iff addr n).1 member
      exact ⟨size, member⟩
  whole := by
    rintro addr size ⟨n, _⟩ known member rfl
    rw [w.placed_eq] at member
    obtain ⟨other, entered, rfl⟩ := (w.tracked.mem_placed_iff addr n).1 member
    cases known.symm.trans (w.size?_eq_some_iff.2 entered)
    exact blocksFor_eq_wholeBlocks w.positive size

theorem exists_sizeOf_iff (h : Heap) (addr : Int) :
    (∃ size, h.sizeOf addr = .ok size) ↔ ∃ size, h.sizes.size? addr = some size := by
  rw [sizeOf]
  cases h.sizes.size? addr with
  | none => exact ⟨fun ⟨_, known⟩ => (nomatch known), fun ⟨_, known⟩ => (nomatch known)⟩
  | some size => exact ⟨fun _ => ⟨size, rfl⟩, fun _ => ⟨size, rfl⟩⟩

theorem Coherent.usage_eq (c : h.Coherent) :
    h.usage = .ok (Run.total false h.runs * h.block, Run.total true h.runs * h.block) :=
  if_pos ((Run.total_add_total h.runs).trans c.total)

theorem effect_check [Machine] {free used : Int} (counted : h.usage = .ok (free, used)) :
    check.effect h =
      (if Machine.Spells free ∧ Machine.Spells used then .ok (free, used)
        else .error (.tooManyDigits Machine.digits none), h) := by
  rw [check, effect_get_bind, counted]
  refine (effect_bind_of_ok (effect_liftM ..) _).trans ((effect_bind_of_ok rfl _).trans ?_)
  by_cases usedFits : Machine.Spells used
  · rw [Machine.decimal_of_spells usedFits]
    refine (effect_bind_of_ok (effect_liftM ..) _).trans ((effect_bind_of_ok rfl _).trans ?_)
    by_cases freeFits : Machine.Spells free
    · rw [Machine.decimal_of_spells freeFits, if_pos ⟨freeFits, usedFits⟩]
      rfl
    · rw [Machine.decimal_of_not_spells freeFits, if_neg fun fits => freeFits fits.1]
      rfl
  · rw [Machine.decimal_of_not_spells usedFits, if_neg fun fits => usedFits fits.2]
    rfl

/-- What can befall a heap: calls one after another, some of them made while a guarded allocation
lasts, which fails in the end or does not. -/
inductive History where
  | done
  | call (call : Call) (rest : History)
  | guarded (size : Int) (inside : History) (failure : Option Error) (rest : History)

/-- A failing call changes nothing of what comes after. -/
def History.perform : History → Action Heap Unit
  | done => return ()
  | call c rest => do
    attempt c.perform
    rest.perform
  | guarded size inside failure rest => do
    attempt <| Heap.guarded size fun _ => do
      inside.perform
      match failure with
      | none => return ()
      | some e => throw e
    rest.perform

theorem keeps_guarded {g : Heap} {α : Type} (size : Int) {body : Int → Action Heap α}
    (kept : ∀ addr, Keeps (fun h => h.WellFormed ∧ SameSpace g h) (body addr)) :
    Keeps (fun h => h.WellFormed ∧ SameSpace g h) (guarded size body) :=
  (keeps_allocate (·.block) fun _ => size).bind fun addr =>
    (kept addr).ensuring (keeps_perform (.release addr))

theorem keeps_history {g : Heap} (history : History) :
    Keeps (fun h => h.WellFormed ∧ SameSpace g h) history.perform := by
  induction history with
  | done => exact keeps_pure _
  | call c rest ih => exact (keeps_perform c).attempt.bind fun _ => ih
  | guarded size inside failure rest ihInside ih =>
    refine (keeps_guarded size fun _ => ihInside.bind fun _ => ?_).attempt.bind fun _ => ih
    cases failure with
    | none => exact keeps_pure _
    | some e => exact keeps_throw e

/-- Of a heap that was made, whatever has befallen it since. A check finds the whole, which it gives
unless one of its two numbers has more digits than can be written. -/
theorem coherent_of_history [Machine] {start stop block : Int} {h : Heap} (positive : 0 < block)
    (created : create start stop block = .ok h) (history : History) :
    let g := (history.perform.effect h).2
    g.Coherent ∧
      (∀ addr size, g.sizes.size? addr = some size →
        start ≤ addr ∧ addr + block * wholeBlocks block size ≤ stop) ∧
      (∀ a m b n, g.sizes.size? a = some m → g.sizes.size? b = some n → a ≠ b →
        a + block * wholeBlocks block m ≤ b ∨ b + block * wholeBlocks block n ≤ a) ∧
      (∀ addr, (∃ size, g.sizeOf addr = .ok size) ↔
        ∃ run, (addr, run) ∈ g.placed ∧ run.used = true) ∧
      ∃ free used, g.usage = .ok (free, used) ∧ free + used = stop - start ∧
        check.effect g =
          (if Machine.Spells free ∧ Machine.Spells used then .ok (free, used)
            else .error (.tooManyDigits Machine.digits none), g) := by
  intro g
  obtain ⟨wellFormed, sameStart, sameBlock, sameStop⟩ := wellFormed_of_create positive created
  obtain ⟨w, space⟩ := keeps_history (g := h) history h ⟨wellFormed, rfl, rfl, rfl⟩
  have coherent : g.Coherent := w.coherent
  have isBlock : g.block = block := space.block.trans sameBlock
  have isStart : g.start = start := space.start.trans sameStart
  have isStop : g.stop = stop := space.stop.trans sameStop
  have filled (size : Int) : blocksFor g.block size = wholeBlocks block size :=
    isBlock ▸ blocksFor_eq_wholeBlocks w.positive size
  refine ⟨coherent, fun addr size live => ?_, fun a m b n liveA liveB ne => ?_, fun addr => ?_, ?_⟩
  · have inside := w.bounds (w.size?_eq_some_iff.1 live)
    rwa [filled, isBlock, isStart, isStop] at inside
  · have apart := w.apart (w.size?_eq_some_iff.1 liveA) (w.size?_eq_some_iff.1 liveB)
      fun same => ne (Prod.mk.inj same).1
    rwa [Apart, filled, filled, isBlock] at apart
  · rw [exists_sizeOf_iff, coherent.live]
  · refine ⟨_, _, coherent.usage_eq, ?_, effect_check coherent.usage_eq⟩
    have whole : g.start + g.block * g.count = g.stop := rfl
    rw [← add_mul, Run.total_add_total, coherent.total, ← isStart, ← isStop, ← whole]
    ring

/-- With two allocations left, one behind padding and one of no bytes, after a guarded one whose
body released no block and failed, and one that was too large. -/
theorem coherent_after_failures :
    let h : Heap := ⟨32, 16, 8, [⟨8, false⟩], []⟩
    let history : History :=
      .call (.allocate 64 20) <| .call (.allocateBlocks (-5)) <|
        .guarded 0 (.call (.release 7) .done) (some .noMemory) <| .guarded 4096 .done none .done
    let g := (history.perform.effect h).2
    (0 : Int) < 16 ∧ create 32 160 16 = .ok h ∧
      g.runs = [⟨1, true⟩, ⟨1, false⟩, ⟨2, true⟩, ⟨4, false⟩] ∧ g.sizes = [(32, -5), (64, 20)] ∧
      g.Coherent ∧ check.effect g = (.ok (80, 48), g) ∧ (80 : Int) + 48 = 160 - 32 := by
  intro h history g
  have created : create 32 160 16 = .ok h := rfl
  obtain ⟨coherent, _, _, _, free, used, counted, total, checked⟩ :=
    coherent_of_history (by decide) created history
  have shares : g.usage = .ok (80, 48) := by decide +kernel
  cases shares.symm.trans counted
  rw [if_pos (by decide +kernel)] at checked
  exact ⟨by decide, created, by decide +kernel, by decide +kernel, coherent, checked, total⟩

/-- A heap of `10 ^ 4300` bytes, which is one digit too many to be written, is in order, and its
check fails. -/
theorem check_of_long_count :
    let half : Nat := 5 * 10 ^ 4299
    let blocks : Nat := 10 ^ 4300 / 16
    let h : Heap := ⟨-half, 16, blocks, [⟨blocks, false⟩], []⟩
    (0 : Int) < 16 ∧ create (-half) half 16 = .ok h ∧
      check.effect h = (.error (.tooManyDigits 4300 none), h) ∧
      ¬∃ free used, (check.effect h).1 = .ok (free, used) := by
  intro half blocks h
  have created : create (-half) half 16 = .ok h := by decide +kernel
  have counted : h.usage = .ok ((10 ^ 4300 : Nat), 0) := by decide +kernel
  have long : ¬Machine.Spells ((10 ^ 4300 : Nat) : Int) := fun spells =>
    absurd (Machine.spells_iff.1 spells) (by decide +kernel)
  have failed := effect_check counted
  rw [if_neg fun fits => long fits.1] at failed
  refine ⟨by decide, created, failed, ?_⟩
  rintro ⟨free, used, done⟩
  rw [failed] at done
  cases done

end Heap

end Keystream
