import Keystream.Proofs.Heap.Canonical
import Keystream.Proofs.Heap.Live
import Mathlib.Order.Bounds.Basic
/-!
First fit. An allocation takes the least address at which it fits, among all addresses of the heap,
and fails only where there is none. In a free run only the first aligned block need be tried; and a
place that ends beyond a free run is taken in part, because a used run or the end is behind it.
-/
namespace Keystream

namespace Run

open Heap

variable {block pos stop step want q : Int} {runs : List Run} {ledger : Ledger}

/-- Whether `want` blocks can begin at block `q`, a multiple of `step`, without one that is live. -/
structure Room (block pos stop : Int) (ledger : Ledger) (step want q : Int) : Prop where
  aligned : step ∣ q
  low : pos ≤ q
  high : q + want ≤ stop
  clear : ∀ entry ∈ ledger,
    block * (q + want) ≤ entry.1 ∨ entry.1 + block * blocksFor block entry.2 ≤ block * q

theorem isLeast_multiple (some : 0 < step) (pos : Int) :
    IsLeast {q | step ∣ q ∧ pos ≤ q} (pos + (-pos).fmod step) := by
  have parts := Int.mul_fdiv_add_fmod (-pos) step
  have low := Int.fmod_nonneg_of_pos (-pos) some
  have high := Int.fmod_lt_of_pos (-pos) some
  have multiple : pos + (-pos).fmod step = step * -(-pos).fdiv step := by linarith
  refine ⟨⟨⟨_, multiple⟩, by omega⟩, ?_⟩
  rintro _ ⟨⟨k, rfl⟩, behind⟩
  have near : step * -(-pos).fdiv step < step * (k + 1) := by
    rw [← multiple, mul_add]
    omega
  have first := Int.lt_add_one_iff.1 (lt_of_mul_lt_mul_left near some.le)
  rw [multiple]
  exact mul_le_mul_of_nonneg_left first some.le

theorem room_used_iff (positive : 0 < block) (some : 0 < want) {size : Int} :
    Room block pos stop ((block * pos, size) :: ledger) step want q ↔
      Room block (pos + blocksFor block size) stop ledger step want q := by
  have filled := blocksFor_pos block size
  constructor
  · rintro ⟨aligned, low, high, clear⟩
    obtain ⟨first, clear⟩ := List.forall_mem_cons.1 clear
    refine ⟨aligned, ?_, high, clear⟩
    rcases first with before | behind
    · have := le_of_mul_le_mul_left before positive
      omega
    · rw [← mul_add] at behind
      exact le_of_mul_le_mul_left behind positive
  · rintro ⟨aligned, low, high, clear⟩
    refine ⟨aligned, by omega, high, List.forall_mem_cons.2 ⟨.inr ?_, clear⟩⟩
    rw [← mul_add]
    exact mul_le_mul_of_nonneg_left low positive.le

theorem room_free_iff {n : Int} (positive : 0 < block) (some : 0 < step)
    (filled : 0 < n) (next : ∀ run ∈ runs.head?, run.used = true)
    (rest : Tracked block (pos + n) stop runs ledger) (short : n < want + (-pos).fmod step) :
    Room block pos stop ledger step want q ↔ Room block (pos + n) stop ledger step want q := by
  constructor
  · rintro ⟨aligned, low, high, clear⟩
    refine ⟨aligned, ?_, high, clear⟩
    have first := (isLeast_multiple some pos).2 ⟨aligned, low⟩
    by_contra inside
    cases rest with
    | nil => omega
    | free => cases next _ rfl
    | @used _ _ size =>
      have := blocksFor_pos block size
      have taken : block * (q + want) ≤ block * (pos + n) ∨
          block * (pos + n) + block * blocksFor block size ≤ block * q :=
        clear _ List.mem_cons_self
      rcases taken with before | behind
      · have := le_of_mul_le_mul_left before positive
        omega
      · rw [← mul_add] at behind
        have := le_of_mul_le_mul_left behind positive
        omega
  · rintro ⟨aligned, low, high, clear⟩
    exact ⟨aligned, by omega, high, clear⟩

theorem isLeast_room_of_free {n : Int} (positive : 0 < block) (some : 0 < step)
    (rest : Tracked block (pos + n) stop runs ledger) (fits : want + (-pos).fmod step ≤ n) :
    IsLeast {q | Room block pos stop ledger step want q} (pos + (-pos).fmod step) := by
  obtain ⟨⟨aligned, low⟩, least⟩ := isLeast_multiple some pos
  refine ⟨⟨aligned, low, ?_, fun entry member => .inl ?_⟩, fun q room => ?_⟩
  · have := rest.le
    omega
  · refine le_trans (mul_le_mul_of_nonneg_left ?_ positive.le) (rest.bounds positive member).1
    omega
  · exact least ⟨room.aligned, room.low⟩

/-- A search along a row ends at the least place, and finds none only if there is none. -/
theorem Tracked.place_cases (t : Tracked block pos stop runs ledger) (positive : 0 < block)
    (stepped : 0 < step) (wanted : 0 < want) :
    (∃ found runs', Run.place step want pos runs = some (found, runs') ∧
      IsLeast {q | Room block pos stop ledger step want q} found) ∨
    (Run.place step want pos runs = none ∧ ∀ q, ¬Room block pos stop ledger step want q) := by
  induction t with
  | nil pos =>
    refine .inr ⟨rfl, fun q room => ?_⟩
    have := room.low
    have := room.high
    omega
  | @free pos stop n runs ledger filled next rest ih =>
    simp only [Run.place, Bool.not_false, Bool.true_and, decide_eq_true_eq]
    split
    · next fits => exact .inl ⟨_, _, rfl, isLeast_room_of_free positive stepped rest fits⟩
    · next short =>
      have same (q : Int) := room_free_iff (q := q) positive stepped filled next rest
        (Int.not_le.1 short)
      simp only [same]
      rcases ih with ⟨found, runs', placed, least⟩ | ⟨none, full⟩
      · exact .inl ⟨found, _, by rw [placed]; rfl, least⟩
      · exact .inr ⟨by rw [none]; rfl, full⟩
  | @used pos stop size runs ledger rest ih =>
    simp only [Run.place, Bool.not_true, Bool.false_and, Bool.false_eq_true, if_false,
      room_used_iff positive wanted]
    rcases ih with ⟨found, runs', placed, least⟩ | ⟨none, full⟩
    · exact .inl ⟨found, _, by rw [placed]; rfl, least⟩
    · exact .inr ⟨by rw [none]; rfl, full⟩

end Run

namespace Heap

open Keystream.Action

variable {h g : Heap}

/-- Whether `want` blocks can begin at `addr`, a multiple of `align`: all of them lie in the heap,
and none is part of a live allocation. -/
structure Fits (h : Heap) (align want addr : Int) : Prop where
  aligned : align ∣ addr
  low : h.start ≤ addr
  high : addr + h.block * want ≤ h.stop
  clear : ∀ i, 0 ≤ i → i < want → ∀ first blocks size, h.Live first blocks size →
    ¬(first ≤ addr + h.block * i ∧ addr + h.block * i < first + h.block * blocks)

theorem apart_iff {block want q k n : Int} (positive : 0 < block) (wanted : 0 < want)
    (filled : 0 < n) :
    (∀ i, 0 ≤ i → i < want →
      ¬(block * k ≤ block * q + block * i ∧ block * q + block * i < block * k + block * n)) ↔
      block * (q + want) ≤ block * k ∨ block * k + block * n ≤ block * q := by
  simp only [← mul_add, mul_le_mul_iff_right₀ positive, mul_lt_mul_iff_right₀ positive]
  constructor
  · intro clear
    by_contra overlaps
    exact clear (max 0 (k - q)) (by omega) (by omega) (by omega)
  · intro apart i low high
    omega

theorem WellFormed.fits_iff {step want addr : Int} (w : h.WellFormed) (wanted : 0 < want) :
    h.Fits (h.block * step) want addr ↔ ∃ q, addr = h.block * q ∧
      Run.Room h.block h.first (h.first + h.count) h.sizes step want q := by
  have stops : h.stop = h.block * (h.first + h.count) := by rw [mul_add, w.aligned, stop]
  have inside (q : Int) : (h.start ≤ h.block * q ∧ h.block * q + h.block * want ≤ h.stop) ↔
      h.first ≤ q ∧ q + want ≤ h.first + h.count := by
    rw [stops, ← w.aligned, ← mul_add, mul_le_mul_iff_right₀ w.positive,
      mul_le_mul_iff_right₀ w.positive]
  have apart (q first size : Int) (live : (first, size) ∈ h.sizes) :
      (∀ i, 0 ≤ i → i < want → ¬(first ≤ h.block * q + h.block * i ∧
        h.block * q + h.block * i < first + h.block * blocksFor h.block size)) ↔
      h.block * (q + want) ≤ first ∨ first + h.block * blocksFor h.block size ≤ h.block * q := by
    obtain ⟨k, rfl⟩ := w.tracked.exists_block live
    exact apart_iff w.positive wanted (blocksFor_pos ..)
  constructor
  · rintro ⟨⟨k, rfl⟩, low, high, clear⟩
    rw [mul_assoc] at low high clear
    obtain ⟨low, high⟩ := (inside _).1 ⟨low, high⟩
    refine ⟨step * k, mul_assoc .., dvd_mul_right .., low, high, fun entry live => ?_⟩
    exact (apart _ entry.1 entry.2 live).1 fun i least most =>
      clear i least most entry.1 _ entry.2 (w.live_iff.2 ⟨live, rfl⟩)
  · rintro ⟨q, rfl, aligned, low, high, clear⟩
    obtain ⟨low, high⟩ := (inside q).2 ⟨low, high⟩
    refine ⟨mul_dvd_mul_left _ aligned, low, high, fun i least most first blocks size live => ?_⟩
    obtain ⟨member, rfl⟩ := w.live_iff.1 live
    exact (apart q first size member).2 (clear _ member) i least most

theorem isAlignment_iff (align : Int) :
    isAlignment align = true ↔ align = 0 ∨ ∃ k : ℕ, align = 2 ^ k := by
  simp only [isAlignment, Bool.and_eq_true, decide_eq_true_eq, beq_iff_eq]
  constructor
  · rintro ⟨low, bits⟩
    obtain ⟨n, rfl⟩ := Int.eq_ofNat_of_zero_le low
    rcases Nat.eq_zero_or_pos n with rfl | some
    · exact .inl rfl
    · obtain ⟨k, power⟩ := (Nat.and_sub_one_eq_zero_iff_isPowerOfTwo some.ne').1 bits
      exact .inr ⟨k, by exact_mod_cast power⟩
  · rintro (rfl | ⟨k, rfl⟩)
    · exact ⟨le_refl _, rfl⟩
    · refine ⟨by positivity, ?_⟩
      have same : ((2 : Int) ^ k).toNat = 2 ^ k := by
        rw [Int.toNat_pow_of_nonneg (by decide)]
        rfl
      rw [same]
      exact (Nat.and_sub_one_eq_zero_iff_isPowerOfTwo (by positivity)).2 ⟨k, rfl⟩

theorem mul_fdiv_max_of_power {align block : Int} {k : ℕ} (power : block = 2 ^ k)
    (aligned : isAlignment align = true) :
    block * (max align block).fdiv block = max align block := by
  apply mul_fdiv_of_fmod_eq_zero
  have positive : 0 < block := by rw [power]; positivity
  rcases (isAlignment_iff align).1 aligned with rfl | ⟨j, rfl⟩
  · rw [max_eq_right positive.le, Int.fmod_self]
  · rcases le_total j k with below | above
    · rw [power, max_eq_right (pow_le_pow_right₀ (by decide) below), Int.fmod_self]
    · rw [power, max_eq_left (pow_le_pow_right₀ (by decide) above)]
      exact Int.fmod_eq_zero_of_dvd (pow_dvd_pow 2 above)

theorem allocate_of_not_alignment {align : Int} (bad : ¬isAlignment align = true) (h : Heap)
    (size : Int) : h.allocate align size = .error (.notPowerOfTwo align) := by
  rw [allocate, Bool.eq_false_of_not_eq_true bad]
  rfl

theorem allocate_of_alignment {align step : Int} (aligned : isAlignment align = true)
    (stepped : 0 < step) (steps : (max align h.block).fdiv h.block = step) (size : Int) :
    h.allocate align size =
      match Run.place step (blocksFor h.block size) h.first h.runs with
      | none => .error .heapExhausted
      | some (pos, runs) =>
        .ok (h.block * pos, { h with runs, sizes := h.sizes.enter (h.block * pos) size }) := by
  have moves : ¬(step = 0 ∧ h.runs.any (!·.used)) := fun both => stepped.ne' both.1
  simp only [allocate, aligned, Bool.not_true, Bool.false_eq_true, if_false, steps, if_neg moves]
  rfl

theorem WellFormed.allocate_cases {align : Int} {k : ℕ} (w : h.WellFormed)
    (power : h.block = 2 ^ k) (aligned : isAlignment align = true) (size : Int) :
    let fitting := {a | h.Fits (max align h.block) (blocksFor h.block size) a}
    (∃ addr g, h.allocate align size = .ok (addr, g) ∧ IsLeast fitting addr) ∨
      (h.allocate align size = .error .heapExhausted ∧ ∀ a, a ∉ fitting) := by
  intro fitting
  obtain ⟨step, steps⟩ : ∃ step, (max align h.block).fdiv h.block = step := ⟨_, rfl⟩
  have whole : h.block * step = max align h.block :=
    steps ▸ mul_fdiv_max_of_power power aligned
  have stepped : 0 < step := by
    apply (mul_pos_iff_of_pos_left w.positive).1
    rw [whole]
    exact w.positive.trans_le (le_max_right ..)
  have wanted := blocksFor_pos h.block size
  have fits (a : Int) : a ∈ fitting ↔ ∃ q, a = h.block * q ∧
      Run.Room h.block h.first (h.first + h.count) h.sizes step (blocksFor h.block size) q := by
    rw [← w.fits_iff wanted, whole]
    rfl
  rw [allocate_of_alignment aligned stepped steps]
  rcases w.tracked.place_cases w.positive stepped wanted with
    ⟨found, runs, placed, room, least⟩ | ⟨none, full⟩
  · rw [placed]
    refine .inl ⟨_, _, rfl, (fits _).2 ⟨found, rfl, room⟩, fun a fit => ?_⟩
    obtain ⟨q, rfl, other⟩ := (fits a).1 fit
    exact mul_le_mul_of_nonneg_left (least other) w.positive.le
  · rw [none]
    refine .inr ⟨rfl, fun a fit => ?_⟩
    obtain ⟨q, _, room⟩ := (fits a).1 fit
    exact full q room

/-- An allocation begins at the least address where it fits, and becomes live with the blocks that
its size takes; it fails only if it fits nowhere, or if its alignment is no power of two, and then
changes nothing. -/
theorem allocate_takes_first_fit {start stop : Int} {k : ℕ}
    (created : create start stop (2 ^ k) = .ok h) (history : History) (align size : Int) :
    let g := history.leaves h
    let allocation : Action Heap Int := .step (·.allocate align size)
    let want := wholeBlocks (2 ^ k) size
    g.start = start ∧ g.stop = stop ∧ g.block = 2 ^ k ∧
    ((align = 0 ∨ ∃ j : ℕ, align = 2 ^ j) →
      (∃ addr f, allocation.effect g = (.ok addr, f) ∧
        IsLeast {a | g.Fits (max align (2 ^ k)) want a} addr ∧
        ∀ a n s, f.Live a n s ↔ g.Live a n s ∨ (a, n, s) = (addr, want, size)) ∨
      (allocation.effect g = (.error .heapExhausted, g) ∧
        ∀ a, ¬g.Fits (max align (2 ^ k)) want a)) ∧
    (¬(align = 0 ∨ ∃ j : ℕ, align = 2 ^ j) →
      allocation.effect g = (.error (.notPowerOfTwo align), g)) := by
  intro g allocation want
  obtain ⟨new, starts, blocks, stops⟩ := wellFormed_of_create (by positivity) created
  obtain ⟨w, space⟩ := new.leaves history
  have power : g.block = 2 ^ k := space.block.trans blocks
  have wanted : blocksFor g.block size = want := by
    rw [blocksFor_eq_wholeBlocks w.positive, power]
  have effect : allocation.effect g = _ := effect_step ..
  refine ⟨space.start.trans starts, space.stop.trans stops, power, fun aligned => ?_,
    fun unaligned => ?_⟩
  · have cases := w.allocate_cases power ((isAlignment_iff align).2 aligned) size
    rw [wanted, power] at cases
    rcases cases with ⟨addr, f, allocated, least⟩ | ⟨failed, full⟩
    · rw [allocated] at effect
      refine .inl ⟨addr, f, effect, least, fun a n s => ?_⟩
      rw [w.live_allocate allocated, wanted]
    · rw [failed] at effect
      exact .inr ⟨effect, full⟩
  · rw [allocate_of_not_alignment (mt (isAlignment_iff align).1 unaligned)] at effect
    exact effect

/-- Three blocks among addresses below zero: the free run at -48 is entered behind padding. -/
theorem allocate_takes_first_fit_behind_padding :
    let h : Heap := ⟨-80, 16, 8, [⟨8, false⟩], []⟩
    let history : History := .call (.allocateBlocks 1) <| .call (.allocateBlocks 9) .done
    let g := history.leaves h
    create (-80) 48 (2 ^ 4) = .ok h ∧ g.runs = [⟨1, true⟩, ⟨1, true⟩, ⟨6, false⟩] ∧
      ((Action.step (·.allocate 32 40)).effect g).1 = .ok (-32) ∧
      IsLeast {a | g.Fits (max 32 (2 ^ 4)) (wholeBlocks (2 ^ 4) 40) a} (-32) := by
  intro h history g
  have created : create (-80) 48 (2 ^ 4) = .ok h := rfl
  obtain ⟨_, _, _, found, _⟩ := allocate_takes_first_fit created history 32 40
  have result : ((Action.step (·.allocate 32 40)).effect g).1 = .ok (-32) := by decide +kernel
  refine ⟨created, by decide +kernel, result, ?_⟩
  rcases found (.inr ⟨5, rfl⟩) with ⟨addr, f, effect, least, _⟩ | ⟨failed, _⟩
  · rw [effect] at result
    cases result
    exact least
  · rw [failed] at result
    cases result

end Heap

end Keystream
