import Keystream.Proofs.Heap.FirstFit
import Keystream.Proofs.Memory.Isolation
/-!
Allocations in memories of every shape. The heap lends a block before it is known whether the block
can be blanked; where it cannot, because it lies below memory or for what its size is, the block
stays lent and nobody is told where.
-/
namespace Keystream

theorem Heap.exists_allocate_of_create {start stop : Int} {h : Heap} {k : ℕ}
    (created : create start stop (2 ^ k) = .ok h) :
    ∃ g, h.allocate (2 ^ k) 0 = .ok (start, g) := by
  have positive : (0 : Int) < 2 ^ k := by positivity
  obtain ⟨w, starts, blocks, stops⟩ := wellFormed_of_create positive created
  simp only [create, Keystream.check_eq_ok] at created
  obtain ⟨_, aligned, _, proper, same⟩ := created
  have nothing : h.sizes = [] := by cases same; rfl
  have want : blocksFor h.block 0 = 1 := by
    have none : (0 + 2 ^ k - 1 : Int).fdiv (2 ^ k) = 0 :=
      Int.fdiv_eq_zero_of_lt (by omega) (by omega)
    rw [blocksFor, blocks, none]
    rfl
  have some : 0 < h.count := by
    apply (mul_pos_iff_of_pos_left positive).1
    have whole : h.stop = h.start + h.block * h.count := rfl
    rw [blocks] at whole
    omega
  have fits : h.Fits (max (2 ^ k) h.block) (blocksFor h.block 0) start := by
    refine ⟨?_, starts.le, ?_, fun _ _ _ _ _ _ live => ?_⟩
    · rw [blocks, max_self]
      exact Int.dvd_of_fmod_eq_zero (not_not.1 aligned)
    · rw [want, ← starts]
      exact add_le_add_right (mul_le_mul_of_nonneg_left some w.positive.le) _
    · have member := (w.live_iff.1 live).1
      rw [nothing] at member
      cases member
  rcases w.allocate_cases blocks ((isAlignment_iff _).2 (.inr ⟨k, rfl⟩)) 0 with
    ⟨addr, g, allocated, lies, least⟩ | ⟨_, full⟩
  · have first : addr = start := le_antisymm (least fits) (starts ▸ lies.low)
    exact ⟨g, first ▸ allocated⟩
  · exact absurd fits (full start)

namespace Memory

open Keystream.Action

/-- Whether an allocation gives a blank buffer inside memory, or fails and changes nothing. -/
def AllOrNothing [Machine] (size align : Int) (m : Memory) : Prop :=
  (∃ addr g, (allocate size align).effect m = (.ok addr, g) ∧
    m.base ≤ addr ∧ addr < m.base + m.size ∧ addr + size ≤ m.base + m.size ∧
    g.stretch addr size.toNat = List.replicate size.toNat 0) ∨
  ∃ e, (allocate size align).effect m = (.error e, m)

/-- Whether the heap is in order and ends where memory does, wherever it begins. -/
structure Capped [Machine] (m : Memory) : Prop where
  heap : m.heap.WellFormed
  high : m.heap.stop = m.base + m.size
  small : m.size < Machine.room

section

variable {machine : Machine} {m g : Memory} {heap : Heap} {addr size align : Int}

theorem create_eq_ok {base : Int} {heapStart : Option Int} {traced : Bool}
    (created : create size base heapStart traced = .ok m) :
    Heap.create (heapStart.getD base) (base + size) 16 = .ok m.heap ∧ m.base = base ∧
      m.size = size ∧ size < Machine.room := by
  simp only [create, bind_eq_ok, Keystream.check_eq_ok] at created
  obtain ⟨_, counted, some, heap, made, same⟩ := created
  cases same
  refine ⟨made, rfl, ?_, (Machine.checkRoom_eq_ok_iff.1 counted).2⟩
  rw [Memory.size, Array.size_replicate]
  omega

theorem capped_of_create {base : Int} {heapStart : Option Int} {traced : Bool}
    (created : create size base heapStart traced = .ok m) : m.Capped := by
  obtain ⟨heap, _, _, _, high⟩ := heap_of_create created
  obtain ⟨_, _, length, small⟩ := create_eq_ok created
  exact ⟨heap, high, length.symm ▸ small⟩

theorem Capped.of_settled (c : m.Capped) (s : m.Settled g) : g.Capped where
  heap := s.heap
  high := by rw [s.space.stop, s.base, s.size, c.high]
  small := s.size.symm ▸ c.small

theorem settled_after (w : m.heap.WellFormed) (calls : List Call) :
    m.Settled (after (calls.map Call.perform) m) := by
  refine Keeps.after ?_ m (.refl w)
  simp only [List.forall_mem_map]
  exact fun call _ => keeps_settled call

theorem Capped.bounds (c : m.Capped) (allocated : m.heap.allocate align size = .ok (addr, heap)) :
    m.heap.start ≤ addr ∧ addr < m.base + m.size ∧ addr + size ≤ m.base + m.size := by
  obtain ⟨w, space, live, _⟩ := c.heap.allocate allocated
  obtain ⟨low, high⟩ := w.bounds ((live _).2 (.inl rfl))
  have some := mul_pos w.positive (Heap.blocksFor_pos heap.block size)
  have fits := Heap.le_mul_blocksFor w.positive size
  rw [space.start] at low
  rw [space.stop, c.high] at high
  simp only at low high
  omega

theorem Capped.holds (c : m.Capped) (allocated : m.heap.allocate align size = .ok (addr, heap))
    (inside : m.base ≤ addr) : m.Holds addr size.toNat := by
  obtain ⟨_, first, last⟩ := c.bounds allocated
  constructor <;> omega

theorem effect_allocate_of_ok (allocated : m.heap.allocate align size = .ok (addr, heap)) :
    (allocate size align).effect m =
      (((fill addr 0 size).effect { m with heap }).1.map fun _ => addr,
        ((fill addr 0 size).effect { m with heap }).2) := by
  rw [allocate, effect_bind, effect_step, allocated]
  exact effect_bind_pure (fill addr 0 size) (fun _ => addr) _

theorem Capped.effect_allocate_inside (c : m.Capped)
    (allocated : m.heap.allocate align size = .ok (addr, heap)) (inside : m.base ≤ addr)
    (counted : -Machine.limit ≤ size) :
    (allocate size align).effect m =
      (.ok addr, Memory.written { m with heap } addr (List.replicate size.toNat 0)) := by
  have holds : Memory.Holds { m with heap } addr size.toNat := c.holds allocated inside
  have small : size < Machine.room := by
    have := c.bounds allocated
    have := c.small
    omega
  rw [effect_allocate_of_ok allocated, effect_fill holds,
    Machine.checkRoom_eq_ok_iff.2 ⟨counted, small⟩]
  rfl

theorem effect_fill_of_lt (value : Int) (outside : addr < m.base ∨ size < -Machine.limit) :
    ∃ e, (fill addr value size).effect m = (.error e, m) ∧
      (-Machine.limit ≤ size → size < Machine.room →
        e = .outside addr (max size 0) m.base (m.base + m.size)) := by
  rcases counted : Machine.checkRoom size with e | _
  · refine ⟨e, ?_, fun low high => ?_⟩
    · rw [fill, effect_bind, effect_liftM, counted]
    · rw [Machine.checkRoom_eq_ok_iff.2 ⟨low, high⟩] at counted
      cases counted
  · obtain ⟨low, _⟩ := Machine.checkRoom_eq_ok_iff.1 counted
    have below : addr < m.base := outside.resolve_right (by omega)
    refine ⟨_, ?_, fun _ _ => rfl⟩
    have refused : m.offset addr (max size 0) =
        .error (.outside addr (max size 0) m.base (m.base + m.size)) := if_pos (.inl below)
    simp only [fill, effect_bind, effect_liftM, effect_get, counted, refused]

/-- A block that begins below memory cannot be blanked, nor one whose size is no number of bytes:
the allocation fails, and the block stays lent. -/
theorem exists_effect_allocate_outside
    (allocated : m.heap.allocate align size = .ok (addr, heap))
    (outside : addr < m.base ∨ size < -Machine.limit) :
    ∃ e, (allocate size align).effect m = (.error e, { m with heap }) ∧
      (-Machine.limit ≤ size → size < Machine.room →
        e = .outside addr (max size 0) m.base (m.base + m.size)) := by
  obtain ⟨e, failed, cause⟩ := effect_fill_of_lt (m := { m with heap }) 0 outside
  refine ⟨e, ?_, cause⟩
  rw [effect_allocate_of_ok allocated, failed]
  rfl

theorem Capped.not_mem (c : m.Capped)
    (allocated : m.heap.allocate align size = .ok (addr, heap)) :
    (addr, size) ∈ heap.sizes ∧ (addr, size) ∉ m.heap.sizes := by
  obtain ⟨_, _, live, apart⟩ := c.heap.allocate allocated
  exact ⟨(live _).2 (.inl rfl), fun old => (apart _ old).ne c.heap.positive rfl⟩

theorem Capped.allOrNothing_iff (c : m.Capped) :
    AllOrNothing size align m ↔ ∀ addr heap, m.heap.allocate align size = .ok (addr, heap) →
      m.base ≤ addr ∧ -Machine.limit ≤ size := by
  constructor
  · intro whole addr heap allocated
    by_contra outside
    obtain ⟨e, failed, _⟩ := exists_effect_allocate_outside allocated (by omega)
    rcases whole with ⟨_, _, done, _⟩ | ⟨_, unchanged⟩
    · rw [failed] at done
      cases done
    · rw [failed] at unchanged
      have same : heap = m.heap := congrArg Memory.heap (Prod.mk.inj unchanged).2
      obtain ⟨lent, fresh⟩ := c.not_mem allocated
      exact fresh (same ▸ lent)
  · intro inside
    rcases allocated : m.heap.allocate align size with e | ⟨addr, heap⟩
    · exact .inr ⟨e, allocate_of_error allocated⟩
    · obtain ⟨low, counted⟩ := inside addr heap allocated
      obtain ⟨_, first, last⟩ := c.bounds allocated
      have holds :
          Memory.Holds { m with heap } addr (List.replicate size.toNat (0 : UInt8)).length := by
        rw [List.length_replicate]
        exact c.holds allocated low
      have blank := stretch_written_self holds
      rw [List.length_replicate] at blank
      exact .inl ⟨addr, _, c.effect_allocate_inside allocated low counted, low, first, last, blank⟩

/-- Of memories of every shape, whatever calls they have seen: an allocation gives a blank buffer
inside, or fails and changes nothing, except where the heap finds a place that begins below memory,
or the size is further below zero than a machine counts. There it fails with the block lent. So for
sizes that a machine counts it is all or nothing in exactly the memories whose heap does not begin
below them. -/
theorem allocate_strands_what_lies_below {size base : Int} {heapStart : Option Int} {traced : Bool}
    (created : create size base heapStart traced = .ok m) :
    (∀ (calls : List Call) (n align : Int),
      let g := after (calls.map Call.perform) m
      g.base = base ∧ g.size = size ∧
      (AllOrNothing n align g ↔ ∀ addr heap, g.heap.allocate align n = .ok (addr, heap) →
        base ≤ addr ∧ -Machine.limit ≤ n) ∧
      ∀ addr heap, g.heap.allocate align n = .ok (addr, heap) →
        addr < base ∨ n < -Machine.limit →
        (addr, n) ∈ heap.sizes ∧ (addr, n) ∉ g.heap.sizes ∧
        ∃ e, (allocate n align).effect g = (.error e, { g with heap }) ∧
          (-Machine.limit ≤ n → n < Machine.room →
            e = .outside addr (max n 0) base (base + size))) ∧
    (base ≤ heapStart.getD base ↔ ∀ (calls : List Call) (n align : Int), -Machine.limit ≤ n →
      AllOrNothing n align (after (calls.map Call.perform) m)) := by
  have new := capped_of_create created
  obtain ⟨_, _, _, start, _⟩ := heap_of_create created
  obtain ⟨made, rfl, rfl, _⟩ := create_eq_ok created
  have reached (calls : List Call) : m.Settled (after (calls.map Call.perform) m) :=
    settled_after new.heap calls
  refine ⟨fun calls n align => ?_, fun above calls n align counted => ?_, fun whole => ?_⟩
  · have s := reached calls
    have c := new.of_settled s
    refine ⟨s.base, congrArg Nat.cast s.size, s.base ▸ c.allOrNothing_iff,
      fun addr heap allocated outside => ?_⟩
    obtain ⟨lent, fresh⟩ := c.not_mem allocated
    obtain ⟨e, failed, cause⟩ := exists_effect_allocate_outside allocated (s.base.symm ▸ outside)
    rw [s.base, s.size] at cause
    exact ⟨lent, fresh, e, failed, cause⟩
  · have s := reached calls
    have c := new.of_settled s
    refine c.allOrNothing_iff.2 fun addr heap allocated => ⟨?_, counted⟩
    have low := (c.bounds allocated).1
    rw [s.space.start, start] at low
    rw [s.base]
    exact above.trans low
  · obtain ⟨heap, allocated⟩ := Heap.exists_allocate_of_create (k := 4) made
    exact (new.allOrNothing_iff.1 (whole [] 0 16 (by decide)) _ heap allocated).1

end

/-- A heap that begins 256 bytes below its memory, and has lent a block there. What follows that
block is stranded like it; what is asked for at a multiple of 4096 lies inside. -/
theorem allocate_strands_what_lies_below_by_a_page :
    let m : Memory := ⟨0x1000, .replicate 256 0, ⟨0xf00, 16, 32, [⟨32, false⟩], []⟩, false⟩
    let calls : List Call := [.allocate 64 4]
    let g := after (calls.map Call.perform) m
    create 256 0x1000 (some 0xf00) false = .ok m ∧ g.heap.sizes = [(0xf00, 64)] ∧
      (∃ heap, (allocate 192 4).effect g =
          (.error (.outside 0xf40 192 0x1000 0x1100), { g with heap }) ∧
        (0xf40, 192) ∈ heap.sizes) ∧
      AllOrNothing 16 0x1000 g ∧ ¬∀ n : Int, -Machine.limit ≤ n → AllOrNothing n 4 g := by
  intro m calls g
  have created : create 256 0x1000 (some 0xf00) false = .ok m := rfl
  have stranded : g.heap.sizes = [(0xf00, 64)] := by decide +kernel
  have behind : (g.heap.allocate 4 192).map Prod.fst = .ok 0xf40 := by decide +kernel
  have inside : (g.heap.allocate 0x1000 16).map Prod.fst = .ok 0x1000 := by decide +kernel
  obtain ⟨after, _⟩ := allocate_strands_what_lies_below created
  obtain ⟨_, _, refused, strands⟩ := after calls 192 4
  obtain ⟨_, _, whole, _⟩ := after calls 16 0x1000
  rcases allocated : g.heap.allocate 4 192 with e | ⟨addr, heap⟩
  · rw [allocated] at behind
    cases behind
  · rw [allocated] at behind
    cases behind
    obtain ⟨lent, _, e, failed, cause⟩ := strands _ _ allocated (.inl (by decide))
    cases cause (by decide) (by decide)
    refine ⟨created, stranded, ⟨heap, failed, lent⟩, whole.2 fun addr heap allocated => ?_,
      fun every => ?_⟩
    · rw [allocated] at inside
      cases inside
      decide
    · exact absurd (refused.1 (every 192 (by decide)) _ _ allocated).1 (by decide)

end Memory

end Keystream
