import Keystream.Proofs.Heap.WellFormed
import Keystream.Proofs.Memory.Bytes
/-!
Well-formed memory: its heap is well-formed and takes the space up to the end. Every memory that can
be reached is well-formed, by whatever calls and whether they succeed or fail, if its heap was not
made to begin below it.
-/
namespace Keystream

namespace Heap

inductive Call where
  | allocate (align size : Int)
  | allocateBlocks (size : Int)
  | release (addr : Int)

def Call.perform : Call → Action Heap Unit
  | allocate align size => do let _ ← Action.step (·.allocate align size)
  | allocateBlocks size => do let _ ← Action.step (·.allocateBlocks size)
  | release addr => releaseAt addr

theorem keeps_allocate {h : Heap} (align size : Heap → Int) :
    Action.Keeps (fun g => g.WellFormed ∧ SameSpace h g)
      (Action.step fun g : Heap => g.allocate (align g) (size g)) :=
  Action.keeps_step fun _ _ _ w done =>
    let allocated := w.1.allocate done
    ⟨allocated.1, w.2.trans allocated.2.1⟩

theorem Call.perform_cases (call : Call) (h : Heap) :
    let g := (call.perform.effect h).2
    g = h ∨ (∃ align size addr, h.allocate align size = .ok (addr, g)) ∨
      ∃ addr, call = .release addr ∧ h.release addr = .ok g := by
  cases call with
  | allocate align size =>
    rw [perform, Action.effect_bind_pure, Action.effect_step]
    rcases allocated : h.allocate align size with e | ⟨addr, g⟩
    · exact .inl rfl
    · exact .inr (.inl ⟨align, size, addr, allocated⟩)
  | allocateBlocks size =>
    rw [perform, Action.effect_bind_pure, Action.effect_step]
    rcases allocated : h.allocateBlocks size with e | ⟨addr, g⟩
    · exact .inl rfl
    · exact .inr (.inl ⟨h.block, size, addr, allocated⟩)
  | release addr =>
    rw [perform, releaseAt, Action.effect_step]
    rcases released : h.release addr with e | g
    · exact .inl rfl
    · exact .inr (.inr ⟨addr, rfl, released⟩)

theorem keeps_perform {h : Heap} (call : Call) :
    Action.Keeps (fun g => g.WellFormed ∧ SameSpace h g) call.perform := by
  rintro g ⟨w, space⟩
  rcases call.perform_cases g with same | ⟨align, size, addr, lent⟩ | ⟨addr, _, released⟩
  · exact same.symm ▸ ⟨w, space⟩
  · obtain ⟨w', space', _⟩ := w.allocate lent
    exact ⟨w', space.trans space'⟩
  · obtain ⟨w', space', _⟩ := w.release released
    exact ⟨w', space.trans space'⟩

theorem keeps_live {entry : Int × Int} {call : Call} (other : call ≠ .release entry.1) :
    Action.Keeps (fun h => h.WellFormed ∧ entry ∈ h.sizes) call.perform := by
  rintro h ⟨w, live⟩
  rcases call.perform_cases h with same | ⟨align, size, addr, lent⟩ | ⟨addr, rfl, released⟩
  · exact same.symm ▸ ⟨w, live⟩
  · obtain ⟨w', _, lives, _⟩ := w.allocate lent
    exact ⟨w', (lives entry).2 (.inr live)⟩
  · obtain ⟨w', _, left⟩ := w.release released
    exact ⟨w', (left entry).2 ⟨live, fun same => other (same ▸ rfl)⟩⟩

end Heap

namespace Memory

open Keystream.Action

structure WellFormed (m : Memory) : Prop where
  heap : m.heap.WellFormed
  block : m.heap.block = 16
  low : m.base ≤ m.heap.start
  high : m.heap.stop = m.base + m.size

def onHeap (a : Action Heap α) : Action Memory α := fun m =>
  let done := a m.heap
  ⟨done.result, { m with heap := done.state }, done.printed⟩

/-- What can be asked of a memory, and of its heap. -/
inductive Call where
  | read (addr size : Int)
  | write (addr : Int) (s : Bytes)
  | readWord (addr : Int)
  | writeWord (addr v : Int)
  | readValue (addr : Int) (layout : Layout)
  | writeValue (addr : Int) (layout : Layout) (value : Value)
  | fill (addr value size : Int)
  | allocate (size align : Int)
  | release (addr : Int)
  | onHeap (call : Heap.Call)

def Call.perform [Machine] : Call → Action Memory Unit
  | read addr size => do let _ ← Memory.read addr size
  | write addr s => Memory.write addr s
  | readWord addr => do let _ ← Memory.readWord addr
  | writeWord addr v => Memory.writeWord addr v
  | readValue addr layout => do let _ ← Memory.readValue addr layout
  | writeValue addr layout value => Memory.writeValue addr layout value
  | fill addr value size => Memory.fill addr value size
  | allocate size align => do let _ ← Memory.allocate size align
  | release addr => Memory.release addr
  | onHeap call => Memory.onHeap call.perform

/-- The memories that calls lead to from a new one, be it that they succeed or fail. -/
inductive Reachable [Machine] : Memory → Prop
  | created {size base : Int} {heapStart : Option Int} {traced : Bool} {m : Memory}
      (above : base ≤ heapStart.getD base)
      (created : Memory.create size base heapStart traced = .ok m) : Reachable m
  | after {m : Memory} (call : Call) (before : Reachable m) :
      Reachable (call.perform.run m).state

/-- Whether memory lies where `m` does, with a heap in order over the same blocks. -/
structure Settled (m g : Memory) : Prop where
  heap : g.heap.WellFormed
  space : Heap.SameSpace m.heap g.heap
  base : g.base = m.base
  size : g.size = m.size

section

variable {m g h : Memory} {heap : Heap}

theorem Settled.refl (w : m.heap.WellFormed) : m.Settled m :=
  ⟨w, ⟨rfl, rfl, rfl⟩, rfl, rfl⟩

theorem Settled.trans (first : m.Settled g) (second : g.Settled h) : m.Settled h :=
  ⟨second.heap, first.space.trans second.space, second.base.trans first.base,
    second.size.trans first.size⟩

theorem Settled.of_sameSpace (s : m.Settled g) (wellFormed : heap.WellFormed)
    (same : Heap.SameSpace g.heap heap) : m.Settled { g with heap } :=
  ⟨wellFormed, s.space.trans same, s.base, s.size⟩

theorem Settled.of_changedOnly {may : Int → Prop} (s : m.Settled g) (only : ChangedOnly may g h) :
    m.Settled h :=
  ⟨only.heap ▸ s.heap, only.heap ▸ s.space, only.base.trans s.base, only.size.trans s.size⟩

theorem WellFormed.of_settled (w : m.WellFormed) (s : m.Settled g) : g.WellFormed := by
  refine ⟨s.heap, s.space.block.trans w.block, ?_, ?_⟩
  · rw [s.base, s.space.start]
    exact w.low
  · rw [s.base, s.size, s.space.stop]
    exact w.high

theorem WellFormed.of_sameSpace (w : m.WellFormed) (wellFormed : heap.WellFormed)
    (same : Heap.SameSpace m.heap heap) : WellFormed { m with heap } :=
  w.of_settled ((Settled.refl w.heap).of_sameSpace wellFormed same)

theorem WellFormed.written (w : m.WellFormed) (addr : Int) (s : Bytes) :
    (m.written addr s).WellFormed :=
  ⟨w.heap, w.block, w.low, by rw [heap_written, base_written, size_written, w.high]⟩

end

section

variable {machine : Machine}

theorem heap_of_create {size base : Int} {heapStart : Option Int} {traced : Bool} {m : Memory}
    (created : create size base heapStart traced = .ok m) :
    m.heap.WellFormed ∧ m.heap.block = 16 ∧ m.base = base ∧
      m.heap.start = heapStart.getD base ∧ m.heap.stop = m.base + m.size := by
  simp only [create, bind_eq_ok, check_eq_ok] at created
  obtain ⟨_, _, counted, heap, made, same⟩ := created
  cases same
  obtain ⟨wellFormed, start, block, stop⟩ := Heap.wellFormed_of_create (by decide) made
  refine ⟨wellFormed, block, rfl, start, ?_⟩
  show heap.stop = base + (Array.replicate size.toNat (0 : UInt8)).size
  rw [stop, Array.size_replicate]
  omega

theorem wellFormed_of_create {size base : Int} {heapStart : Option Int} {traced : Bool} {m : Memory}
    (above : base ≤ heapStart.getD base)
    (created : create size base heapStart traced = .ok m) : m.WellFormed := by
  obtain ⟨wellFormed, block, low, start, stop⟩ := heap_of_create created
  exact ⟨wellFormed, block, by rwa [low, start], stop⟩

/-- The addresses that a call may write. What an allocation writes was not live before. -/
def Call.Writes : Call → Int → Prop
  | write addr s, a => addr ≤ a ∧ a < addr + s.length
  | writeWord addr _, a => addr ≤ a ∧ a < addr + 4
  | writeValue addr layout value, a =>
    ∃ s, layout.write value = .ok s ∧ addr ≤ a ∧ a < addr + s.length
  | fill addr _ size, a => addr ≤ a ∧ a < addr + size
  | _, _ => False

def Call.Frees (addr : Int) (call : Call) : Prop :=
  call = release addr ∨ call = onHeap (.release addr)

theorem Call.perform_cases (call : Call) (m : Memory) :
    let g := (call.perform.effect m).2
    ChangedOnly call.Writes m g ∨ (∃ size align, call = allocate size align) ∨
      ∃ asked : Heap.Call, g = { m with heap := (asked.perform.effect m.heap).2 } ∧
        ∀ addr, asked = .release addr → call.Frees addr := by
  have changed {may : Int → Prop} {a : Action Memory Unit} (kept : Keeps (ChangedOnly may m) a) :
      ChangedOnly may m (a.effect m).2 := kept m (.refl ..)
  cases call with
  | read addr size =>
    exact .inl (changed ((keeps_changed_read addr size).bind fun _ => keeps_pure _))
  | write addr s => exact .inl (changedOnly_write (fun _ low high => ⟨low, high⟩) m)
  | readWord addr =>
    refine .inl (changed (((keeps_changed_aligned addr).bind fun _ =>
      (keeps_changed_read addr 4).bind fun s => ?_).bind fun _ => keeps_pure _))
    cases Word.unpack s with
    | nil => exact keeps_throw _
    | cons w ws => exact keeps_pure _
  | writeWord addr v =>
    exact .inl (changed ((keeps_changed_aligned addr).bind fun _ =>
      keeps_changed_write fun _ low high => ⟨low, high⟩))
  | readValue addr layout =>
    exact .inl (changed (((keeps_changed_read addr layout.size).bind fun _ =>
      keeps_liftM _).bind fun _ => keeps_pure _))
  | writeValue addr layout value =>
    exact .inl (changed (keeps_liftM_bind fun s laid =>
      keeps_changed_write fun _ low high => ⟨s, laid, low, high⟩))
  | fill addr value size =>
    exact .inl (changed (keeps_changed_fill fun _ low high => ⟨low, high⟩))
  | allocate size align => exact .inr (.inl ⟨size, align, rfl⟩)
  | release addr =>
    refine .inr (.inr ⟨.release addr, ?_, fun _ same => .inl ?_⟩)
    · rw [perform, Memory.release, Heap.Call.perform, Heap.releaseAt, effect_step, effect_step]
      cases m.heap.release addr <;> rfl
    · cases same
      rfl
  | onHeap asked => exact .inr (.inr ⟨asked, rfl, fun _ same => .inr (same ▸ rfl)⟩)

theorem allocate_of_error {m : Memory} {size align : Int} {e : Error}
    (failed : m.heap.allocate align size = .error e) :
    (allocate size align).effect m = (.error e, m) := by
  rw [allocate, effect_bind, effect_step, failed]
  rfl

theorem changedOnly_allocate {m : Memory} {size align addr : Int} {heap : Heap}
    (allocated : m.heap.allocate align size = .ok (addr, heap)) :
    ChangedOnly (fun _ => True) { m with heap } ((allocate size align).effect m).2 ∧
      ∀ a, ((allocate size align).effect m).1 = .ok a → a = addr := by
  have opened : (allocate size align).effect m =
      (fill addr 0 size >>= fun _ => Pure.pure addr).effect { m with heap } := by
    rw [allocate, effect_bind, effect_step, allocated]
    rfl
  have filled : Keeps (ChangedOnly (fun _ => True) { m with heap }) (fill addr 0 size) :=
    keeps_changed_fill fun _ _ _ => trivial
  rw [opened]
  refine ⟨(filled.bind fun _ => keeps_pure _) _ (.refl ..), fun a done => ?_⟩
  obtain ⟨_, _, _, same⟩ := effect_bind_eq_ok.1 (Prod.ext done rfl)
  cases same
  rfl

theorem keeps_settled_allocate {m : Memory} (size align : Int) :
    Keeps m.Settled (allocate size align) := by
  intro g s
  rcases allocated : g.heap.allocate align size with e | ⟨addr, heap⟩
  · rw [allocate_of_error allocated]
    exact s
  · obtain ⟨wellFormed, space, _⟩ := s.heap.allocate allocated
    exact (s.of_sameSpace wellFormed space).of_changedOnly (changedOnly_allocate allocated).1

/-- Whatever is asked of a memory, it lies where it did, and its heap stays in order. -/
theorem keeps_settled {m : Memory} (call : Call) : Keeps m.Settled call.perform := by
  intro g s
  rcases call.perform_cases g with changed | ⟨size, align, rfl⟩ | ⟨asked, led, _⟩
  · exact s.of_changedOnly changed
  · exact (keeps_settled_allocate size align).bind (fun _ => keeps_pure _) g s
  · obtain ⟨wellFormed, space⟩ :=
      Heap.keeps_perform (h := g.heap) asked g.heap ⟨s.heap, rfl, rfl, rfl⟩
    rw [led]
    exact s.of_sameSpace wellFormed space

theorem keeps_perform (call : Call) : Keeps WellFormed call.perform :=
  fun m w => w.of_settled (keeps_settled call m (.refl w.heap))

theorem Reachable.wellFormed {m : Memory} (r : Reachable m) : m.WellFormed := by
  induction r with
  | created above made => exact wellFormed_of_create above made
  | after call _ w => exact keeps_perform call _ w

/-- The memories that calls lead to from any new one, wherever its heap begins. -/
inductive Attained [Machine] : Memory → Prop
  | created {size base : Int} {heapStart : Option Int} {traced : Bool} {m : Memory}
      (created : Memory.create size base heapStart traced = .ok m) : Attained m
  | after {m : Memory} (call : Call) (before : Attained m) : Attained (call.perform.run m).state

theorem Attained.heap {m : Memory} (attained : Attained m) : m.heap.WellFormed := by
  induction attained with
  | created made => exact (heap_of_create made).1
  | @after m call _ w => exact (keeps_settled call m (.refl w)).heap

end

end Memory

end Keystream
