import Keystream.Proofs.Machine
import Keystream.Proofs.Memory.Reachable
/-!
Isolation of buffers: what is allocated lies inside memory and apart from all that is live, and is
blank. So the bytes of what is live change by writes to them and by nothing else.
-/
namespace Keystream

theorem Heap.max_le_mul_blocksFor {block : Int} (positive : 0 < block) (size : Int) :
    max size 0 ≤ block * blocksFor block size :=
  max_le (le_mul_blocksFor positive size) (mul_pos positive (blocksFor_pos block size)).le

theorem Heap.Apart.clear_max {block : Int} {a b : Int × Int} (h : Apart block a b)
    (positive : 0 < block) : a.1 + max a.2 0 ≤ b.1 ∨ b.1 + max b.2 0 ≤ a.1 := by
  have first := max_le_mul_blocksFor positive a.2
  have second := max_le_mul_blocksFor positive b.2
  rcases h with before | behind
  · exact .inl (by omega)
  · exact .inr (by omega)

theorem Heap.kind_of_allocate {h : Heap} {align size : Int} {e : Error}
    (failed : h.allocate align size = .error e) : e.kind ≠ .index := by
  simp only [allocate, check_eq_error] at failed
  obtain ⟨_, rfl⟩ | ⟨_, ⟨_, rfl⟩ | ⟨_, failed⟩⟩ := failed
  · show Kind.value ≠ .index
    decide
  · decide
  · split at failed
    · cases failed
      decide
    · cases failed

namespace Memory

open Keystream.Action

section

variable {machine : Machine} {m g : Memory} {addr size : Int}

theorem WellFormed.holds (w : m.WellFormed) (live : (addr, size) ∈ m.heap.sizes) :
    m.Holds addr size.toNat := by
  obtain ⟨low, high⟩ := w.heap.bounds live
  have fits := Heap.le_mul_blocksFor w.heap.positive size
  have some := mul_pos w.heap.positive (Heap.blocksFor_pos m.heap.block size)
  have := w.low
  have := w.high
  constructor <;> simp only at low high <;> omega

theorem WellFormed.holds_allocated {align : Int} {heap : Heap} (w : m.WellFormed)
    (allocated : m.heap.allocate align size = .ok (addr, heap)) : m.Holds addr size.toNat :=
  have ⟨wellFormed, space, live, _⟩ := w.heap.allocate allocated
  (w.of_sameSpace wellFormed space).holds ((live _).2 (.inl rfl))

theorem effect_fill (inside : m.Holds addr size.toNat) (value : Int) :
    (fill addr value size).effect m =
      match Machine.checkRoom size with
      | .ok _ => (.ok (), m.written addr (List.replicate size.toNat (.ofNat (value % 256).toNat)))
      | .error e => (.error e, m) := by
  have same : max size 0 = size.toNat := by omega
  rcases counted : Machine.checkRoom size with e | done
  · rw [fill, effect_bind, effect_liftM, counted]
  · simp only [fill, effect_bind, effect_liftM, effect_get, counted, same, offset_of_holds inside]
    exact effect_write_of_holds (by rwa [List.length_replicate])

theorem effect_allocate (w : m.WellFormed) (size align : Int) :
    (allocate size align).effect m =
      match m.heap.allocate align size with
      | .error e => (.error e, m)
      | .ok (addr, heap) =>
        match Machine.checkRoom size with
        | .error e => (.error e, { m with heap })
        | .ok _ => (.ok addr, written { m with heap } addr (List.replicate size.toNat 0)) := by
  rw [allocate, effect_bind, effect_step]
  rcases allocated : m.heap.allocate align size with e | ⟨addr, heap⟩
  · rfl
  have inside : Holds { m with heap } addr size.toNat := w.holds_allocated allocated
  refine (effect_bind (fill addr 0 size) _ _).trans ?_
  rw [effect_fill inside]
  cases Machine.checkRoom size <;> rfl

theorem WellFormed.allocate_eq_ok {align : Int} (w : m.WellFormed)
    (done : (allocate size align).effect m = (.ok addr, g)) :
    ∃ heap, m.heap.allocate align size = .ok (addr, heap) ∧
      Memory.Holds { m with heap } addr (List.replicate size.toNat (0 : UInt8)).length ∧
      g = Memory.written { m with heap } addr (List.replicate size.toNat 0) := by
  rw [effect_allocate w] at done
  rcases allocated : m.heap.allocate align size with e | ⟨addr, heap⟩
  · rw [allocated] at done
    cases done
  rcases counted : Machine.checkRoom size with e | _
  · rw [allocated, counted] at done
    cases done
  rw [allocated, counted] at done
  cases done
  refine ⟨heap, rfl, ?_, rfl⟩
  rw [List.length_replicate]
  exact w.holds_allocated allocated

theorem WellFormed.kept_allocate (w : m.WellFormed) (size align : Int) {entry : Int × Int}
    (live : entry ∈ m.heap.sizes) :
    entry ∈ ((allocate size align).effect m).2.heap.sizes ∧
      ∀ a, entry.1 ≤ a → a < entry.1 + entry.2 →
        ((allocate size align).effect m).2.byteAt? a = m.byteAt? a := by
  rw [effect_allocate w]
  rcases allocated : m.heap.allocate align size with e | ⟨addr, heap⟩
  · exact ⟨live, fun _ _ _ => rfl⟩
  obtain ⟨_, _, lives, apart⟩ := w.heap.allocate allocated
  have stays : entry ∈ heap.sizes := (lives _).2 (.inr live)
  cases Machine.checkRoom size with
  | error e => exact ⟨stays, fun _ _ _ => rfl⟩
  | ok _ =>
    refine ⟨stays, fun a low high => ?_⟩
    have inside : Holds { m with heap } addr size.toNat := w.holds_allocated allocated
    have clear := (apart entry live).clear w.heap.positive
    simp only at clear
    exact byteAt?_written_of_apart (by rwa [List.length_replicate])
      (by rw [List.length_replicate]; omega)

theorem Reachable.afterAll (reachable : m.Reachable) (calls : List Call) :
    (Action.after (calls.map Call.perform) m).Reachable := by
  induction calls generalizing m with
  | nil => exact reachable
  | cons call calls ih => exact ih (reachable.after call)

/-- Whether an entry is live and the byte at `a` is `b`. -/
structure Lasts (entry : Int × Int) (a : Int) (b : Option UInt8) (m : Memory) : Prop where
  wellFormed : m.WellFormed
  live : entry ∈ m.heap.sizes
  byte : m.byteAt? a = b

/-- A byte of what is live lasts through each call that neither gives it back nor writes there. -/
theorem keeps_lasts {entry : Int × Int} {a : Int} {b : Option UInt8} {call : Call}
    (low : entry.1 ≤ a) (high : a < entry.1 + entry.2) (other : ¬call.Frees entry.1)
    (spared : ¬call.Writes a) : Keeps (Lasts entry a b) call.perform := by
  intro m l
  have wellFormed : (call.perform.effect m).2.WellFormed := keeps_perform call m l.wellFormed
  rcases call.perform_cases m with changed | ⟨size, align, rfl⟩ | ⟨asked, led, frees⟩
  · exact ⟨wellFormed, changed.heap ▸ l.live, (changed.byteAt? a spared).trans l.byte⟩
  · rw [Call.perform, effect_bind_pure] at wellFormed ⊢
    obtain ⟨live, bytes⟩ := l.wellFormed.kept_allocate size align l.live
    exact ⟨wellFormed, live, (bytes a low high).trans l.byte⟩
  · have kept := Heap.keeps_live (fun same => other (frees _ same)) m.heap
      ⟨l.wellFormed.heap, l.live⟩
    rw [led] at wellFormed ⊢
    exact ⟨wellFormed, kept.2, l.byte⟩

/-- Of any memory that can be reached: what is allocated lies inside, apart from all that is live,
and is blank, and no other byte changes; nothing changes when that fails or when a block is given
back. So what is live keeps each of its bytes until that is written or the block is given back. -/
theorem buffers_isolated (reachable : m.Reachable) :
    (∀ size align addr g, (allocate size align).effect m = (.ok addr, g) →
      m.Holds addr size.toNat ∧ (addr, size) ∈ g.heap.sizes ∧
      (∀ entry ∈ m.heap.sizes,
        entry.1 + max entry.2 0 ≤ addr ∨ addr + max size 0 ≤ entry.1) ∧
      g.stretch addr size.toNat = List.replicate size.toNat 0 ∧
      ∀ a, a < addr ∨ addr + max size 0 ≤ a → g.byteAt? a = m.byteAt? a) ∧
    (∀ size align e g, (allocate size align).effect m = (.error e, g) →
      e.kind ≠ .index ∧ ∀ a, g.byteAt? a = m.byteAt? a) ∧
    (∀ addr a, ((release addr).effect m).2.byteAt? a = m.byteAt? a) ∧
    ∀ entry ∈ m.heap.sizes, ∀ calls : List Call, (∀ call ∈ calls, ¬call.Frees entry.1) →
      ∀ a, entry.1 ≤ a → a < entry.1 + entry.2 → (∀ call ∈ calls, ¬call.Writes a) →
        (after (calls.map Call.perform) m).byteAt? a = m.byteAt? a := by
  have w := reachable.wellFormed
  refine ⟨fun size align addr g done => ?_, fun size align e g failed => ?_, fun addr a => ?_,
    fun entry live calls others a low high spared => ?_⟩
  · obtain ⟨heap, allocated, inside, rfl⟩ := w.allocate_eq_ok done
    obtain ⟨_, _, live, apart⟩ := w.heap.allocate allocated
    have blank := stretch_written_self inside
    have fits : m.Holds addr (List.replicate size.toNat (0 : UInt8)).length := inside
    rw [List.length_replicate] at blank fits
    refine ⟨fits, (live _).2 (.inl rfl),
      fun entry lives => (apart entry lives).clear_max w.heap.positive, blank, fun a outside => ?_⟩
    exact byteAt?_written_of_apart inside (by rw [List.length_replicate]; omega)
  · rw [effect_allocate w] at failed
    rcases allocated : m.heap.allocate align size with e' | ⟨addr, heap⟩
    · rw [allocated] at failed
      cases failed
      exact ⟨Heap.kind_of_allocate allocated, fun _ => rfl⟩
    · rcases counted : Machine.checkRoom size with e' | _
      · rw [allocated, counted] at failed
        cases failed
        exact ⟨Machine.kind_of_checkRoom counted, fun _ => rfl⟩
      · rw [allocated, counted] at failed
        cases failed
  · rw [release, effect_step]
    cases m.heap.release addr <;> rfl
  · refine (Keeps.after ?_ m (⟨w, live, rfl⟩ : Lasts entry a (m.byteAt? a) m)).byte
    simp only [List.forall_mem_map]
    exact fun call member => keeps_lasts low high (others call member) (spared call member)

end

/-- Where a block between two others is lent again, with what was written there wiped, and where
there is no room. Then a write runs up to the block behind. -/
theorem buffers_isolated_after_reuse :
    let empty : Memory := ⟨0x40, Array.replicate 112 0, ⟨0x50, 16, 6, [⟨6, false⟩], []⟩, false⟩
    let before : List Call := [.allocate 20 4, .allocate 3 4, .allocate 17 4,
      .write 0x70 (List.replicate 18 0xa5), .release 0x70]
    let m := after (before.map Call.perform) empty
    let calls : List Call := [.allocate 16 16, .write 0x60 (List.replicate 32 7), .release 0x50]
    m.Reachable ∧ m.heap.sizes = [(0x50, 20), (0x80, 17)] ∧ m.byteAt? 0x70 = some 0xa5 ∧
      (∃ g, (allocate 16 16).effect m = (.ok 0x70, g) ∧
        g.stretch 0x70 16 = List.replicate 16 0 ∧ g.byteAt? 0x80 = m.byteAt? 0x80) ∧
      (∃ g, (allocate 17 16).effect m = (.error .heapExhausted, g) ∧
        g.byteAt? 0x70 = m.byteAt? 0x70) ∧
      (after (calls.map Call.perform) m).byteAt? 0x80 = m.byteAt? 0x80 := by
  intro empty before m calls
  have made : create 112 0x40 (some 0x50) false = .ok empty := rfl
  have new : empty.Reachable := .created (by decide) made
  have reachable : m.Reachable := new.afterAll before
  have live : m.heap.sizes = [(0x50, 20), (0x80, 17)] := by decide +kernel
  have dirty : m.byteAt? 0x70 = some 0xa5 := by decide +kernel
  have lent : ((allocate 16 16).effect m).1 = .ok 0x70 := by decide +kernel
  have full : ((allocate 17 16).effect m).1 = .error .heapExhausted := by decide +kernel
  rcases lends : (allocate 16 16).effect m with ⟨_, g⟩
  rcases fails : (allocate 17 16).effect m with ⟨_, f⟩
  rw [lends] at lent
  rw [fails] at full
  cases lent
  cases full
  have others : ∀ call ∈ calls, ¬call.Frees 0x80 := by simp [calls, Call.Frees]
  have clear : ∀ call ∈ calls, ¬call.Writes 0x80 := by simp [calls, Call.Writes]
  have third : (0x80, 17) ∈ m.heap.sizes := by simp [live]
  obtain ⟨allocated, refused, _, lasts⟩ := buffers_isolated reachable
  obtain ⟨_, _, _, blank, spared⟩ := allocated 16 16 0x70 g lends
  obtain ⟨_, unchanged⟩ := refused 17 16 _ f fails
  exact ⟨reachable, live, dirty, ⟨g, rfl, blank, spared 0x80 (.inr (by decide))⟩,
    ⟨f, rfl, unchanged 0x70⟩,
    lasts (0x80, 17) third calls others 0x80 (by decide) (by decide) clear⟩

end Memory
end Keystream
