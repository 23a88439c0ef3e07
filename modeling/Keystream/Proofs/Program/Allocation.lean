import Keystream.Proofs.Heap.FirstFit
import Keystream.Proofs.Program.Buffers
import Keystream.Session
/-!
Buffers lent one after another. Where there is room for all of them they are lent blank and apart
from each other; where the room ends at one of them, those before it are lent and stay so.
-/
namespace Keystream

namespace Memory

open Keystream.Action

def allocateAll [Machine] : List Int → Action Memory (List Int)
  | [] => Pure.pure []
  | size :: sizes => do
    let addr ← allocate size 4
    let addrs ← allocateAll sizes
    return addr :: addrs

/-- What blank buffers of these addresses and sizes make of memory `m`. -/
structure LendsBlank (m : Memory) (entries : List (Int × Int)) (g : Memory) : Prop
    extends m.LendsAll entries g where
  blank : ∀ entry ∈ entries, g.stretch entry.1 entry.2.toNat = List.replicate entry.2.toNat 0

variable {machine : Machine} {m g h : Memory} {addr : Int} {n : Nat}
  {entries : List (Int × Int)}

theorem LendsBlank.nil (w : m.WellFormed) : m.LendsBlank [] m :=
  ⟨.nil w, by simp⟩

theorem Lends.consBlank (first : m.Lends addr n g) (rest : g.LendsBlank entries h) :
    m.LendsBlank ((addr, (n : Int)) :: entries) h := by
  refine ⟨first.cons rest.toLendsAll, List.forall_mem_cons.2 ⟨?_, rest.blank⟩⟩
  have own : (addr, (n : Int)) ∈ g.heap.sizes := (first.live _).2 (.inl rfl)
  rw [Int.toNat_natCast]
  exact (stretch_congr fun a low high => rest.kept _ own a low high).trans first.blank

theorem LendsBlank.not_mem (l : m.LendsBlank entries g) {entry : Int × Int}
    (lent : entry ∈ entries) : entry ∉ m.heap.sizes :=
  fun old => l.apart entry old _ (List.mem_map_of_mem lent) rfl

theorem LendsBlank.heap_ne (l : m.LendsBlank entries g) (some : entries ≠ []) :
    g.heap ≠ m.heap := by
  obtain ⟨entry, member⟩ := List.exists_mem_of_ne_nil _ some
  intro same
  exact l.not_mem member (same ▸ (l.live entry).2 (.inl member))

theorem LendsBlank.pairwise (l : m.LendsBlank entries g) :
    entries.Pairwise fun a b => a.1 + a.2 ≤ b.1 ∨ b.1 + b.2 ≤ a.1 := by
  have distinct : entries.Pairwise fun a b => a.1 ≠ b.1 := List.pairwise_map.1 l.distinct
  refine distinct.imp_of_mem fun first second ne => ?_
  exact l.wellFormed.heap.clear ((l.live _).2 (.inl first)) ((l.live _).2 (.inl second)) ne

theorem LendsBlank.live_iff (l : m.LendsBlank entries g) (w : m.WellFormed) (a blocks size : Int) :
    g.heap.Live a blocks size ↔
      m.heap.Live a blocks size ∨ (a, size) ∈ entries ∧ blocks = Heap.blocksFor 16 size := by
  rw [l.wellFormed.heap.live_iff, w.heap.live_iff, l.live, l.wellFormed.block, w.block]
  tauto

theorem WellFormed.dvd (w : m.WellFormed) {entry : Int × Int} (live : entry ∈ m.heap.sizes) :
    16 ∣ entry.1 := by
  obtain ⟨k, address⟩ := w.heap.tracked.exists_block live
  rw [address, w.block]
  exact dvd_mul_right ..

/-- Whether a buffer of `size` bytes fits nowhere. -/
def Full (m : Memory) (size : Int) : Prop := ∀ a, ¬m.heap.Fits 16 (Heap.blocksFor 16 size) a

theorem WellFormed.allocate_cases (w : m.WellFormed) (small : n < 0x100000) :
    (∃ addr g, (allocate n 4).effect m = (.ok addr, g) ∧ m.Lends addr n g) ∨
      (allocate n 4).effect m = (.error .heapExhausted, m) ∧ m.Full n := by
  have power : m.heap.block = 2 ^ 4 := w.block
  have aligned : Heap.isAlignment 4 = true := by decide
  rcases w.heap.allocate_cases power aligned n with
    ⟨addr, heap, allocated, _⟩ | ⟨failed, full⟩
  · obtain ⟨g, done, lends, _⟩ := exists_lends w allocated small
    exact .inl ⟨addr, g, done, lends⟩
  · refine .inr ⟨by rw [effect_allocate w, failed], ?_⟩
    rw [w.block] at full
    exact full

/-- Buffers that are asked for one after another are lent blank, all of them or those before the
first that fits nowhere. -/
theorem WellFormed.allocateAll_cases (w : m.WellFormed) (sizes : List Nat)
    (small : ∀ n ∈ sizes, n < 0x100000) :
    let asked : List Int := sizes.map Nat.cast
    (∃ lent g, (allocateAll asked).effect m = (.ok (lent.map Prod.fst), g) ∧
      lent.map Prod.snd = asked ∧ m.LendsBlank lent g) ∨
    ∃ lent size rest g, (allocateAll asked).effect m = (.error .heapExhausted, g) ∧
      lent.map Prod.snd ++ size :: rest = asked ∧ m.LendsBlank lent g ∧ g.Full size ∧
      (lent = [] → g = m) := by
  intro asked
  induction sizes generalizing m with
  | nil => exact .inl ⟨[], m, rfl, rfl, .nil w⟩
  | cons n sizes ih =>
    obtain ⟨fits, small⟩ := List.forall_mem_cons.1 small
    have opened : allocateAll asked = allocate n 4 >>= fun addr =>
      allocateAll (sizes.map Nat.cast) >>= fun addrs => Pure.pure (addr :: addrs) := rfl
    rw [opened]
    rcases w.allocate_cases fits with ⟨addr, g, done, lends⟩ | ⟨failed, full⟩
    · rw [effect_bind_of_ok done, effect_bind_pure]
      rcases ih lends.wellFormed small with
        ⟨lent, h, rest, counted, all⟩ | ⟨lent, size, behind, h, stopped, counted, some, full, _⟩
      · refine .inl ⟨(addr, (n : Int)) :: lent, h, ?_, ?_, lends.consBlank all⟩
        · rw [rest]
          rfl
        · exact congrArg ((n : Int) :: ·) counted
      · refine .inr ⟨(addr, (n : Int)) :: lent, size, behind, h, ?_, ?_, lends.consBlank some, full,
          ?_⟩
        · rw [stopped]
          rfl
        · exact congrArg ((n : Int) :: ·) counted
        · simp
    · exact .inr ⟨[], n, sizes.map Nat.cast, m, effect_bind_of_error failed _, rfl, .nil w, full,
        fun _ => rfl⟩

end Memory

namespace Buffers

open Keystream.Action Memory

section

variable {machine : Machine}

theorem addresses_allocate :
    (do let b ← allocate; return b.addresses) = allocateAll [32, 12, 64, 64] := by
  simp only [allocate, allocateAll, addresses, bind_assoc, pure_bind]

theorem runProgram_of_error {π : Type} {m g : Memory} {e : Error} (peer : π) (task : Session.Task)
    (channel : Channel (Target π)) (failed : allocate.effect m = (.error e, g)) :
    (Session.runProgram task channel).effect (m, peer) = (.error e, (g, peer)) := by
  have first : (allocate.onFirst : Action (Target π) Buffers).effect (m, peer) =
      (.error e, (g, peer)) := by
    rw [effect_onFirst, failed]
  exact effect_bind_of_error first _

/-- In any memory that can be reached the buffers of a run are lent, all four of them, apart and
blank; or one of them fits nowhere, and then those before it are live and stay so, for a program
that has no buffers does nothing more. So the heap is as it was only if the first fits nowhere. -/
theorem allocate_stops_where_full {m : Memory} (reachable : m.Reachable) :
    (∃ b g, allocate.effect m = (.ok b, g) ∧
      (∀ a blocks size, g.heap.Live a blocks size ↔
        m.heap.Live a blocks size ∨ (a, size) ∈ b.entries ∧ blocks = Heap.blocksFor 16 size) ∧
      b.entries.Pairwise (fun x y => x.1 + x.2 ≤ y.1 ∨ y.1 + y.2 ≤ x.1) ∧
      ∀ entry ∈ b.entries, entry ∉ m.heap.sizes ∧ 4 ∣ entry.1 ∧ g.Holds entry.1 entry.2.toNat ∧
        g.stretch entry.1 entry.2.toNat = List.replicate entry.2.toNat 0) ∨
    ∃ lent size rest g, allocate.effect m = (.error .heapExhausted, g) ∧
      Error.heapExhausted.kind = .exhausted ∧
      lent.map Prod.snd ++ size :: rest = [32, 12, 64, 64] ∧ g.Full size ∧
      (∀ a blocks size, g.heap.Live a blocks size ↔
        m.heap.Live a blocks size ∨ (a, size) ∈ lent ∧ blocks = Heap.blocksFor 16 size) ∧
      (∀ entry ∈ lent, entry ∉ m.heap.sizes) ∧ (g.heap = m.heap ↔ lent = []) ∧
      ∀ (π : Type) (peer : π) (task : Session.Task) (channel : Channel (Target π)),
        (Session.runProgram task channel).effect (m, peer) =
          (.error .heapExhausted, (g, peer)) := by
  have w := reachable.wellFormed
  have asked : (do let b ← allocate; return b.addresses).effect m =
      (allocateAll (List.map Nat.cast [32, 12, 64, 64])).effect m :=
    congrArg (effect · m) addresses_allocate
  rcases w.allocateAll_cases [32, 12, 64, 64] (by decide) with
    ⟨lent, g, done, counted, all⟩ | ⟨lent, size, rest, g, stopped, counted, some, full, none⟩
  · left
    obtain ⟨b, f, allocated, same⟩ := effect_bind_eq_ok.1 (asked.trans done)
    obtain ⟨first, rfl⟩ := Prod.mk.inj same
    obtain rfl : lent = b.entries := List.zip_of_prod (Except.ok.inj first).symm counted
    refine ⟨b, f, allocated, all.live_iff w, all.pairwise, fun entry member => ?_⟩
    have live := (all.live entry).2 (.inl member)
    exact ⟨all.not_mem member, (by decide : (4 : Int) ∣ 16).trans (all.wellFormed.dvd live),
      all.wellFormed.holds live, all.blank entry member⟩
  · right
    have failed := effect_bind_pure_eq_error.1 (asked.trans stopped)
    refine ⟨lent, size, rest, g, failed, rfl, counted, full, some.live_iff w,
      fun entry => some.not_mem, ⟨fun kept => ?_, fun first => congrArg heap (none first)⟩,
      fun π peer task channel => runProgram_of_error peer task channel failed⟩
    by_contra lends
    exact some.heap_ne lends kept

end

/-- Four blocks: the buffers of key and nonce take three of them, and stay when the next one, which
takes four, does not fit. -/
theorem allocate_stops_where_full_of_four_blocks :
    let m : Memory := ⟨0, Array.replicate 64 0, ⟨0, 16, 4, [⟨4, false⟩], []⟩, false⟩
    m.Reachable ∧ ∃ (lent : List (Int × Int)) (size : Int) (rest : List Int) (g : Memory),
      allocate.effect m = (.error .heapExhausted, g) ∧
      lent.map Prod.snd ++ size :: rest = [32, 12, 64, 64] ∧ lent ≠ [] ∧ g.Full size ∧
      g.heap = ⟨0, 16, 4, [⟨2, true⟩, ⟨1, true⟩, ⟨1, false⟩], [(0, 32), (32, 12)]⟩ ∧
      ∀ channel : Channel (Target Unit),
        (Session.runProgram {} channel).effect (m, ()) = (.error .heapExhausted, (g, ())) := by
  intro m
  have made : create 64 0 none false = .ok m := rfl
  have reachable : m.Reachable := .created (by decide) made
  have result : (allocate.effect m).1.map addresses = .error .heapExhausted := by decide +kernel
  have left : (allocate.effect m).2.heap =
      ⟨0, 16, 4, [⟨2, true⟩, ⟨1, true⟩, ⟨1, false⟩], [(0, 32), (32, 12)]⟩ := by decide +kernel
  rcases allocate_stops_where_full reachable with
    ⟨b, g, done, _⟩ | ⟨lent, size, rest, g, stopped, _, counted, full, _, _, same, runs⟩
  · rw [done] at result
    cases result
  · rw [stopped] at left
    have changed : g.heap ≠ m.heap := by
      rw [left]
      decide
    exact ⟨reachable, lent, size, rest, g, stopped, counted, mt same.2 changed, full, left,
      fun channel => runs Unit () {} channel⟩

end Buffers

end Keystream
