import Keystream.Proofs.Oracle
import Keystream.Proofs.Program.Run
/-!
Signals that ask to show a stretch of memory. The address goes over without its page and the length
in the place of that; the oracle takes the page of memory's base instead, so that in this page it
shows what was asked for, wherever in the page memory begins.
-/
namespace Keystream

open Keystream.Action

namespace Signal

theorem pageAddress_of_same {base addr : Int} (same : addr / page = base / page) :
    pageAddress base (addr % page) = addr := by
  have low := Int.emod_add_mul_ediv addr page
  have high := Int.emod_add_mul_ediv base page
  rw [same] at low
  unfold pageAddress
  omega

theorem unpackDisplay_of_small {n : Nat} (small : n < 256) (addr : Int) :
    unpackDisplay (packDisplay addr n) = (addr % page, (n : Int)) := by
  have short : (n : Int) % 256 = n := by omega
  rw [unpackDisplay_packDisplay, short]

end Signal

namespace Memory

def wordAt (m : Memory) (addr : Int) : Word :=
  let byte (a : Int) := (m.byteAt? a).getD 0
  Word.ofBytes (byte addr) (byte (addr + 1)) (byte (addr + 2)) (byte (addr + 3))

def words (m : Memory) (addr : Int) (n : Nat) : List Word :=
  (List.range n).map fun i : Nat => m.wordAt (addr + 4 * i)

theorem unpack_stretch (m : Memory) (addr : Int) (n : Nat) :
    Word.unpack (m.stretch addr (4 * n)) = m.words addr n := by
  apply List.ext_getElem?
  intro i
  by_cases inside : i < n
  · rw [Word.getElem?_unpack (by rw [length_stretch]; omega), words, List.getElem?_map,
      List.getElem?_range inside, Option.map_some]
    simp only [stretch, List.getElem_map, List.getElem_range, wordAt]
    push_cast
    simp only [add_assoc]
  · rw [List.getElem?_eq_none (by rw [Word.length_unpack, length_stretch]; omega),
      List.getElem?_eq_none (by simp only [words, List.length_map, List.length_range]; omega)]

end Memory

namespace Oracle

/-- The oracle once it has shown one thing more. -/
def showing (o : Oracle) (shown : Shown) : Oracle := { o with shown := o.shown ++ [shown] }

/-- What asking for `size` bytes comes to, of which `shown` is made: they are shown if they lie in
memory, and else nothing is. -/
def shownIfHeld (m : Memory) (o : Oracle) (addr : Int) (size : Nat) (shown : Shown) :
    Except Error Unit × Memory × Oracle :=
  if m.Holds addr size then (.ok (), m, o.showing shown)
  else (.error (.outside addr size m.base (m.base + m.size)), m, o)

variable {machine : Machine} {μ : Type} {mem : MemoryAccess μ} {m : Memory} {o : Oracle}
  {addr : Int} {n : Nat}

theorem effect_read_bind {α : Type} (size : Nat) (f : Bytes → Action (Memory × Oracle) α) :
    (((Memory.access m.base).read addr size).onFirst >>= f).effect (m, o) =
      if m.Holds addr size then (f (m.stretch addr size)).effect (m, o)
      else (.error (.outside addr size m.base (m.base + m.size)), m, o) := by
  have read : (((Memory.access m.base).read addr size).onFirst :
      Action (Memory × Oracle) Bytes).effect (m, o) = (m.bytesAt addr size, m, o) := by
    show (((Memory.read addr size).effect m).1, ((Memory.read addr size).effect m).2, o) = _
    rw [Memory.effect_read]
  rw [effect_bind, read]
  by_cases inside : m.Holds addr size
  · rw [if_pos inside, Memory.bytesAt_of_holds inside]
  · rw [if_neg inside, Memory.bytesAt_of_not_holds inside]

section

variable (small : n < 256) (same : addr / Signal.page = m.base / Signal.page)
include small same

theorem effect_showBytes :
    (showBytes (Memory.access m.base) (Signal.packDisplay addr n)).effect (m, o) =
      shownIfHeld m o addr n (.bytes (m.stretch addr n)) := by
  have page : Signal.pageAddress (Memory.access m.base).base (addr % Signal.page) = addr :=
    Signal.pageAddress_of_same same
  simp only [showBytes, Signal.unpackDisplay_of_small small, page]
  rw [effect_read_bind, effect_bind_of_ok (effect_alter ..)]
  rfl

theorem effect_showWords :
    (showWords (Memory.access m.base) (Signal.packDisplay addr n)).effect (m, o) =
      shownIfHeld m o addr (4 * n) (.words (m.words addr n)) := by
  have page : Signal.pageAddress (Memory.access m.base).base (addr % Signal.page) = addr :=
    Signal.pageAddress_of_same same
  have size : (n : Int) * 4 = (4 * n : Nat) := by omega
  have counted : ¬(n : Int) < 0 := by omega
  have whole : (m.stretch addr (4 * n)).length % 4 = 0 := by
    rw [Memory.length_stretch]
    omega
  simp only [showWords, Signal.unpackDisplay_of_small small, page, size]
  rw [effect_read_bind]
  simp only [counted, if_false, Memory.unpack_stretch]
  rw [effect_bind_of_ok (effect_alter ..), Hex.encodeWords, if_pos whole]
  rfl

end

section

variable (running : o.halted = false) (s : μ) (value : Int)
include running

theorem effect_answer_showBytes :
    (answer mem Signal.displayBytes.code value).effect (s, o) =
      (((showBytes mem value).effect (s, o)).1.map fun _ => 0,
        ((showBytes mem value).effect (s, o)).2) := by
  simp only [answer, effect_get_bind, running, Signal.ofCode?_code, Bool.false_eq_true, ↓reduceIte]
  exact effect_bind_pure ..

theorem effect_answer_showWords :
    (answer mem Signal.displayWords.code value).effect (s, o) =
      (((showWords mem value).effect (s, o)).1.map fun _ => 0,
        ((showWords mem value).effect (s, o)).2) := by
  simp only [answer, effect_get_bind, running, Signal.ofCode?_code, Bool.false_eq_true, ↓reduceIte]
  exact effect_bind_pure ..

end

end Oracle

namespace Program

section

variable {machine : Machine} {m : Memory} {o : Oracle} {p : Program} {addr : Int} {n : Nat}

theorem effect_signal_unused {mem : MemoryAccess Memory} {sig : Signal} {value : Int}
    {done : Except Error Unit × Memory × Oracle} (loud : Bool) (runs : p.phase.stage ≠ .halted)
    (answered : (Oracle.answer mem sig.code value).effect (m, o) =
      (done.1.map fun _ => 0, done.2)) :
    (signal ((Oracle.host mem).loopback loud) sig value >>= fun _ => Pure.pure ()).effect
      ((m, o), p) = (done.1, (done.2, p)) := by
  obtain ⟨result, last⟩ := done
  have carried : (((Oracle.host mem).loopback loud).signal sig.code value).effect (m, o) =
      (result.map fun _ => 0, last) := by
    have asked : ((Oracle.host mem).signal sig.code value).effect (m, o) =
        (result.map fun _ => some 0, last) := by
      show (Oracle.answer mem sig.code value >>= fun r => Pure.pure (some r)).effect (m, o) = _
      rw [effect_bind_pure, answered]
      cases result <;> rfl
    rw [Host.effect_loopback loud sig.spells_code, asked]
    cases result <;> rfl
  rw [effect_bind_pure, effect_signal sig runs carried]
  cases result <;> rfl

/-- In the page of memory's base, bytes and words that lie in memory are shown as they stand there;
others are an index error, and nothing is shown. Nothing else changes. -/
theorem display_shows_memory (loud : Bool) (runs : p.phase.stage ≠ .halted)
    (running : o.halted = false) (samePage : addr / Signal.page = m.base / Signal.page)
    (small : n < 256) :
    let channel := (Oracle.host (Memory.access m.base)).loopback loud
    let asked (size : Nat) (shown : Shown) : Except Error Unit × Running Oracle :=
      if m.Holds addr size then (.ok (), ((m, { o with shown := o.shown ++ [shown] }), p))
      else (.error (.outside addr size m.base (m.base + m.size)), ((m, o), p))
    (showBytes channel addr n).effect ((m, o), p) = asked n (.bytes (m.stretch addr n)) ∧
      (showWords channel addr n).effect ((m, o), p) = asked (4 * n) (.words (m.words addr n)) ∧
      ∀ size, (Error.outside addr size m.base (m.base + m.size)).kind = .index := by
  intro channel asked
  have lifted (size : Nat) (shown : Shown) :
      let done := Oracle.shownIfHeld m o addr size shown
      (done.1, (done.2, p)) = asked size shown := by
    simp only [Oracle.shownIfHeld, asked]
    split <;> rfl
  refine ⟨?_, ?_, fun size => rfl⟩
  · rw [← lifted, ← Oracle.effect_showBytes small samePage]
    exact effect_signal_unused loud runs (Oracle.effect_answer_showBytes running ..)
  · rw [← lifted, ← Oracle.effect_showWords small samePage]
    exact effect_signal_unused loud runs (Oracle.effect_answer_showWords running ..)

end

/-- Two words that end where memory and its page end, and a byte more than there is. -/
theorem display_shows_memory_at_page_end :
    let m : Memory := ⟨0x02fffff0, #[0, 1, 2, 3, 4, 5, 6, 7, 8, 9, 10, 11, 12, 13, 14, 15],
      ⟨0x02fffff0, 16, 1, [⟨1, false⟩], []⟩, false⟩
    let o : Oracle :=
      { key := .replicate 32 1, nonce := .replicate 12 2, iterations := 3, traced := true }
    let p : Program :=
      { buffers := { key := 0, nonce := 0, state := 0, output := 0 }, counter := .ok 1,
        order := .ok .little, traced := false }
    let channel := (Oracle.host (Memory.access m.base)).loopback true
    (p.phase.stage ≠ .halted ∧ o.halted = false ∧
      (0x02fffff8 : Int) / Signal.page = m.base / Signal.page) ∧
    (showWords channel 0x02fffff8 2).effect ((m, o), p) =
      (.ok (), ((m, { o with shown := [.words [0x0b0a0908, 0x0f0e0d0c]] }), p)) ∧
    (showBytes channel 0x02fffff8 9).effect ((m, o), p) =
      (.error (.outside 0x02fffff8 9 0x02fffff0 0x03000000), ((m, o), p)) := by
  intro m o p channel
  have runs : p.phase.stage ≠ .halted := nofun
  have samePage : (0x02fffff8 : Int) / Signal.page = m.base / Signal.page := by decide
  have words : m.words 0x02fffff8 2 = [0x0b0a0908, 0x0f0e0d0c] := by decide +kernel
  have inside : m.Holds 0x02fffff8 8 := by decide +kernel
  have outside : ¬m.Holds 0x02fffff8 9 := by decide +kernel
  obtain ⟨-, shown, -⟩ :=
    display_shows_memory (n := 2) (o := o) true runs rfl samePage (by decide)
  obtain ⟨refused, -, -⟩ :=
    display_shows_memory (n := 9) (o := o) true runs rfl samePage (by decide)
  rw [words] at shown
  exact ⟨⟨runs, rfl, samePage⟩, shown.trans (if_pos inside), refused.trans (if_neg outside)⟩

end Program

end Keystream
