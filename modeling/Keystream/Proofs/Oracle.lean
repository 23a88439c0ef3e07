import Keystream.Oracle
import Keystream.Proofs.Effect
import Keystream.Proofs.Machine
/-!
What an oracle answers to each signal of a run, whatever way it reaches the program's memory by, and
what its verdict is once the run is over.
-/
namespace Keystream

theorem Signal.code_of_ofCode? {code : Int} {sig : Signal} (known : ofCode? code = some sig) :
    sig.code = code :=
  have same := List.find?_some known
  beq_iff_eq.1 same

theorem Signal.spells_code [Machine] (sig : Signal) : Machine.Spells sig.code := by
  cases sig <;> exact Machine.spells_of_word (by decide)

theorem Word.spells_toInt [Machine] (w : Word) : Machine.Spells (toInt w) :=
  Machine.spells_of_word w.toNat_lt

theorem WordDiff.exists_render {old new : Bytes} (words : new.length % 4 = 0)
    (same : old.length = new.length) (ascii : Bool) :
    ∃ text, render old new ascii = .ok text :=
  ⟨_, if_pos ⟨words, same⟩⟩

namespace Oracle

open Keystream.Action

variable {machine : Machine} {μ : Type} {mem : MemoryAccess μ} {s t : μ} {o : Oracle}

@[simp] theorem effect_alter (f : Oracle → Oracle) (s : μ) (o : Oracle) :
    (alter f).effect (s, o) = (.ok (), (s, f o)) := rfl

@[simp] theorem effect_note (line : String) (s : μ) (o : Oracle) :
    (note line).effect (s, o) = (.ok (), (s, o)) := by
  simp only [note, effect_get_bind]
  split <;> rfl

theorem effect_announce_first (fresh : o.announcements = 0) (addr : Int) :
    (announce mem addr).effect (s, o) =
      (.ok (), (s, { o with outputAddress := some addr, announcements := 1 })) := by
  rw [announce, effect_bind_of_ok (effect_alter ..), effect_get_bind, fresh]
  exact effect_note ..

theorem effect_announce_second {addr : Int} {block : Bytes} (once : o.announcements = 1)
    (shows : (mem.read addr 64).effect s = (.ok block, t)) :
    (announce mem addr).effect (s, o) =
      (.ok (),
        (t, { o with outputAddress := some addr, announcements := 2, output := some block })) := by
  rw [announce, effect_bind_of_ok (effect_alter ..), effect_get_bind, once]
  have seen (o : Oracle) : ((mem.read addr 64).onFirst : Action (μ × Oracle) Bytes).effect (s, o) =
      (.ok block, (t, o)) := by
    rw [effect_onFirst, shows]
  refine (effect_bind_of_ok (seen _) _).trans ?_
  rw [effect_bind_of_ok (effect_alter ..)]
  exact effect_note ..

theorem effect_announce_unread {addr : Int} {e : Error} (once : o.announcements = 1)
    (fails : (mem.read addr 64).effect s = (.error e, t)) :
    (announce mem addr).effect (s, o) =
      (.error e, (t, { o with outputAddress := some addr, announcements := 2 })) := by
  rw [announce, effect_bind_of_ok (effect_alter ..), effect_get_bind, once]
  have unseen (o : Oracle) :
      ((mem.read addr 64).onFirst : Action (μ × Oracle) Bytes).effect (s, o) =
        (.error e, (t, o)) := by
    rw [effect_onFirst, fails]
  exact effect_bind_of_error (unseen _) _

theorem effect_announce_late (late : 1 < o.announcements) (addr : Int) :
    (announce mem addr).effect (s, o) =
      (.error .announcedTooOften, (s, { o with
        outputAddress := some addr, announcements := o.announcements + 1 })) := by
  have notFirst : ¬o.announcements + 1 = 1 := by omega
  have notSecond : ¬o.announcements + 1 = 2 := by omega
  rw [announce, effect_bind_of_ok (effect_alter ..), effect_get_bind]
  refine (congrArg (effect · _) (if_neg notFirst)).trans ?_
  exact congrArg (effect · _) (if_neg notSecond)

theorem effect_answer_of_halted (ended : o.halted = true) (sig value : Int) :
    (answer mem sig value).effect (s, o) =
      (.error (Machine.telling sig (.oracleHalted sig)), (s, o)) := by
  simp only [answer, effect_get_bind, ended, ↓reduceIte]
  rfl

theorem effect_finish_of_halted (ended : o.halted = true) :
    (finish : Action (μ × Oracle) Unit).effect (s, o) = (.error .haltedTwice, (s, o)) := by
  simp only [finish, effect_get_bind, ended, ↓reduceIte]
  rfl

section

variable (running : o.halted = false)
include running

theorem effect_answer_key {addr : Int}
    (wrote : (mem.write addr o.key.toList).effect s = (.ok (), t)) :
    (answer mem 0 addr).effect (s, o) = (.ok 0, (t, { o with keyAddress := some addr })) := by
  have code : Signal.ofCode? 0 = some .keyAddress := Signal.ofCode?_code .keyAddress
  simp only [answer, effect_get_bind, running, code, Bool.false_eq_true, ↓reduceIte]
  simp only [effect_bind, effect_alter, effect_onFirst, wrote, effect_note, effect_pure, running]

theorem effect_answer_nonce {addr : Int}
    (wrote : (mem.write addr o.nonce.toList).effect s = (.ok (), t)) :
    (answer mem 1 addr).effect (s, o) = (.ok 0, (t, { o with nonceAddress := some addr })) := by
  have code : Signal.ofCode? 1 = some .nonceAddress := Signal.ofCode?_code .nonceAddress
  simp only [answer, effect_get_bind, running, code, Bool.false_eq_true, ↓reduceIte]
  simp only [effect_bind, effect_alter, effect_onFirst, wrote, effect_note, effect_pure, running]

theorem effect_answer_iterations (value : Int) :
    (answer mem 2 value).effect (s, o) =
      ((Machine.decimal o.iterations).map fun _ => (o.iterations : Int), (s, o)) := by
  have code : Signal.ofCode? 2 = some .iterations := Signal.ofCode?_code .iterations
  simp only [answer, effect_get_bind, running, code, Bool.false_eq_true, ↓reduceIte]
  rw [effect_bind, effect_liftM]
  cases Machine.decimal o.iterations with
  | error e => rfl
  | ok count => simp only [effect_bind, effect_note, effect_pure, Except.map]

theorem effect_answer_iterations_of_spells (spells : Machine.Spells o.iterations) (value : Int) :
    (answer mem 2 value).effect (s, o) = (.ok o.iterations, (s, o)) := by
  rw [effect_answer_iterations running, Machine.decimal_of_spells spells]
  rfl

theorem effect_answer_iterations_of_not_spells (long : ¬Machine.Spells o.iterations)
    (value : Int) :
    (answer mem 2 value).effect (s, o) = (.error (.tooManyDigits Machine.digits none), (s, o)) := by
  rw [effect_answer_iterations running, Machine.decimal_of_not_spells long]
  rfl

theorem effect_answer_announce (addr : Int) :
    (answer mem 3 addr).effect (s, o) =
      (((announce mem addr).effect (s, o)).1.map fun _ => 0,
        ((announce mem addr).effect (s, o)).2) := by
  have code : Signal.ofCode? 3 = some .outputAddress := Signal.ofCode?_code .outputAddress
  simp only [answer, effect_get_bind, running, code, Bool.false_eq_true, ↓reduceIte]
  exact effect_bind_pure ..

theorem effect_answer_output {addr : Int} {o' : Oracle}
    (announced : (announce mem addr).effect (s, o) = (.ok (), (t, o'))) :
    (answer mem 3 addr).effect (s, o) = (.ok 0, (t, o')) := by
  rw [effect_answer_announce running, announced]
  rfl

theorem effect_finish {block : Bytes} (shown : o.output = some block) :
    (finish : Action (μ × Oracle) Unit).effect (s, o) =
      (.ok (), (s, { o with halted := true })) := by
  have told : o.output.isNone = false := by rw [shown]; rfl
  simp only [finish, effect_get_bind, running, told, Bool.false_eq_true, ↓reduceIte]
  rw [effect_bind_of_ok (effect_alter ..)]
  exact effect_note ..

theorem effect_finish_early (unshown : o.output = none) :
    (finish : Action (μ × Oracle) Unit).effect (s, o) =
      (.error .haltedEarly, (s, { o with halted := true })) := by
  have untold : o.output.isNone = true := by rw [unshown]; rfl
  simp only [finish, effect_get_bind, running, untold, Bool.false_eq_true, ↓reduceIte]
  rfl

end

theorem effect_signal {sig value r : Int} {o' : Oracle}
    (answered : (answer mem sig value).effect (s, o) = (.ok r, (t, o'))) :
    ((host mem).signal sig value).effect (s, o) = (.ok (some r), (t, o')) := by
  show (answer mem sig value >>= fun r => Pure.pure (some r)).effect (s, o) = _
  rw [effect_bind_of_ok answered]
  rfl

theorem effect_signal_of_error {sig value : Int} {e : Error} {o' : Oracle}
    (refused : (answer mem sig value).effect (s, o) = (.error e, (t, o'))) :
    ((host mem).signal sig value).effect (s, o) = (.error e, (t, o')) :=
  effect_bind_of_error refused _

theorem verify_eq_ok {o : Oracle} {expected : Bytes} :
    o.verify expected = .ok () ↔ o.halted = true ∧ o.output = some expected := by
  rw [verify]
  cases ended : o.halted with
  | false => exact iff_of_false (fun passes => by cases passes) (by simp)
  | true =>
    rcases shown : o.output with _ | output
    · exact iff_of_false (fun passes => by cases passes) (by simp)
    by_cases same : output = expected
    · exact iff_of_true (if_neg (not_not_intro same)) ⟨rfl, congrArg some same⟩
    · refine iff_of_false (fun passes => ?_) fun both => same (Option.some.inj both.2)
      have reported : (WordDiff.render expected output true >>= fun diff =>
          throw (.mismatch diff) : Except Error Unit) = .ok () := (if_pos same).symm.trans passes
      obtain ⟨_, _, none⟩ := bind_eq_ok.1 reported
      cases none

theorem exists_verify_mismatch {block expected : Bytes} (ended : o.halted = true)
    (shown : o.output = some block) (words : block.length % 4 = 0)
    (same : expected.length = block.length) (other : expected ≠ block) :
    ∃ diff, o.verify expected = .error (.mismatch diff) := by
  obtain ⟨diff, rendered⟩ := WordDiff.exists_render words same true
  refine ⟨diff, ?_⟩
  simp only [verify, ended, shown, Bool.not_true, Bool.false_eq_true, ↓reduceIte, ne_eq,
    Ne.symm other, not_false_eq_true, rendered]
  rfl

end Oracle

namespace Host

open Keystream.Action

variable {machine : Machine} {σ : Type} {host : Host σ} {s t : σ}

theorem effect_loopback (traced : Bool) {sig : Int} (spells : Machine.Spells sig) (value : Int)
    (s : σ) :
    ((host.loopback traced).signal sig value).effect s =
      (((host.signal sig value).effect s).1.map (·.getD 0),
        ((host.signal sig value).effect s).2) := by
  cases traced <;>
  · simp only [loopback, Machine.decimal_of_spells spells, Bool.false_eq_true, ↓reduceIte]
    simp only [effect_bind, effect_liftM, effect_printLine]
    rcases (host.signal sig value).effect s with ⟨_ | _, _⟩ <;> rfl

theorem effect_loopback_signal {sig value r : Int} (traced : Bool) (spells : Machine.Spells sig)
    (answered : (host.signal sig value).effect s = (.ok (some r), t)) :
    ((host.loopback traced).signal sig value).effect s = (.ok r, t) := by
  rw [effect_loopback traced spells, answered]
  rfl

theorem effect_loopback_halt (traced : Bool) (ended : host.halt.effect s = (.ok (), t)) :
    (host.loopback traced).halt.effect s = (.ok (), t) := by
  cases traced <;> exact ended

end Host

namespace Oracle

open Keystream.Action

variable {machine : Machine} {μ : Type} {mem : MemoryAccess μ} {s t : μ} {o o' : Oracle}
  {value : Int}

theorem effect_loopback_answer (sig : Signal) (traced : Bool) {r : Int}
    (answered : (answer mem sig.code value).effect (s, o) = (.ok r, (t, o'))) :
    (((host mem).loopback traced).signal sig.code value).effect (s, o) = (.ok r, (t, o')) :=
  Host.effect_loopback_signal traced sig.spells_code (effect_signal answered)

theorem effect_loopback_refusal (sig : Signal) (traced : Bool) {e : Error}
    (refused : (answer mem sig.code value).effect (s, o) = (.error e, (t, o'))) :
    (((host mem).loopback traced).signal sig.code value).effect (s, o) = (.error e, (t, o')) := by
  rw [Host.effect_loopback traced sig.spells_code, effect_signal_of_error refused]
  rfl

end Oracle

end Keystream
