import Keystream.CommandLine.Run
import Keystream.Proofs.CommandLine.Reading
import Keystream.Proofs.Session.Loopback
import Keystream.Proofs.Session.Printed
/-!
The command run in one place, from its arguments to its verdict: it prints the standard's block, and
passes or fails by the block that it was told to expect.
-/
namespace Keystream

open Keystream.Action

namespace CommandLine

/-- What a command line asks for, once the defaults stand in for what it leaves out. -/
structure Asked where
  key : Vector UInt8 32
  nonce : Vector UInt8 12
  count : Nat
  counter : Int
  order : String

structure Settings.Asks (s : Settings) (asked : Asked) : Prop where
  key : s.key = asked.key.toList
  nonce : s.nonce = asked.nonce.toList
  count : s.iterations.orElse 1 = .ok (asked.count : Int)
  counter : s.counter.orElse 1 = .ok asked.counter
  order : s.order.orElse "little" = .ok asked.order

/-- No option stands without the value it should have. -/
structure Settings.Whole (s : Settings) : Prop where
  key : s.key ≠ []
  nonce : s.nonce ≠ []
  iterations : s.iterations ≠ .blank
  counter : s.counter ≠ .blank
  order : s.order ≠ .blank
  expected : s.expected ≠ some []

structure Asked.IsExample (asked : Asked) : Prop where
  key : asked.key.toList = Standard.exampleKey
  nonce : asked.nonce.toList = Standard.exampleNonce
  count : asked.count = 1
  counter : asked.counter = 1
  order : asked.order = "little"

def Announces (word : String) (printed : List String) : Prop :=
  ∃ text ∈ printed, word.toList <+: text.toList

def printout (count : Nat) (block : Bytes) : List String :=
  (s!"Output after {(count : Int)} iteration(s):" :: Dump.plain 0 block).map (· ++ "\n")

/-- What a run prints and ends with that came to `block`, where `fails` and `passes` say which of
the two verdicts it is to give. -/
structure Reports (o : Outcome Line Exit) (traced : Bool) (count : Nat) (block : Bytes)
    (fails passes : Prop) : Prop where
  status : fails ∧ o.result = .ok (.status 1) ∨ ¬fails ∧ o.result = .ok (.status 0)
  failure : Announces "FAIL" o.printed ↔ fails
  success : Announces "PASS" o.printed ↔ passes
  text : ∃ traces verdict,
    o.printed = traces ++ printout count block ++ verdict ∧
    (∀ text ∈ traces, IsTrace traced text) ∧ verdict.length ≤ 1 ∧ ∀ text ∈ verdict, fails ∨ passes

section

variable {machine : Machine}

theorem exists_asked {s : Settings} (sized : s.Sized) (whole : s.Whole)
    (counted : ∀ n, s.iterations = .value n → 0 ≤ n) :
    ∃ asked order, s.Asks asked ∧ ByteOrder.ofName asked.order = .ok order := by
  have given {α : Type} (x : Given α) (default : α) (here : x ≠ .blank) :
      ∃ y, x.orElse default = .ok y ∧ (y = default ∨ x = .value y) := by
    cases x with
    | absent => exact ⟨default, rfl, .inl rfl⟩
    | blank => exact absurd rfl here
    | value y => exact ⟨y, rfl, .inr rfl⟩
  obtain ⟨n, isCount, fromCount⟩ := given s.iterations 1 whole.iterations
  obtain ⟨counter, isCounter, _⟩ := given s.counter 1 whole.counter
  obtain ⟨name, isName, fromName⟩ := given s.order "little" whole.order
  have notNegative : 0 ≤ n := fromCount.elim (fun same => same ▸ by decide) (counted n)
  have known : name ∈ ByteOrder.names :=
    fromName.elim (fun same => same ▸ by decide) (sized.order name)
  obtain ⟨order, named⟩ : ∃ order, ByteOrder.ofName name = .ok order := by
    simp only [ByteOrder.names, ByteOrder.named, List.map_cons, List.map_nil, List.mem_cons,
      List.not_mem_nil, or_false] at known
    rcases known with rfl | rfl | rfl <;> exact ⟨_, rfl⟩
  have key := sized.key.resolve_left whole.key
  have nonce := sized.nonce.resolve_left whole.nonce
  refine ⟨⟨⟨s.key.toArray, key⟩, ⟨s.nonce.toArray, nonce⟩, n.toNat, counter, name⟩, order,
    ⟨rfl, rfl, ?_, isCounter, isName⟩, named⟩
  rw [isCount, Int.toNat_of_nonneg notNegative]

theorem Settings.Sized.spells {s : Settings} {asked : Asked} (sized : s.Sized)
    (asks : s.Asks asked) : Machine.Spells asked.count := by
  have count := asks.count
  rcases given : s.iterations with _ | _ | n <;> rw [given] at count
  · rw [← Except.ok.inj count]
    exact Machine.spells_of_word (by decide)
  · cases count
  · rw [← Except.ok.inj count]
    exact sized.iterations n given

theorem Given.mem_default_iff {α : Type} {x : Given α} {default y : α}
    (used : x.orElse default = .ok y) : x ∈ [.absent, .value default] ↔ y = default := by
  cases x with
  | absent =>
    cases used
    simp
  | blank => cases used
  | value z =>
    cases used
    simp

theorem expectation_eq_some_iff {s : Settings} {asked : Asked} (asks : s.Asks asked) {e : Bytes} :
    s.expectation asked.count = some e ↔
      s.expected = some e ∨ s.expected = none ∧ asked.IsExample ∧ e = Standard.exampleBlock := by
  have own : (s.key = Standard.exampleKey ∧ s.nonce = Standard.exampleNonce ∧
      (asked.count : Int) = 1 ∧ s.counter ∈ [.absent, .value 1] ∧
        s.order ∈ [.absent, .value "little"]) ↔ asked.IsExample := by
    rw [Given.mem_default_iff asks.counter, Given.mem_default_iff asks.order, asks.key, asks.nonce]
    exact ⟨fun ⟨key, nonce, count, counter, order⟩ => ⟨key, nonce, by omega, counter, order⟩,
      fun own => ⟨own.key, own.nonce, by simp [own.count], own.counter, own.order⟩⟩
  unfold Settings.expectation
  cases given : s.expected with
  | some block => simp
  | none =>
    by_cases isExample : asked.IsExample
    · rw [if_neg (by simp), if_pos (own.2 isExample)]
      simp [isExample, eq_comm]
    · rw [if_neg (by simp), if_neg (mt own.1 isExample)]
      simp [isExample]

theorem lastBlock_of_isExample {asked : Asked} (own : asked.IsExample) {order : ByteOrder}
    (named : ByteOrder.ofName asked.order = .ok order) :
    Standard.lastBlock asked.key asked.nonce asked.counter asked.count order =
      Standard.exampleBlock := by
  have key : asked.key = ⟨Standard.exampleKey.toArray, rfl⟩ := Vector.toList_inj.1 own.key
  have nonce : asked.nonce = ⟨Standard.exampleNonce.toArray, rfl⟩ := Vector.toList_inj.1 own.nonce
  have little : order = .little := by
    rw [own.order] at named
    cases named
    rfl
  rw [key, nonce, own.count, own.counter, little]
  decide +kernel

section

variable {o : Oracle} {block e : Bytes} {σ : Type}

theorem run_judge_self (ended : o.halted = true) (shown : o.output = some block) (s : σ) :
    (judge o (some block)).run s = ⟨.ok 0, s, ["PASS\n"]⟩ := by
  simp only [judge, Oracle.verify_eq_ok.2 ⟨ended, shown⟩]
  rfl

theorem exists_run_judge_other (ended : o.halted = true) (shown : o.output = some block)
    (words : block.length % 4 = 0) (same : e.length = block.length) (other : e ≠ block) (s : σ) :
    ∃ diff, (judge o (some e)).run s = ⟨.ok 1, s, ["FAIL: " ++ diff ++ "\n"]⟩ := by
  obtain ⟨diff, mismatch⟩ := Oracle.exists_verify_mismatch ended shown words same other
  refine ⟨(Error.mismatch diff).message, ?_⟩
  simp only [judge, mismatch]
  rfl

end

theorem announces_append {word : String} {first rest : List String} :
    Announces word (first ++ rest) ↔ Announces word first ∨ Announces word rest := by
  simp only [Announces, List.mem_append, or_and_right, exists_or]

theorem not_announces_of_plain {word : String} (capital : word.toList.head? ∈ [some 'P', some 'F'])
    {texts : List String} (plain : ∀ text ∈ texts, Plain text) : ¬Announces word texts := by
  rintro ⟨text, member, rest, same⟩
  obtain ⟨c, first, notP, notF⟩ := plain text member
  rw [← same, List.head?_append] at first
  simp only [List.mem_cons, List.not_mem_nil, or_false] at capital
  rcases capital with begins | begins <;> rw [begins] at first <;> cases first <;> contradiction

theorem exists_memory [Machine] :
    ∃ m, memory = .ok m ∧ m.WellFormed ∧ m.Quiet ∧ m.heap.HasRoom [32, 12, 64, 64] := by
  have checked : Machine.checkRoom Session.memorySize = .ok () :=
    Machine.checkRoom_of_small (n := 0x40000) (by decide)
  obtain ⟨m, made, heap⟩ : ∃ m, memory = .ok m ∧
      m.heap = ⟨0x02000000, 16, 0x4000, [⟨0x4000, false⟩], []⟩ :=
    ⟨_, (bind_of_ok checked _).trans rfl, rfl⟩
  refine ⟨m, made, Memory.wellFormed_of_create (le_refl _) made, Memory.quiet_of_create made, ?_⟩
  rw [heap]
  exact ⟨_, _, rfl, _, _, rfl, _, _, rfl, _, _, rfl, trivial⟩

theorem exists_run_runOracle {s : Settings} {asked : Asked} {order : ByteOrder}
    (spells : Machine.Spells asked.count) (asks : s.Asks asked)
    (named : ByteOrder.ofName asked.order = .ok order) (inPlace : s.device = "") (line : Line) :
    ∃ o traces, (runOracle s asked.count).run line = ⟨.ok o, line, traces⟩ ∧ o.halted = true ∧
      o.output =
        some (Standard.lastBlock asked.key asked.nonce asked.counter asked.count order) ∧
      ∀ text ∈ traces, IsTrace s.traced text := by
  obtain ⟨m, made, wellFormed, quiet, room⟩ := exists_memory
  obtain ⟨b, lentMemory, allocated, lent⟩ := Buffers.exists_lent wellFormed room
  have isOrder : s.task.order = .ok order := (bind_of_ok asks.order _).trans named
  obtain ⟨heap, ran⟩ := Session.exists_effect_runLoopback asked.key asked.nonce spells s.traced
    lent allocated asks.counter isOrder
  have quest : s.quest asked.count =
      { key := asked.key.toList, nonce := asked.nonce.toList, iterations := asked.count,
        traced := s.traced } := by
    simp only [Settings.quest, asks.key, asks.nonce]
  rw [← quest] at ran
  obtain ⟨_, told⟩ :=
    Session.prints_runLoopback s.task (s.quest asked.count) rfl m quiet
  let block := Standard.lastBlock asked.key asked.nonce asked.counter asked.count order
  let o : Oracle :=
    { key := asked.key, nonce := asked.nonce, iterations := asked.count, traced := s.traced }
  refine ⟨o.finished b block,
    ((Session.runLoopback s.task (s.quest asked.count)).run m).printed, ?_, rfl, rfl, told⟩
  have alone := run_withLocal_onSecond (run_eq_of_effect ran) line
  rw [runOracle, if_neg (not_not.2 inPlace), run_bind_of_ok (run_liftM_of_ok made line),
    run_bind_of_ok alone]
  simp only [run_pure, List.nil_append, List.append_nil]
  rfl

/-- The three ways in which a run can end: silently, with a pass or with a failure. -/
inductive Judged (fails passes : Prop) : Nat → List String → Prop
  | silent (notFailed : ¬fails) (notPassed : ¬passes) : Judged fails passes 0 []
  | passed (notFailed : ¬fails) (passed : passes) : Judged fails passes 0 ["PASS\n"]
  | failed (failed : fails) (notPassed : ¬passes) (diff : String) :
    Judged fails passes 1 ["FAIL: " ++ diff ++ "\n"]

theorem exists_judged {s : Settings} {asked : Asked} {order : ByteOrder} (asks : s.Asks asked)
    (named : ByteOrder.ofName asked.order = .ok order)
    (sized : ∀ e, s.expected = some e → e.length = 64) {o : Oracle} (ended : o.halted = true)
    {block : Bytes}
    (isBlock : block = Standard.lastBlock asked.key asked.nonce asked.counter asked.count order)
    (shown : o.output = some block) (line : Line) :
    ∃ code verdict,
      (judge o (s.expectation asked.count)).run line = ⟨.ok code, line, verdict⟩ ∧
      Judged (∃ e, s.expected = some e ∧ e ≠ block)
        (s.expected = some block ∨ s.expected = none ∧ asked.IsExample) code verdict := by
  have length : block.length = 64 := isBlock ▸ Standard.length_lastBlock ..
  cases held : s.expectation asked.count with
  | none =>
    have free (e : Bytes) := mt (expectation_eq_some_iff (e := e) asks).2 (by simp [held])
    refine ⟨0, [], rfl, .silent ?_ ?_⟩
    · rintro ⟨e, given, _⟩
      exact free e (.inl given)
    · rintro (given | ⟨absent, own⟩)
      · exact free block (.inl given)
      · exact free _ (.inr ⟨absent, own, rfl⟩)
  | some e =>
    have expected := (expectation_eq_some_iff asks).1 held
    by_cases like : e = block
    · subst like
      refine ⟨0, _, run_judge_self ended shown line, .passed ?_ ?_⟩
      · rintro ⟨e', given, other⟩
        rcases expected with same | ⟨absent, _⟩
        · exact other (Option.some.inj (given.symm.trans same))
        · cases absent.symm.trans given
      · exact expected.imp id fun ⟨absent, own, _⟩ => ⟨absent, own⟩
    · have given : s.expected = some e := expected.resolve_right fun ⟨_, own, same⟩ =>
        like (same.trans ((lastBlock_of_isExample own named).symm.trans isBlock.symm))
      obtain ⟨diff, judged⟩ := exists_run_judge_other ended shown (by omega)
        ((sized e given).trans length.symm) like line
      refine ⟨1, _, judged, .failed ⟨e, given, like⟩ ?_ diff⟩
      rintro (same | ⟨absent, _⟩)
      · exact like (Option.some.inj (given.symm.trans same))
      · cases absent.symm.trans given

theorem check_eq_ok {s : Settings} (inPlace : s.device = "") (n : Nat) : s.check n = .ok () := by
  unfold Settings.check
  rw [if_neg (by omega), if_neg (by simp [inPlace])]
  rfl

theorem run_of_accepted {args : List String} {s : Settings} {asked : Asked}
    (spells : Machine.Spells asked.count) (accepted : read rules {} args = .ok (some s))
    (asks : s.Asks asked) (inPlace : s.device = "" ∧ s.serve = "") {line : Line} {o : Oracle}
    {block : Bytes} {code : Nat} {traces verdict : List String}
    (ran : (runOracle s asked.count).run line = ⟨.ok o, line, traces⟩)
    (shown : o.output = some block)
    (judged : (judge o (s.expectation asked.count)).run line = ⟨.ok code, line, verdict⟩) :
    (run args).run line =
      ⟨.ok (.status code), line, traces ++ printout asked.count block ++ verdict⟩ := by
  have executed : (execute s asked.count).run line =
      ⟨.ok code, line, traces ++ printout asked.count block ++ verdict⟩ := by
    rw [execute, if_neg (not_not.2 inPlace.2), run_bind_of_ok ran,
      run_bind_of_ok (run_liftM_of_ok (Machine.decimal_of_spells spells) line),
      run_bind_of_ok (run_printLine _ line), run_bind_of_ok (run_printLines _ line), judged, shown]
    simp [printout, toString]
  rw [CommandLine.run, accepted]
  dsimp only
  rw [run_bind_of_ok (run_liftM_of_ok asks.count line), check_eq_ok inPlace.1]
  dsimp only
  rw [run_bind_of_ok executed]
  simp

theorem announces_singleton {word text : String} :
    Announces word [text] ↔ word.toList <+: text.toList := by
  simp [Announces]

theorem plain_printout (count : Nat) (block : Bytes) :
    ∀ text ∈ printout count block, Plain text := by
  refine List.forall_mem_map.2 (List.forall_mem_cons.2 ⟨?_, fun row member => ?_⟩)
  · exact ⟨'O', by simp [toString], by decide, by decide⟩
  · exact (Dump.plain_rowLines _ _ _ _ row member).append _

theorem Judged.reports {fails passes : Prop} {code : Nat} {verdict : List String}
    (judged : Judged fails passes code verdict) {traces : List String} {traced : Bool}
    (told : ∀ text ∈ traces, IsTrace traced text) (count : Nat) (block : Bytes) (line : Line) :
    Reports ⟨.ok (.status code), line, traces ++ printout count block ++ verdict⟩ traced count block
      fails passes := by
  have last {word : String} (capital : word.toList.head? ∈ [some 'P', some 'F']) :
      Announces word (traces ++ printout count block ++ verdict) ↔ Announces word verdict := by
    have before : ∀ text ∈ traces ++ printout count block, Plain text :=
      List.forall_mem_append.2 ⟨fun text member => (told text member).2, plain_printout count block⟩
    rw [announces_append]
    exact or_iff_right (not_announces_of_plain capital before)
  cases judged with
  | silent notFailed notPassed =>
    refine ⟨.inr ⟨notFailed, rfl⟩, (last (by decide)).trans ?_, (last (by decide)).trans ?_,
      traces, [], rfl, told, by simp, by simp⟩
    · simp [Announces, notFailed]
    · simp [Announces, notPassed]
  | passed notFailed passed =>
    refine ⟨.inr ⟨notFailed, rfl⟩, (last (by decide)).trans ?_, (last (by decide)).trans ?_,
      traces, _, rfl, told, by simp, by simp [passed]⟩
    · simp [announces_singleton, notFailed]
    · simp [announces_singleton, passed]
  | failed failed notPassed diff =>
    refine ⟨.inl ⟨failed, rfl⟩, (last (by decide)).trans ?_, (last (by decide)).trans ?_,
      traces, _, rfl, told, by simp, by simp [failed]⟩
    · simp [announces_singleton, failed]
    · simp [announces_singleton, notPassed]

/-- The verdict comes last, behind the trace and the dump of the block. -/
theorem run_reports_verdict {args : List String} {s : Settings}
    (accepted : read rules {} args = .ok (some s)) (whole : s.Whole)
    (inPlace : s.device = "" ∧ s.serve = "") (counted : ∀ n, s.iterations = .value n → 0 ≤ n)
    (line : Line) :
    ∃ asked order, s.Asks asked ∧ ByteOrder.ofName asked.order = .ok order ∧
      let block := Standard.lastBlock asked.key asked.nonce asked.counter asked.count order
      Reports ((run args).run line) s.traced asked.count block
        (∃ e, s.expected = some e ∧ e ≠ block)
        (s.expected = some block ∨ s.expected = none ∧ asked.IsExample) := by
  have sized := sized_of_read accepted
  obtain ⟨asked, order, asks, named⟩ := exists_asked sized whole counted
  refine ⟨asked, order, asks, named, ?_⟩
  intro block
  have spells := sized.spells asks
  obtain ⟨o, traces, ran, ended, shown, told⟩ :=
    exists_run_runOracle spells asks named inPlace.1 line
  have blocks (e : Bytes) (given : s.expected = some e) : e.length = 64 :=
    (sized.expected e given).resolve_left fun none => whole.expected (none ▸ given)
  obtain ⟨code, verdict, judgement, judged⟩ :=
    exists_judged asks named blocks ended rfl shown line
  rw [run_of_accepted spells accepted asks inPlace ran shown judgement]
  exact judged.reports told _ _ _

end

/-- Two blocks in big order, the second of which is not all zeros. -/
theorem run_reports_verdict_on_zeros :
    let args := ["-n", "2", "--expect", String.ofList (List.replicate 128 '0'), "-bbig"]
    let s : Settings :=
      { iterations := .value 2, order := .value "big", expected := some (List.replicate 64 0) }
    read rules {} args = .ok (some s) ∧ s.Whole ∧ (s.device = "" ∧ s.serve = "") ∧
      (∀ n, s.iterations = .value n → 0 ≤ n) ∧
      ∀ line : Line, ∃ asked order, s.Asks asked ∧ ByteOrder.ofName asked.order = .ok order ∧
        let block := Standard.lastBlock asked.key asked.nonce asked.counter asked.count order
        Reports ((run args).run line) s.traced asked.count block
          (∃ e, s.expected = some e ∧ e ≠ block)
          (s.expected = some block ∨ s.expected = none ∧ asked.IsExample) := by
  intro args s
  have accepted : read rules {} args = .ok (some s) := by decide +kernel
  have whole : s.Whole := by constructor <;> decide
  have counted : ∀ n, s.iterations = .value n → 0 ≤ n := by
    intro n same
    cases same
    decide
  exact ⟨accepted, whole, ⟨rfl, rfl⟩, counted,
    run_reports_verdict accepted whole ⟨rfl, rfl⟩ counted⟩

end CommandLine

end Keystream
