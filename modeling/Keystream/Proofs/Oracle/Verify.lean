import Keystream.Proofs.Oracle.History
/-!
What a check of the output comes to. A mismatch is reported word by word, which takes an expectation
as long as the output: any other one breaks a condition of the report before there is a mismatch to
tell of.
-/
namespace Keystream

namespace WordDiff

def Comparable (old new : Bytes) : Prop := new.length % 4 = 0 ∧ old.length = new.length

instance (old new : Bytes) : Decidable (Comparable old new) :=
  inferInstanceAs (Decidable (_ ∧ _))

theorem render_of_not_comparable {old new : Bytes} (uneven : ¬Comparable old new) (ascii : Bool) :
    render old new ascii = .error .unevenDiff :=
  if_neg uneven

end WordDiff

namespace Oracle

open WordDiff

section

variable {o : Oracle} {block expected : Bytes}

theorem verify_of_running (running : o.halted = false) : o.verify expected = .error .notHalted := by
  rw [verify, running]
  rfl

theorem verify_of_silent (ended : o.halted = true) (silent : o.output = none) :
    o.verify expected = .error .noOutput := by
  simp only [verify, ended, silent, Bool.not_true, Bool.false_eq_true, if_false]
  rfl

theorem verify_of_other (ended : o.halted = true) (shown : o.output = some block)
    (other : block ≠ expected) :
    o.verify expected = (render expected block true >>= fun diff => throw (.mismatch diff)) := by
  simp only [verify, ended, shown, Bool.not_true, Bool.false_eq_true, if_false]
  exact if_pos other

end

/-- What a check can come to, each with its cause. -/
inductive Verdict (o : Oracle) (expected : Bytes) : Except Error Unit → Prop
  | running (running : o.halted = false) : Verdict o expected (.error .notHalted)
  | silent (ended : o.halted = true) (silent : o.output = none) :
      Verdict o expected (.error .noOutput)
  | passed (ended : o.halted = true) (shown : o.output = some expected) :
      Verdict o expected (.ok ())
  | mismatch {block : Bytes} {diff : String} (ended : o.halted = true)
      (shown : o.output = some block) (other : block ≠ expected)
      (comparable : Comparable expected block)
      (reported : render expected block true = .ok diff) :
      Verdict o expected (.error (.mismatch diff))
  | uneven {block : Bytes} (ended : o.halted = true) (shown : o.output = some block)
      (other : block ≠ expected) (uneven : ¬Comparable expected block) :
      Verdict o expected (.error .unevenDiff)

theorem verdict_verify (o : Oracle) (expected : Bytes) :
    Verdict o expected (o.verify expected) := by
  cases ended : o.halted with
  | false => exact verify_of_running ended ▸ .running ended
  | true =>
    rcases shown : o.output with _ | block
    · exact verify_of_silent ended shown ▸ .silent ended shown
    by_cases same : block = expected
    · subst same
      exact verify_eq_ok.2 ⟨ended, shown⟩ ▸ .passed ended shown
    rw [verify_of_other ended shown same]
    by_cases comparable : Comparable expected block
    · obtain ⟨diff, reported⟩ := exists_render comparable.1 comparable.2 true
      rw [reported]
      exact .mismatch ended shown same comparable reported
    · rw [render_of_not_comparable comparable]
      exact .uneven ended shown same comparable

def Fails (o : Oracle) (expected : Bytes) (kind : Kind) : Prop :=
  ∃ e, o.verify expected = .error e ∧ e.kind = kind

/-- What tells the kinds of failure apart. -/
structure Sorted (o : Oracle) (expected : Bytes) : Prop where
  passes : o.verify expected = .ok () ↔ o.halted = true ∧ o.output = some expected
  oracle : o.Fails expected .oracle ↔ o.halted = false ∨ o.output = none
  verification : o.Fails expected .verification ↔
    o.halted = true ∧ ∃ block, o.output = some block ∧ block ≠ expected ∧ Comparable expected block
  assertion : o.Fails expected .assertion ↔
    o.halted = true ∧ ∃ block, o.output = some block ∧ block ≠ expected ∧ ¬Comparable expected block
  others : ∀ kind, o.Fails expected kind → kind ∈ [.oracle, .verification, .assertion]
  report : ∀ diff, o.verify expected = .error (.mismatch diff) ↔
    o.halted = true ∧ ∃ block, o.output = some block ∧ block ≠ expected ∧
      render expected block true = .ok diff

theorem sorted (o : Oracle) (expected : Bytes) : o.Sorted expected := by
  have verdict := verdict_verify o expected
  rcases given : o.verify expected with e | _ <;> rw [given] at verdict
  · have fails (kind : Kind) : o.Fails expected kind ↔ e.kind = kind := by
      simp only [Fails, given, Except.error.injEq, exists_eq_left']
    cases verdict with
    | running running => constructor <;> simp [fails, given, Error.kind, running]
    | silent ended silent => constructor <;> simp [fails, given, Error.kind, ended, silent]
    | mismatch ended shown other comparable reported =>
      constructor <;>
        simp [fails, given, Error.kind, ended, shown, other, comparable, reported]
    | uneven ended shown other uneven =>
      have unreported := render_of_not_comparable uneven true
      constructor <;>
        simp [fails, given, Error.kind, ended, shown, other, uneven, unreported]
  · have fails (kind : Kind) : ¬o.Fails expected kind := fun ⟨_, failed, _⟩ =>
      nomatch given.symm.trans failed
    cases verdict with
    | passed ended shown => constructor <;> simp [fails, given, ended, shown]

theorem length_of_captured [Machine] {base : Int} {s : Memory × Oracle} {calls : List Call}
    {block : Bytes} (captured : Captured base s calls block) : block.length = 64 := by
  obtain ⟨_, _, _, _, _, _, _, rfl⟩ := captured
  exact Memory.length_stretch ..

theorem comparable_iff_of_length {expected block : Bytes} (whole : block.length = 64) :
    Comparable expected block ↔ expected.length = 64 := by
  rw [Comparable, whole]
  exact and_iff_right (by decide)

/-- A check passes, or fails, exactly as the run and its output say. A failure to compare is the one
exception: an oracle that was asked by signals fails so if it is halted, has an output, and the
expectation has not 64 bytes. -/
theorem verify_sorts_failures [Machine] (o : Oracle) (expected : Bytes) :
    o.Sorted expected ∧
      ∀ (key nonce : Bytes) (iterations : Int) (traced : Bool) (made : Oracle) (m : Memory)
        (calls : List Call), create key nonce iterations traced = .ok made →
        o = (afterCalls m.base calls (m, made)).2 →
        (o.Fails expected .verification ↔ o.halted = true ∧
          ∃ block, o.output = some block ∧ block ≠ expected ∧ expected.length = 64) ∧
        (o.Fails expected .assertion ↔
          o.halted = true ∧ o.output.isSome = true ∧ expected.length ≠ 64) := by
  have sorted := sorted o expected
  refine ⟨sorted, fun key nonce iterations traced made m calls created asked => ?_⟩
  have whole (block : Bytes) (shown : o.output = some block) : block.length = 64 := by
    have tells : (afterCalls m.base calls (m, made)).2.record.Tells m.base (m, made) calls :=
      record_tells (record_of_create created) calls
    rw [← asked] at tells
    exact length_of_captured ((tells.captured block).1 shown)
  rw [sorted.verification, sorted.assertion]
  constructor
  · refine and_congr_right fun _ => exists_congr fun block => and_congr_right fun shown => ?_
    rw [comparable_iff_of_length (whole block shown)]
  · refine and_congr_right fun _ => ⟨?_, ?_⟩
    · rintro ⟨block, shown, -, uneven⟩
      rw [comparable_iff_of_length (whole block shown)] at uneven
      exact ⟨Option.isSome_of_mem shown, uneven⟩
    · rintro ⟨some, short⟩
      obtain ⟨block, shown⟩ := Option.isSome_iff_exists.1 some
      refine ⟨block, shown, ?_, mt (comparable_iff_of_length (whole block shown)).1 short⟩
      rintro rfl
      exact short (whole block shown)

/-- An output of zeros beside one that differs, and beside one that is too short. -/
theorem verify_sorts_failures_of_zeros :
    let m : Memory := ⟨0x100, Array.replicate 64 0, ⟨0x100, 16, 4, [⟨4, false⟩], []⟩, false⟩
    let made : Oracle :=
      { key := Vector.replicate 32 1, nonce := Vector.replicate 12 2, iterations := 3,
        traced := false }
    let o := (afterCalls m.base [.signal 3 0x100, .signal 3 0x100, .halt] (m, made)).2
    create (List.replicate 32 1) (List.replicate 12 2) 3 false = .ok made ∧
      o.verify (List.replicate 64 0) = .ok () ∧
      o.Fails (List.replicate 64 1) .verification ∧
      o.Fails [] .assertion := by
  intro m made o
  have created : create (List.replicate 32 1) (List.replicate 12 2) 3 false = .ok made := rfl
  have ended : o.halted = true := by decide +kernel
  have shown : o.output = some (List.replicate 64 0) := by decide +kernel
  refine ⟨created, ?_, ?_, ?_⟩
  · exact (verify_sorts_failures o _).1.passes.2 ⟨ended, shown⟩
  · obtain ⟨verification, -⟩ :=
      (verify_sorts_failures o (List.replicate 64 1)).2 _ _ _ _ made m _ created rfl
    exact verification.2 ⟨ended, _, shown, by decide, List.length_replicate⟩
  · obtain ⟨-, assertion⟩ := (verify_sorts_failures o []).2 _ _ _ _ made m _ created rfl
    exact assertion.2 ⟨ended, by rw [shown]; rfl, by decide⟩

end Oracle

end Keystream
