import Keystream.Proofs.Program.Methods
/-!
Calls of a program's methods, in any order and over any channel. Whatever the host does, the
program keeps to its path: its phase tells which signals were completed, one that fails changes
nothing of it, and a call out of order is refused before anything is sent.
-/
namespace Keystream.Program

open Keystream.Action

inductive Call where
  | publishKey
  | publishNonce
  | requestIterations
  | generate
  | halt
  | run
  | showBytes (addr length : Int)
  | showWords (addr length : Int)

namespace Call

variable {π : Type}

def perform [Machine] (channel : Channel (Target π)) : Call → Action (Running π) Unit
  | publishKey => Program.publishKey channel
  | publishNonce => Program.publishNonce channel
  | requestIterations => do let _ ← Program.requestIterations channel
  | generate => do let _ ← Program.generate channel
  | halt => Program.halt channel
  | run => do let _ ← Program.run channel
  | showBytes addr length => Program.showBytes channel addr length
  | showWords addr length => Program.showWords channel addr length

/-- Why a program at the stage `actual` refuses a call, if it does. -/
def refusal? (actual : Stage) : Call → Option Error
  | publishKey | run => notAt .idle
  | publishNonce => notAt .keyPublished
  | requestIterations => notAt .noncePublished
  | generate => notAt .iterationsKnown
  | halt => notAt .outputAnnounced
  | showBytes .. => behindHalt .displayBytes
  | showWords .. => behindHalt .displayWords
where
  notAt (expected : Stage) : Option Error :=
    if actual = expected then none else some (.wrongStage expected actual)
  behindHalt (sig : Signal) : Option Error :=
    if actual = .halted then some (.programHalted sig.code) else none

end Call

variable {machine : Machine} {π : Type} {channel : Channel (Target π)} {b : Buffers}
  {s : Running π} {e : Error}

theorem kind_of_refused {actual : Stage} {call : Call} (refused : call.refusal? actual = some e) :
    e.kind = .program := by
  cases call <;>
  · simp only [Call.refusal?, Call.refusal?.notAt, Call.refusal?.behindHalt] at refused
    split at refused <;> cases refused
    rfl

theorem run_expect_bind {stage : Stage} {f : Unit → Action (Running π) α}
    (refused : Call.refusal?.notAt s.2.phase.stage stage = some e) :
    (expect stage >>= f).run s = ⟨.error e, s, []⟩ := by
  have other : (expect stage : Action (Running π) Unit).run s = ⟨.error e, s, []⟩ := by
    rw [Call.refusal?.notAt] at refused
    split at refused
    · cases refused
    · next other =>
      cases refused
      rw [expect, run_get_bind, if_pos other]
      rfl
  exact run_bind_of_error other f

theorem run_signal_bind {sig : Signal} {value : Int} {f : Int → Action (Running π) α}
    (refused : Call.refusal?.behindHalt s.2.phase.stage sig = some e) :
    (signal channel sig value >>= f).run s = ⟨.error e, s, []⟩ := by
  have other : (signal channel sig value).run s = ⟨.error e, s, []⟩ := by
    rw [Call.refusal?.behindHalt] at refused
    split at refused
    · next ended =>
      cases refused
      rw [signal, run_get_bind, if_pos ended]
      rfl
    · cases refused
  exact run_bind_of_error other f

theorem run_expectIterations
    (refused : Call.refusal?.notAt s.2.phase.stage .iterationsKnown = some e) :
    (expectIterations : Action (Running π) Int).run s = ⟨.error e, s, []⟩ := by
  rw [expectIterations, run_get_bind]
  rw [Call.refusal?.notAt] at refused
  cases here : s.2.phase <;> rw [here] at refused <;> cases refused <;> rfl

theorem run_halt_of_refused
    (refused : Call.refusal?.notAt s.2.phase.stage .outputAnnounced = some e) :
    (halt channel).run s = ⟨.error e, s, []⟩ := by
  rw [halt, run_get_bind]
  rw [Call.refusal?.notAt] at refused
  cases here : s.2.phase <;> rw [here] at refused <;> cases refused <;> rfl

theorem run_of_refused {call : Call} (refused : call.refusal? s.2.phase.stage = some e) :
    (call.perform channel).run s = ⟨.error e, s, []⟩ := by
  cases call with
  | publishKey | publishNonce => exact run_expect_bind refused
  | requestIterations => exact run_bind_of_error (run_expect_bind refused) _
  | run => exact run_bind_of_error (run_bind_of_error (run_expect_bind refused) _) _
  | generate => exact run_bind_of_error (run_bind_of_error (run_expectIterations refused) _) _
  | halt => exact run_halt_of_refused refused
  | showBytes | showWords => exact run_signal_bind refused

theorem leads_of_admitted {call : Call} {phase : Phase}
    (admitted : call.refusal? phase.stage = none) :
    Leads channel b phase (call.perform channel) fun _ _ => True := by
  have shows {sig : Signal} (allowed : Call.refusal?.behindHalt phase.stage sig = none) :
      phase.stage ≠ .halted := by
    rintro ended
    rw [Call.refusal?.behindHalt, if_pos ended] at allowed
    cases allowed
  cases call with
  | publishKey =>
    cases phase with
    | idle => exact leads_publishKey.forget
    | _ => cases admitted
  | publishNonce =>
    cases phase with
    | keyPublished => exact leads_publishNonce.forget
    | _ => cases admitted
  | requestIterations =>
    cases phase with
    | noncePublished => exact leads_requestIterations.bind fun _ _ _ => leads_pure trivial
    | _ => cases admitted
  | generate =>
    cases phase with
    | iterationsKnown count => exact (leads_generate count).bind fun _ _ _ => leads_pure trivial
    | _ => cases admitted
  | halt =>
    cases phase with
    | outputAnnounced count => exact leads_halt count
    | _ => cases admitted
  | run =>
    cases phase with
    | idle => exact leads_run.bind fun _ _ _ => leads_pure trivial
    | _ => cases admitted
  | showBytes | showWords => exact leads_show (shows admitted) rfl _

theorem exists_path_of_call (call : Call) (same : s.2.buffers.addresses = b.addresses) :
    (∃ xs, Path channel b s xs ((call.perform channel).effect s).2) ∧
      ((call.perform channel).effect s).2.2.buffers.addresses = b.addresses := by
  cases judged : call.refusal? s.2.phase.stage with
  | some e =>
    have stays : ((call.perform channel).effect s).2 = s := by
      rw [effect, run_of_refused judged]
    rw [stays]
    exact ⟨⟨[], .done s⟩, same⟩
  | none =>
    obtain ⟨path, same, _⟩ := leads_of_admitted judged s rfl same
    exact ⟨path, same⟩

theorem exists_path_of_calls (calls : List Call) (same : s.2.buffers.addresses = b.addresses) :
    ∃ xs, Path channel b s xs (after (calls.map (Call.perform channel)) s) := by
  induction calls generalizing s with
  | nil => exact ⟨[], .done s⟩
  | cons call calls ih =>
    obtain ⟨⟨xs, path⟩, same⟩ := exists_path_of_call call same
    obtain ⟨ys, further⟩ := ih same
    exact ⟨xs ++ ys, path.append further⟩

theorem keeps_addresses (calls : List Call) (same : s.2.buffers.addresses = b.addresses) :
    (after (calls.map (Call.perform channel)) s).2.buffers.addresses = b.addresses := by
  induction calls generalizing s with
  | nil => exact same
  | cons call calls ih => exact ih (exists_path_of_call call same).2

theorem take_rank (p : Phase) : b.signals.take (min 5 p.rank) = b.signals.take p.rank := by
  cases p <;> rfl

/-- On the buffers that a program was given, whatever is asked of it and whatever its host does. -/
theorem calls_keep_to_path (channel : Channel (Target π)) (m : Memory) (peer : π)
    (buffers : Buffers) (counter : Except Error Int) (order : Except Error ByteOrder)
    (traced : Bool) (calls : List Call) :
    let begun : Running (π × List Event) := ((m, peer, []), { buffers, counter, order, traced })
    let state (calls : List Call) := after (calls.map (Call.perform channel.logged)) begun
    let s := state calls
    let log := s.1.2.2
    log.filterMap Event.completed? = buffers.signals.take (min 5 s.2.phase.rank) ∧
      (∀ more, s.2.phase.rank ≤ (state (calls ++ more)).2.phase.rank) ∧
      (∃ xs, Path channel.logged buffers begun xs s ∧ xs.map Exchange.event = log ∧
        ∀ x ∈ xs, x.before.rank ≤ x.after.rank ∧
          ∀ sig value e, x.event = .signal sig value (.error e) → x.after = x.before) ∧
      (∀ (call : Call) (e : Error), call.refusal? s.2.phase.stage = some e →
        e.kind = .program ∧ (call.perform channel.logged).run s = ⟨.error e, s, []⟩) ∧
      ∀ before answer rest, log = before ++ .halt answer :: rest →
        before.filterMap Event.completed? = buffers.signals ∧ rest = [] := by
  intro begun state s log
  obtain ⟨xs, path⟩ : ∃ xs, Path channel.logged buffers begun xs s := exists_path_of_calls calls rfl
  have logged : log = xs.map Exchange.event := path.log_eq
  refine ⟨?_, fun more => ?_, ⟨xs, path, logged.symm, fun x member => ?_⟩, fun call e refused => ?_,
    fun before answer rest cut => ?_⟩
  · have completed := path.take_append
    rw [← logged] at completed
    rw [take_rank]
    exact completed
  · obtain ⟨ys, further⟩ : ∃ ys, Path channel.logged buffers s ys
        (after (more.map (Call.perform channel.logged)) s) :=
      exists_path_of_calls more (keeps_addresses calls rfl)
    have joined : state (calls ++ more) = after (more.map (Call.perform channel.logged)) s := by
      simp only [state, List.map_append, after_append]
      rfl
    rw [joined]
    exact further.rank_le
  · have move := path.move_of_mem member
    exact ⟨move.rank_le, fun sig value e failed => Move.eq_of_failed (failed ▸ move)⟩
  · exact ⟨kind_of_refused refused, run_of_refused refused⟩
  · rw [logged] at cut
    obtain ⟨front, back, split, rfl, backs⟩ := List.map_eq_append_iff.1 cut
    obtain ⟨x, last, rfl, halts, rfl⟩ := List.map_eq_cons_iff.1 backs
    obtain ⟨completed, rfl⟩ := path.of_halt rfl split halts
    exact ⟨completed, rfl⟩

end Keystream.Program
