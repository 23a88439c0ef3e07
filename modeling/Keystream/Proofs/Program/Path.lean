import Keystream.Program.Basic
import Keystream.Proofs.Effect
import Mathlib.Data.List.Basic
/-!
Paths of a program: the calls of its channel one after another, with what came of each and the
phases before and after it. An answered signal moves the program on, one that fails leaves it where
it is, and behind the halt there is no call.
-/
namespace Keystream

open Keystream.Action

/-- One call of a channel, and what came of it. -/
inductive Event where
  | signal (sig value : Int) (answer : Except Error Int)
  | halt (answer : Except Error Unit)

namespace Event

def isDisplay (sig : Int) : Bool := sig = Signal.displayBytes.code || sig = Signal.displayWords.code

/-- A signal that was answered, unless it only asks to show something. -/
def completed? : Event → Option (Int × Int)
  | signal sig value (.ok _) => if isDisplay sig then none else some (sig, value)
  | signal _ _ (.error _) | halt _ => none

/-- Whether this is what a channel makes of `t`, leaving `u`. -/
def Occurs {σ : Type} (channel : Channel σ) (t u : σ) : Event → Prop
  | signal sig value answer => (channel.signal sig value).effect t = (answer, u)
  | halt answer => channel.halt.effect t = (answer, u)

end Event

def Action.logging {μ π α : Type} (a : Action (μ × π) α) (event : Except Error α → Event) :
    Action (μ × π × List Event) α := fun (m, peer, log) =>
  let done := a (m, peer)
  ⟨done.result, (done.state.1, done.state.2, log ++ [event done.result]), done.printed⟩

def Channel.logged {π : Type} (channel : Channel (Target π)) :
    Channel (Target (π × List Event)) where
  signal sig value := (channel.signal sig value).logging (.signal sig value)
  halt := channel.halt.logging .halt

def Buffers.signals (b : Buffers) : List (Int × Int) :=
  [(Signal.keyAddress.code, b.key), (Signal.nonceAddress.code, b.nonce),
    (Signal.iterations.code, 0), (Signal.outputAddress.code, b.output),
    (Signal.outputAddress.code, b.output)]

def Phase.next (answer : Int) : Phase → Phase
  | idle => keyPublished
  | keyPublished => noncePublished
  | noncePublished => iterationsKnown answer
  | iterationsKnown count => looping count
  | looping count => outputAnnounced count
  | phase => phase

def Phase.rank (p : Phase) : Nat := p.stage.rank

namespace Program

variable {π : Type} {b : Buffers}

/-- What a call of the channel makes of the phase. The signal that is due is the one at its rank. -/
inductive Move (b : Buffers) : Phase → Event → Phase → Prop
  | answered {phase : Phase} {sig value : Int} (due : b.signals[phase.rank]? = some (sig, value))
      (r : Int) : Move b phase (.signal sig value (.ok r)) (phase.next r)
  | failed {phase : Phase} {sig value : Int} (due : b.signals[phase.rank]? = some (sig, value))
      (e : Error) : Move b phase (.signal sig value (.error e)) phase
  | shown {phase : Phase} (running : phase.stage ≠ .halted) {sig : Int}
      (display : Event.isDisplay sig = true) (value : Int) (answer : Except Error Int) :
      Move b phase (.signal sig value answer) phase
  | halted (count : Int) (answer : Except Error Unit) :
      Move b (.outputAnnounced count) (.halt answer) (.halted count)

/-- A call of the channel between two phases. -/
structure Exchange where
  before : Phase
  event : Event
  after : Phase

/-- Whether a program that begins in one state passes through these calls to another. -/
inductive Path (channel : Channel (Target π)) (b : Buffers) :
    Running π → List Exchange → Running π → Prop
  | done (s : Running π) : Path channel b s [] s
  /-- Work on memory and buffers, of which the host sees nothing. -/
  | work {m n : Memory} {peer : π} {p q : Program} {xs : List Exchange} {s : Running π}
      (same : q.phase = p.phase) (rest : Path channel b ((n, peer), q) xs s) :
      Path channel b ((m, peer), p) xs s
  | call {t u : Target π} {p : Program} {event : Event} {phase : Phase} {xs : List Exchange}
      {s : Running π} (move : Move b p.phase event phase) (occurs : event.Occurs channel t u)
      (rest : Path channel b (u, { p with phase }) xs s) :
      Path channel b (t, p) (⟨p.phase, event, phase⟩ :: xs) s

/-! What a move does. -/

theorem rank_next {phase : Phase} (due : phase.rank < 5) (r : Int) :
    (phase.next r).rank = phase.rank + 1 := by
  cases phase with
  | idle | keyPublished | noncePublished | iterationsKnown | looping => rfl
  | outputAnnounced => exact absurd (show 5 < 5 from due) (by decide)
  | halted => exact absurd (show 6 < 5 from due) (by decide)

theorem isDisplay_eq_false {sig : Int × Int} (member : sig ∈ b.signals) :
    Event.isDisplay sig.1 = false := by
  simp only [Buffers.signals, List.mem_cons, List.not_mem_nil, or_false] at member
  rcases member with rfl | rfl | rfl | rfl | rfl <;> rfl

theorem rank_lt_of_due {phase : Phase} {sig : Int × Int}
    (due : b.signals[phase.rank]? = some sig) : phase.rank < 5 :=
  (List.getElem?_eq_some_iff.1 due).1

namespace Move

variable {phase next : Phase} {event : Event}

theorem rank_le (move : Move b phase event next) : phase.rank ≤ next.rank := by
  cases move with
  | answered due r => exact rank_next (rank_lt_of_due due) r ▸ Nat.le_succ _
  | failed | shown => exact Nat.le_refl _
  | halted => exact Nat.le_succ 5

theorem take_append (move : Move b phase event next) :
    b.signals.take phase.rank ++ event.completed?.toList = b.signals.take next.rank := by
  cases move with
  | @answered _ sig value due r =>
    have ordinary := isDisplay_eq_false (List.mem_of_getElem? due)
    rw [rank_next (rank_lt_of_due due), List.take_add_one, due]
    simp only [Event.completed?, ordinary]
    rfl
  | failed => exact List.append_nil _
  | @shown _ running sig display value answer =>
    cases answer with
    | error => exact List.append_nil _
    | ok =>
      simp only [Event.completed?, display]
      exact List.append_nil _
  | halted => rfl

theorem eq_of_failed {sig value : Int} {e : Error}
    (move : Move b phase (.signal sig value (.error e)) next) : next = phase := by
  cases move <;> rfl

theorem rank_of_halt {answer : Except Error Unit} (move : Move b phase (.halt answer) next) :
    phase.rank = 5 ∧ next.stage = .halted := by
  cases move
  exact ⟨rfl, rfl⟩

theorem running (move : Move b phase event next) : phase.stage ≠ .halted := by
  cases move with
  | answered due | failed due =>
    intro ended
    have := rank_lt_of_due due
    rw [Phase.rank, ended] at this
    exact absurd this (by decide)
  | shown running => exact running
  | halted => exact nofun

end Move

namespace Path

variable {channel : Channel (Target π)} {s t u : Running π} {xs ys : List Exchange}

theorem append (first : Path channel b s xs t) (second : Path channel b t ys u) :
    Path channel b s (xs ++ ys) u := by
  induction first with
  | done => exact second
  | work same _ ih => exact .work same (ih second)
  | call move occurs _ ih => exact .call move occurs (ih second)

theorem rank_le (path : Path channel b s xs t) : s.2.phase.rank ≤ t.2.phase.rank := by
  induction path with
  | done => exact Nat.le_refl _
  | work same _ ih => exact same ▸ ih
  | call move _ _ ih => exact Nat.le_trans move.rank_le ih

theorem move_of_mem (path : Path channel b s xs t) {x : Exchange} (member : x ∈ xs) :
    Move b x.before x.event x.after := by
  induction path with
  | done => cases member
  | work _ _ ih => exact ih member
  | call move _ _ ih =>
    rcases List.mem_cons.1 member with rfl | member
    · exact move
    · exact ih member

theorem take_append (path : Path channel b s xs t) :
    b.signals.take s.2.phase.rank ++ (xs.map Exchange.event).filterMap Event.completed? =
      b.signals.take t.2.phase.rank := by
  induction path with
  | done => exact List.append_nil _
  | work same _ ih => exact same ▸ ih
  | @call _ _ p event phase xs s move _ _ ih =>
    have front : (event :: xs.map Exchange.event).filterMap Event.completed? =
        event.completed?.toList ++ (xs.map Exchange.event).filterMap Event.completed? := by
      cases h : event.completed? <;> simp [h]
    rw [List.map_cons, front, ← List.append_assoc, move.take_append]
    exact ih

theorem eq_nil_of_halted (path : Path channel b s xs t) (ended : s.2.phase.stage = .halted) :
    xs = [] := by
  induction path with
  | done => rfl
  | work same _ ih => exact ih (same ▸ ended)
  | call move _ _ _ => exact absurd ended move.running

theorem exists_split (path : Path channel b s xs t) {before rest : List Exchange} {x : Exchange}
    (cut : xs = before ++ x :: rest) :
    ∃ t₁ t₂, Path channel b s before t₁ ∧ t₁.2.phase = x.before ∧ t₂.2.phase = x.after ∧
      Path channel b t₂ rest t := by
  induction path generalizing before with
  | done => cases before <;> cases cut
  | work same _ ih =>
    obtain ⟨t₁, t₂, first, isBefore, isAfter, second⟩ := ih cut
    exact ⟨t₁, t₂, .work same first, isBefore, isAfter, second⟩
  | @call t u p event phase xs s move occurs path ih =>
    cases before with
    | nil =>
      obtain ⟨rfl, rfl⟩ := List.cons.inj cut
      exact ⟨_, _, .done _, rfl, rfl, path⟩
    | cons y before =>
      obtain ⟨rfl, inner⟩ := List.cons.inj cut
      obtain ⟨t₁, t₂, first, isBefore, isAfter, second⟩ := ih inner
      exact ⟨t₁, t₂, .call move occurs first, isBefore, isAfter, second⟩

theorem of_halt (path : Path channel b s xs t) (begins : s.2.phase.rank = 0)
    {before rest : List Exchange} {x : Exchange} (cut : xs = before ++ x :: rest)
    {answer : Except Error Unit} (halts : x.event = .halt answer) :
    (before.map Exchange.event).filterMap Event.completed? = b.signals ∧ rest = [] := by
  have move := path.move_of_mem (x := x) (cut ▸ List.mem_append_right _ List.mem_cons_self)
  rw [halts] at move
  obtain ⟨all, ended⟩ := move.rank_of_halt
  obtain ⟨t₁, t₂, first, isBefore, isAfter, second⟩ := path.exists_split cut
  refine ⟨?_, second.eq_nil_of_halted (isAfter ▸ ended)⟩
  have completed := first.take_append
  rwa [begins, isBefore, all] at completed

/-- The log of a channel holds what the path passes through. -/
theorem log_eq {channel : Channel (Target π)} {s t : Running (π × List Event)}
    (path : Path channel.logged b s xs t) :
    t.1.2.2 = s.1.2.2 ++ xs.map Exchange.event := by
  induction path with
  | done => exact (List.append_nil _).symm
  | work _ _ ih => exact ih
  | @call t u p event phase xs s _ occurs _ ih =>
    have noted : u.2.2 = t.2.2 ++ [event] := by
      cases event with
      | signal sig value answer =>
        obtain ⟨rfl, rfl⟩ := Prod.mk.inj occurs
        rfl
      | halt answer =>
        obtain ⟨rfl, rfl⟩ := Prod.mk.inj occurs
        rfl
    rw [ih, List.map_cons, List.append_cons]
    exact congrArg (· ++ _) noted

end Path

end Program

end Keystream
