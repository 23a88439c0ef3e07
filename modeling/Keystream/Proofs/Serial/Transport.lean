import Keystream.Proofs.Serial.Server
import Keystream.Proofs.Serial.Turn
import Keystream.Signal.Script
/-!
Signals over a line. What the program's end sends for a signal is what the host's end has the host
answer, and what is replied to that is what the program's end takes for its answer; so a signal
over a line comes to what a signal in place comes to.
-/
namespace Keystream

open Keystream.Action Port

namespace ProgramEnd

variable {machine : Machine} {μ : Type} {begun : Bytes}

theorem keeps_inside {σ : Type} {P : σ → Prop} {a : Action σ α} (kept : Keeps P a) :
    Keeps P (inside a) := by
  refine Keeps.bind (Keeps.tryCatch (kept.bind fun _ => keeps_pure _) fun e => ?_) fun r => ?_
  · exact keeps_ite (fun _ => keeps_pure _) fun _ => keeps_throw _
  · cases r <;> exact keeps_pure _

/-- Whether all that is done to serve memory requests keeps `R`, whatever these ask for. -/
structure Serves [Machine] (mem : Option (MemoryAccess μ)) (R : μ × Link → Prop) : Prop where
  load : ∀ access ∈ mem, ∀ addr size, Keeps R (access.read addr size).onFirst
  store : ∀ access ∈ mem, ∀ addr s, Keeps R (access.write addr s).onFirst
  receive : Keeps R Link.receive.onSecond
  readFull : ∀ size, Keeps R (Link.readFull size).onSecond
  reply : ∀ magic status response, Keeps R (Link.reply magic status response).onSecond
  replyWith : ∀ magic status response s, Keeps R (Action.onSecond do
    Link.reply magic status response
    Link.write s)
  setTimeout : ∀ timeout, Keeps R (setTimeout timeout).onSecond

namespace Serves

variable {mem : Option (MemoryAccess μ)} {R : μ × Link → Prop} (keeps : Serves mem R)
include keeps

theorem serve {access : MemoryAccess μ} (given : access ∈ mem) (magic : Int) (s : Bytes) :
    Keeps R (serve access magic s) := by
  refine (keeps_liftM _).bind fun request => keeps_ite (fun _ => keeps.reply _ _ _) fun _ =>
    keeps_ite (fun _ => ?_) fun _ => ?_
  · refine (keeps.readFull _).bind fun _ => (keeps.readFull _).bind fun _ =>
      keeps_ite (fun _ => keeps.reply _ _ _) fun _ =>
        (keeps_inside (keeps.store access given _ _)).bind fun r => ?_
    cases r <;> exact keeps.reply _ _ _
  · refine (keeps_inside (keeps.load access given _ _)).bind fun r => ?_
    cases r with
    | none => exact keeps.reply _ _ _
    | some s => exact keeps.replyWith _ _ _ s

theorem await (magic : Int) (turns : Nat) : Keeps R (await mem magic turns) := by
  induction turns with
  | zero => exact keeps_throw _
  | succ turns ih =>
    refine keeps.receive.bind fun s => ?_
    cases mem with
    | none => exact keeps_liftM _
    | some access =>
      exact keeps_ite (fun _ => (keeps.serve rfl _ s).bind fun _ => ih) fun _ => keeps_liftM _

theorem awaitReply : Keeps R (awaitReply mem) :=
  keeps_get.bind fun _ => (keeps.setTimeout none).bind fun _ =>
    (keeps.await _ _).ensuring (keeps.setTimeout _)

end Serves

theorem serves_begun (mem : Option (MemoryAccess μ)) : Serves mem fun s => s.2.Begun begun where
  load _ _ _ _ := keeps_onFirst _
  store _ _ _ _ := keeps_onFirst _
  receive := (Link.keeps_begun fun _ => Link.keeps_sent_receive).onSecond
  readFull size := (Link.keeps_begun fun _ => Link.keeps_sent_readFull size).onSecond
  reply magic status response := (Link.keeps_begun_reply magic status response).onSecond
  replyWith _ _ _ s :=
    ((Link.keeps_begun_reply _ _ _).bind fun _ => Link.keeps_begun_write s).onSecond
  setTimeout _ := fun _ here => here

theorem serves_memory {mem : Option (MemoryAccess μ)} {M : μ → Prop}
    (load : ∀ access ∈ mem, ∀ addr size, Keeps M (access.read addr size))
    (store : ∀ access ∈ mem, ∀ addr s, Keeps M (access.write addr s)) :
    Serves mem fun s => M s.1 where
  load access given addr size := (load access given addr size).onFirst
  store access given addr s := (store access given addr s).onFirst
  receive := keeps_onSecond _
  readFull _ := keeps_onSecond _
  reply _ _ _ := keeps_onSecond _
  replyWith _ _ _ _ := keeps_onSecond _
  setTimeout _ := keeps_onSecond _

theorem begun_signal (mem : Option (MemoryAccess μ)) (m : μ) (l : Link) (sig : Word)
    (value : Int) :
    l.port.sent ++ Frame.encode ⟨Word.ofInt Frame.signalMagic, sig, Word.ofInt value⟩ <+:
      (((channel mem).signal (Word.toInt sig) value).effect (m, l)).2.2.port.sent := by
  obtain ⟨p, asked, view⟩ := exists_effect_signal_ask (l := l) mem m sig value rfl
  rw [asked]
  exact (serves_begun mem).awaitReply (m, p) ((View.mk.inj view).2.1 ▸ List.prefix_rfl)

end ProgramEnd

namespace Host

variable {η : Type}

def recorded (host : Host η) : Host (List Call × η) where
  signal sig value := do
    Action.onFirst (modify (· ++ [Call.signal sig value]))
    (host.signal sig value).onSecond
  halt := do
    Action.onFirst (modify (· ++ [Call.halt]))
    host.halt.onSecond

theorem effect_recorded_signal (host : Host η) (sig value : Int) (log : List Call) (o : η) :
    (host.recorded.signal sig value).effect (log, o) =
      (((host.signal sig value).effect o).1,
        (log ++ [Call.signal sig value], ((host.signal sig value).effect o).2)) := rfl

end Host

namespace HostEnd

variable {machine : Machine} {η : Type} {l : Link} {rest sent : Bytes} {limit : Option Nat}
  {timeout : Option Seconds}

def replyOf (f : Frame) : Except Error (Option Int) → Bytes
  | .ok answer => replyTo f 0 (answer.getD 0)
  | .error e => replyTo f (refusal e.kind) 0

def heard : Except Error (Option Int) → Except Error Int
  | .ok answer => .ok (Word.toInt (Word.ofInt (answer.getD 0)))
  | .error e => .error (.remote (refusal e.kind))

def refusalText : Kind → String
  | .badSignal => "Bad signal"
  | .value | .index => "Invalid argument"
  | _ => "Host failure"

theorem message_refusal (k : Kind) :
    (Error.remote (refusal k)).message = "Reply error: " ++ refusalText k := by
  cases k <;> rfl

theorem exists_effect_serveOne_signal (host : Host η) (o : η) (sig value : Word)
    (here : l.port.view =
      ⟨Frame.encode ⟨Word.ofInt Frame.signalMagic, sig, value⟩ ++ rest, sent, limit, timeout⟩)
    (hands : limit ≠ some 0) :
    let outcome := (host.signal (Word.toInt sig) (Word.toInt value)).effect o
    ∃ q, (serveOne host.beside).effect (l, o) = (outcome.1.map fun _ => true, (q, outcome.2)) ∧
      q.port.view = ⟨rest,
        sent ++ replyOf ⟨Word.ofInt Frame.signalMagic, sig, value⟩ outcome.1, limit, timeout⟩ := by
  intro outcome
  let f : Frame := ⟨Word.ofInt Frame.signalMagic, sig, value⟩
  have here : l.port.view = ⟨[] ++ (f.encode ++ rest), sent, limit, timeout⟩ := here
  rcases came : outcome with ⟨e | answer, t⟩
  · exact exists_effect_serveOne_beside_error ⟨_, Frame.bytes_signalMagic⟩ here hands unmarked_nil
      rfl came
  · exact exists_effect_serveOne_beside_ok ⟨_, Frame.bytes_signalMagic⟩ here hands unmarked_nil
      rfl came

theorem statusOf_ne_ok (e : Error) : statusOf e ≠ .ok := by
  unfold statusOf
  split <;> decide

theorem exists_effect_await_replyOf {μ : Type} (mem : Option (MemoryAccess μ)) (m : μ)
    (turns : Nat) {f : Frame} (asks : f.magic = Word.ofInt Frame.signalMagic)
    (result : Except Error (Option Int))
    (here : l.port.view = ⟨replyOf f result ++ rest, sent, limit, timeout⟩)
    (hands : limit ≠ some 0) :
    ∃ q, (ProgramEnd.await mem Frame.signalMagic (turns + 1)).effect (m, l) =
        (heard result, (m, q)) ∧
      q.port.view = ⟨rest, sent, limit, timeout⟩ := by
  rw [← List.nil_append (replyOf f result ++ rest)] at here
  cases result with
  | ok answer =>
    rw [replyOf, replyTo, asks] at here
    obtain ⟨q, told, view⟩ :=
      ProgramEnd.exists_effect_await_reply mem m turns here hands unmarked_nil
    rw [if_pos (by decide)] at told
    exact ⟨q, told, view⟩
  | error e =>
    rw [replyOf, replyTo, asks, ← code_statusOf] at here
    obtain ⟨q, told, view⟩ :=
      ProgramEnd.exists_effect_await_reply mem m turns here hands unmarked_nil
    rw [if_neg (mt (Frame.Status.ofInt_code_eq_zero_iff _).1 (statusOf_ne_ok e)),
      Frame.Status.signed_code, code_statusOf] at told
    exact ⟨q, told, view⟩

theorem exists_effect_signal_replied {μ : Type} (mem : Option (MemoryAccess μ)) (m : μ)
    (sig value : Word) (result : Except Error (Option Int))
    (here : l.port.view =
      ⟨replyOf ⟨Word.ofInt Frame.signalMagic, sig, value⟩ result ++ rest, sent, limit, timeout⟩)
    (hands : limit ≠ some 0) :
    ∃ q, ((ProgramEnd.channel mem).signal (Word.toInt sig) (Word.toInt value)).effect (m, l) =
        (heard result, (m, q)) ∧
      q.port.view = ⟨rest, sent ++ Frame.encode ⟨Word.ofInt Frame.signalMagic, sig, value⟩, limit,
        timeout⟩ := by
  obtain ⟨p, asked, view⟩ :=
    ProgramEnd.exists_effect_signal_ask mem m sig (Word.toInt value) here
  rw [Word.ofInt_toInt] at view
  obtain ⟨q, told, view⟩ := ProgramEnd.exists_effect_awaitReply mem view fun p view =>
    exists_effect_await_replyOf mem m _ rfl result view hands
  exact ⟨q, asked.trans told, view⟩

end HostEnd

namespace Signal

open HostEnd ProgramEnd

section

variable {machine : Machine} {η μ : Type}

/-- How a signal crosses a line: whatever stands there it goes out first, as `asked`; one turn of
the host's end has the host answer it once, and sends `reply`; and the program's end takes that for
its answer. Each end takes no more off the line than what the other end sends. -/
structure Crosses [Machine] (host : Host η) (o : η) (mem : Option (MemoryAccess μ))
    (sig value : Word) (asked reply : Bytes) : Prop where
  asks : ∀ (m : μ) (l : Link), l.port.sent ++ asked <+:
    (((channel mem).signal (Word.toInt sig) (Word.toInt value)).effect (m, l)).2.2.port.sent
  served : ∀ (l : Link) (tail : Bytes), l.port.unread = asked ++ tail → l.port.limit ≠ some 0 →
    ∃ q, (serveOne host.beside).effect (l, o) =
        (((host.signal (Word.toInt sig) (Word.toInt value)).effect o).1.map fun _ => true,
          (q, ((host.signal (Word.toInt sig) (Word.toInt value)).effect o).2)) ∧
      q.port.sent = l.port.sent ++ reply ∧ q.port.unread = tail
  once : ∀ (l : Link) (tail : Bytes) (log : List Call), l.port.unread = asked ++ tail →
    l.port.limit ≠ some 0 →
    ((serveOne host.recorded.beside).effect (l, (log, o))).2.2.1 =
      log ++ [Call.signal (Word.toInt sig) (Word.toInt value)]
  told : ∀ (m : μ) (l : Link) (tail : Bytes), l.port.unread = reply ++ tail →
    l.port.limit ≠ some 0 →
    ∃ q, ((channel mem).signal (Word.toInt sig) (Word.toInt value)).effect (m, l) =
        (heard ((host.signal (Word.toInt sig) (Word.toInt value)).effect o).1, (m, q)) ∧
      q.port.sent = l.port.sent ++ asked ∧ q.port.unread = tail

theorem crosses (host : Host η) (o : η) (mem : Option (MemoryAccess μ)) (sig value : Word) :
    let f : Frame := ⟨Word.ofInt Frame.signalMagic, sig, value⟩
    Crosses host o mem sig value f.encode
      (replyOf f ((host.signal (Word.toInt sig) (Word.toInt value)).effect o).1) := by
  intro f
  have spelled : ⟨Word.ofInt Frame.signalMagic, sig, Word.ofInt (Word.toInt value)⟩ = f := by
    rw [Word.ofInt_toInt]
  refine ⟨fun m l => ?_, fun l tail stands hands => ?_, fun l tail log stands hands => ?_,
    fun m l tail stands hands => ?_⟩
  · rw [← spelled]
    exact begun_signal mem m l sig _
  all_goals have here := view_of_unread stands
  · obtain ⟨q, served, view⟩ := exists_effect_serveOne_signal host o sig value here hands
    obtain ⟨unread, sent, _⟩ := View.mk.inj view
    exact ⟨q, served, sent, unread⟩
  · obtain ⟨q, served, _⟩ :=
      exists_effect_serveOne_signal host.recorded (log, o) sig value here hands
    rw [served, Host.effect_recorded_signal]
  · obtain ⟨q, told, view⟩ := exists_effect_signal_replied mem m sig value _ here hands
    obtain ⟨unread, sent, _⟩ := View.mk.inj view
    exact ⟨q, told, sent, unread⟩

/-- A signal over a line is as good as one that stays in place: the host is asked once, by the same
numbers, and the program hears the same answer, if that is a word. If the host fails the program
hears of which sort the failure was. -/
theorem line_carries_signals (host : Host η) (o : η) (mem : Option (MemoryAccess μ))
    (sig value : Word) :
    let outcome := (host.signal (Word.toInt sig) (Word.toInt value)).effect o
    (∃ asked reply, Crosses host o mem sig value asked reply) ∧
      (∀ answer traced, outcome.1 = .ok answer → (∀ r ∈ answer, 0 ≤ r ∧ r < 0x100000000) →
        ((host.loopback traced).signal (Word.toInt sig) (Word.toInt value)).effect o =
          (heard outcome.1, outcome.2)) ∧
      ∀ e, outcome.1 = .error e →
        ∃ f, heard outcome.1 = .error f ∧ f.kind = .remote ∧
          f.message = "Reply error: " ++ refusalText e.kind := by
  intro outcome
  refine ⟨⟨_, _, crosses host o mem sig value⟩, fun answer traced answered isWord => ?_,
    fun e failed => ?_⟩
  · rw [Host.effect_loopback traced (Word.spells_toInt sig)]
    show (outcome.1.map _, outcome.2) = _
    rw [answered, heard, Except.map]
    cases answer with
    | none => rfl
    | some r =>
      obtain ⟨low, high⟩ := isWord r rfl
      rw [Option.getD_some, Word.toInt_ofInt_of_lt low high]
  · rw [failed]
    exact ⟨_, rfl, rfl, message_refusal e.kind⟩

end

/-- A host that answers by a number that spells a frame's beginning, and then fails. -/
theorem line_carries_signals_that_spell_a_mark :
    let host : Host Nat := {
      signal := fun sig value => do
        modify (· + 1)
        if sig = 7 then throw (.reported .index "no such sample")
        return some (value + 1)
      halt := throw .haltedEarly }
    let value : Word := 0x10AA55FE
    let mem : Option (MemoryAccess Memory) := some (Memory.access 0)
    let answered := (host.signal (Word.toInt 1) (Word.toInt value)).effect 0
    let failed := (host.signal (Word.toInt 7) (Word.toInt value)).effect 1
    answered = (.ok (some 0x10AA55FF), 1) ∧
      failed = (.error (.reported .index "no such sample"), 2) ∧
      (∃ asked reply, Crosses host 0 mem 1 value asked reply) ∧
      ((host.loopback true).signal (Word.toInt 1) (Word.toInt value)).effect 0 =
        (heard answered.1, answered.2) ∧
      (∃ asked reply, Crosses host 1 mem 7 value asked reply) ∧
      ∃ f, heard failed.1 = .error f ∧ f.kind = .remote ∧
        f.message = "Reply error: " ++ refusalText .index := by
  intro host value mem answered failed
  obtain ⟨crosses, same, _⟩ := line_carries_signals host 0 mem 1 value
  obtain ⟨crosses', _, refused⟩ := line_carries_signals host 1 mem 7 value
  have isWord : ∀ r ∈ some (0x10AA55FF : Int), 0 ≤ r ∧ r < 0x100000000 := by
    rintro _ ⟨⟩
    decide
  exact ⟨rfl, rfl, crosses, same _ true rfl isWord, crosses', refused _ rfl⟩

end Signal

end Keystream
