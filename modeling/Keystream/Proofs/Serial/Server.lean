import Keystream.Proofs.Serial.HostEnd
/-!
The host's end of a link as a server. What `serve` makes of the bytes on a line is told by the
frames they spell: which of them the host is asked to answer, what is replied to each, and where it
ends.
-/
namespace Keystream.HostEnd

open Keystream.Action Port

variable {η : Type}

def stream (requests : List (Bytes × Frame)) : Bytes :=
  requests.flatMap fun (noise, f) => noise ++ f.encode

theorem stream_cons (noise : Bytes) (f : Frame) (rest : List (Bytes × Frame)) (tail : Bytes) :
    stream ((noise, f) :: rest) ++ tail = noise ++ (f.encode ++ (stream rest ++ tail)) := by
  rw [stream, List.flatMap_cons, List.append_assoc, List.append_assoc, stream]

theorem length_le_stream (requests : List (Bytes × Frame)) :
    requests.length ≤ (stream requests).length :=
  length_le_flatMap (fun (_, f) => List.append_ne_nil_of_right_ne_nil _ f.encode_ne_nil) requests

def refusal : Kind → Int
  | .badSignal => -1
  | .value | .index => -2
  | _ => -3

theorem code_statusOf (e : Error) : (statusOf e).code = refusal e.kind := by
  unfold statusOf
  cases e.kind <;> rfl

def replyTo (f : Frame) (status response : Int) : Bytes :=
  Frame.encode ⟨f.magic, Word.ofInt status, Word.ofInt response⟩

/-- How serving ends: with which result, the host in which state, and what was sent and left. -/
structure Ending (η : Type) where
  result : Except Error Unit
  peer : η
  sent : Bytes
  left : Bytes

def Ending.behind (e : Ending η) (reply : Bytes) : Ending η := { e with sent := reply ++ e.sent }

/-- Serves frames: it has the host answer one signal after the other and replies once to each, up to
the first halt, unknown request or failure of the host. What stands behind that one is left. Where
the frames come to an end first, a byte is waited for in vain. -/
def attend (host : Host η) (tail : Bytes) : List (Bytes × Frame) → η → Ending η
  | [], o => ⟨.error (.timeout 1 0), o, [], []⟩
  | (_, f) :: rest, o =>
    let left := stream rest ++ tail
    if f.magic = Word.ofInt Frame.haltMagic then
      let (result, o) := host.halt.effect o
      ⟨result, o, [], left⟩
    else if f.magic = Word.ofInt Frame.signalMagic then
      match (host.signal (Word.toInt f.first) (Word.toInt f.second)).effect o with
      | (.ok answer, o) => (attend host tail rest o).behind (replyTo f 0 (answer.getD 0))
      | (.error e, o) => ⟨.error e, o, replyTo f (refusal e.kind) 0, left⟩
    else ⟨.error (.unknownRequest (Word.toInt f.magic)), o, replyTo f (-1) 0, left⟩

section

variable {machine : Machine} {host : Host η} {o t : η} {l : Link} {f : Frame}
  {noise tail rest sent : Bytes} {limit : Option Nat} {timeout : Option Seconds}

theorem effect_dispatch_beside (asks : f.magic = Word.ofInt Frame.signalMagic) (p : Link) :
    (dispatch host.beside (Word.toInt f.magic) f.encode).effect (p, o) =
      (((host.signal (Word.toInt f.first) (Word.toInt f.second)).effect o).1,
        (p, ((host.signal (Word.toInt f.first) (Word.toInt f.second)).effect o).2)) := by
  rw [effect_dispatch, if_pos asks]
  rfl

section

variable (marked : f.Marked)
  (here : l.port.view = ⟨noise ++ (f.encode ++ rest), sent, limit, timeout⟩)
  (hands : limit ≠ some 0) (unmarked : Unmarked noise)
include marked here hands unmarked

theorem exists_effect_serveOne_beside_ok {answer : Option Int}
    (asks : f.magic = Word.ofInt Frame.signalMagic)
    (answered : (host.signal (Word.toInt f.first) (Word.toInt f.second)).effect o =
      (.ok answer, t)) :
    ∃ q, (serveOne host.beside).effect (l, o) = (.ok true, (q, t)) ∧
      q.port.view = ⟨rest, sent ++ replyTo f 0 (answer.getD 0), limit, timeout⟩ := by
  refine exists_effect_serveOne_answered marked here hands unmarked
    (asks ▸ Frame.signalMagic_ne_haltMagic) fun p view => ⟨p, ?_, view⟩
  rw [effect_dispatch_beside asks, answered]

theorem exists_effect_serveOne_beside_error {e : Error}
    (asks : f.magic = Word.ofInt Frame.signalMagic)
    (failed : (host.signal (Word.toInt f.first) (Word.toInt f.second)).effect o = (.error e, t)) :
    ∃ q, (serveOne host.beside).effect (l, o) = (.error e, (q, t)) ∧
      q.port.view = ⟨rest, sent ++ replyTo f (refusal e.kind) 0, limit, timeout⟩ := by
  rw [← code_statusOf]
  refine exists_effect_serveOne_failed marked here hands unmarked
    (asks ▸ Frame.signalMagic_ne_haltMagic) fun p view => ⟨p, ?_, view⟩
  rw [effect_dispatch_beside asks, failed]

theorem exists_effect_serveOne_unknown (runs : f.magic ≠ Word.ofInt Frame.haltMagic)
    (unknown : f.magic ≠ Word.ofInt Frame.signalMagic) :
    ∃ q, (serveOne host.beside).effect (l, o) =
        (.error (.unknownRequest (Word.toInt f.magic)), (q, o)) ∧
      q.port.view = ⟨rest, sent ++ replyTo f (-1) 0, limit, timeout⟩ := by
  refine exists_effect_serveOne_failed marked here hands unmarked runs fun p view => ⟨p, ?_, view⟩
  rw [effect_dispatch, if_neg unknown]

end

theorem exists_effect_serveOne_ended (here : l.port.view = ⟨noise, sent, limit, timeout⟩)
    (hands : limit ≠ some 0) (unmarked : Unmarked noise) :
    ∃ q, (serveOne host.beside).effect (l, o) = (.error (.timeout 1 0), (q, o)) ∧
      q.port.view = ⟨[], sent, limit, timeout⟩ := by
  obtain ⟨q, lost, view⟩ := Link.exists_effect_receive_of_unmarked here hands unmarked
  have lost : (Link.receive.onFirst : Action (Link × η) Bytes).effect (l, o) =
      (.error (.timeout 1 0), (q, o)) := by
    rw [effect_onFirst, lost]
  exact ⟨q, effect_bind_of_error lost _, view⟩

theorem exists_effect_serveUpTo (host : Host η) (requests : List (Bytes × Frame)) {turns : Nat}
    (enough : requests.length < turns)
    (here : l.port.view = ⟨stream requests ++ tail, sent, limit, timeout⟩) (hands : limit ≠ some 0)
    (marked : ∀ request ∈ requests, request.2.Marked)
    (unmarked : ∀ request ∈ requests, Unmarked request.1) (unmarkedTail : Unmarked tail) :
    ∃ q, (serveUpTo host.beside turns).effect (l, o) =
        ((attend host tail requests o).result, (q, (attend host tail requests o).peer)) ∧
      q.port.view = ⟨(attend host tail requests o).left,
        sent ++ (attend host tail requests o).sent, limit, timeout⟩ := by
  obtain ⟨turns, rfl⟩ := Nat.exists_eq_succ_of_ne_zero (Nat.ne_zero_of_lt enough)
  induction requests generalizing l o sent turns with
  | nil =>
    obtain ⟨q, ended, view⟩ := exists_effect_serveOne_ended here hands unmarkedTail
    rw [← List.append_nil sent] at view
    exact ⟨q, effect_serveUpTo_error turns ended, view⟩
  | cons request others ih =>
    obtain ⟨noise, f⟩ := request
    obtain ⟨spelled, marked⟩ := List.forall_mem_cons.1 marked
    obtain ⟨clean, unmarked⟩ := List.forall_mem_cons.1 unmarked
    rw [stream_cons] at here
    rw [attend]
    by_cases halts : f.magic = Word.ofInt Frame.haltMagic
    · have ended (p : Link) : host.beside.halt.effect (p, o) =
          ((host.halt.effect o).1, (p, (host.halt.effect o).2)) := rfl
      obtain ⟨q, ended, view⟩ :=
        exists_effect_serveOne_halt spelled here hands clean halts ended
      rw [← List.append_nil sent] at view
      rw [if_pos halts]
      exact ⟨q, effect_serveUpTo_halt turns ended, view⟩
    rw [if_neg halts]
    by_cases asks : f.magic = Word.ofInt Frame.signalMagic
    · rw [if_pos asks]
      rcases told : (host.signal (Word.toInt f.first) (Word.toInt f.second)).effect o with
        ⟨e | answer, t⟩
      · obtain ⟨q, failed, view⟩ :=
          exists_effect_serveOne_beside_error spelled here hands clean asks told
        exact ⟨q, effect_serveUpTo_error turns failed, view⟩
      · obtain ⟨p, served, view⟩ :=
          exists_effect_serveOne_beside_ok spelled here hands clean asks told
        have enough : others.length < turns := Nat.lt_of_succ_lt_succ enough
        obtain ⟨turns, rfl⟩ := Nat.exists_eq_succ_of_ne_zero (Nat.ne_zero_of_lt enough)
        obtain ⟨q, ended, view⟩ := ih (o := t) view marked unmarked turns enough
        rw [List.append_assoc] at view
        exact ⟨q, (effect_serveUpTo_succ _ served).trans ended, view⟩
    · obtain ⟨q, failed, view⟩ :=
        exists_effect_serveOne_unknown spelled here hands clean halts asks
      rw [if_neg asks]
      exact ⟨q, effect_serveUpTo_error turns failed, view⟩

/-- The frames on a line are served as `attend` says, whatever noise they stand in, by a host that
has nothing to do with the line. -/
theorem serve_attends_requests (host : Host η) (requests : List (Bytes × Frame))
    (stands : l.port.unread = stream requests ++ tail) (hands : l.port.limit ≠ some 0)
    (marked : ∀ request ∈ requests, request.2.Marked)
    (unmarked : ∀ request ∈ requests, Unmarked request.1) (unmarkedTail : Unmarked tail) (o : η) :
    ∃ q, (serve host.beside).effect (l, o) =
        ((attend host tail requests o).result, (q, (attend host tail requests o).peer)) ∧
      q.port.sent = l.port.sent ++ (attend host tail requests o).sent ∧
      q.port.unread = (attend host tail requests o).left ∧ q.port.timeout = l.port.timeout := by
  have here : l.port.view = ⟨l.port.unread, l.port.sent, l.port.limit, l.port.timeout⟩ := rfl
  have enough : requests.length < l.port.unread.length + 1 := by
    have := length_le_stream requests
    rw [stands, List.length_append]
    omega
  rw [stands] at here
  obtain ⟨q, ended, view⟩ := exists_effect_serveUpTo (o := o) host requests enough here hands
    marked unmarked unmarkedTail
  obtain ⟨left, sent, _, waits⟩ := View.mk.inj view
  refine ⟨q, ?_, sent, left, waits⟩
  rw [serve, effect_get_bind]
  exact ended

end

/-- A host that has an answer below zero, then none, and then fails, behind noise that ends as a
mark begins. The halt and the noise behind it are left. -/
theorem serve_attends_up_to_failure :
    let host : Host (List (Int × Int)) := {
      signal := fun sig value => do
        modify (· ++ [(sig, value)])
        if sig = 7 then throw (.reported .index "no such sample")
        return if sig = 0 then some (-3) else none
      halt := throw .haltedEarly }
    let first : Frame := ⟨Word.ofInt Frame.signalMagic, 0, 5⟩
    let second : Frame := ⟨Word.ofInt Frame.signalMagic, 1, 0xffffffff⟩
    let third : Frame := ⟨Word.ofInt Frame.signalMagic, 7, 0⟩
    let halt : Frame := ⟨Word.ofInt Frame.haltMagic, 0, 0⟩
    let requests := [([0x68, 0xff, 0x55], first), ([], second), ([0xff], third), ([10], halt)]
    let tail : Bytes := [0xff, 0x55]
    let l : Link :=
      { port := { unread := stream requests ++ tail, limit := some 3, timeout := none },
        traced := false }
    let ending : Ending (List (Int × Int)) :=
      ⟨.error (.reported .index "no such sample"), [(0, 5), (1, 0xffffffff), (7, 0)],
        replyTo first 0 (-3) ++ (replyTo second 0 0 ++ replyTo third (-2) 0),
        stream [([10], halt)] ++ tail⟩
    attend host tail requests [] = ending ∧ l.port.limit ≠ some 0 ∧
      (∀ request ∈ requests, request.2.Marked) ∧ (∀ request ∈ requests, Unmarked request.1) ∧
      Unmarked tail ∧
      ∃ q, (serve host.beside).effect (l, []) =
          ((attend host tail requests []).result, (q, (attend host tail requests []).peer)) ∧
        q.port.sent = [] ++ (attend host tail requests []).sent ∧
        q.port.unread = (attend host tail requests []).left ∧ q.port.timeout = none := by
  intro host first second third halt requests tail l ending
  have hands : l.port.limit ≠ some 0 := by decide
  have marked : ∀ request ∈ requests, request.2.Marked := by
    simp only [requests, List.forall_mem_cons]
    exact ⟨⟨_, Frame.bytes_signalMagic⟩, ⟨_, Frame.bytes_signalMagic⟩, ⟨_, Frame.bytes_signalMagic⟩,
      ⟨_, Frame.bytes_haltMagic⟩, fun _ none => absurd none List.not_mem_nil⟩
  have unmarked : ∀ request ∈ requests, Unmarked request.1 := by
    simp only [requests, List.forall_mem_cons]
    decide
  have unmarkedTail : Unmarked tail := by decide
  exact ⟨rfl, hands, marked, unmarked, unmarkedTail,
    serve_attends_requests host requests rfl hands marked unmarked unmarkedTail []⟩

end Keystream.HostEnd
