import Keystream.Proofs.Serial.MemoryRequest
/-!
Waiting for the reply to a signal. Whatever memory requests come before it, each behind some noise,
they are served in order and answered once each.
-/
namespace Keystream

namespace MemoryRequest

def stream (requests : List (Bytes × MemoryRequest)) : Bytes :=
  requests.flatMap fun (noise, r) => noise ++ r.encode

/-- The answers to some requests, each of which finds memory as the ones before it left it. -/
def answers (m : Memory) : List MemoryRequest → Bytes
  | [] => []
  | r :: rest => r.answer m ++ answers (r.apply m) rest

theorem answers_singleton (m : Memory) (r : MemoryRequest) : answers m [r] = r.answer m :=
  List.append_nil _

theorem length_le_stream (requests : List (Bytes × MemoryRequest)) :
    requests.length ≤ (stream requests).length :=
  length_le_flatMap (fun (_, r) => List.append_ne_nil_of_right_ne_nil _ r.encode_ne_nil) requests

theorem toInt_magic (r : MemoryRequest) :
    Word.toInt r.magic = Frame.readMagic ∨ Word.toInt r.magic = Frame.writeMagic := by
  cases r with
  | read => exact .inl Frame.toInt_readMagic
  | write => exact .inr Frame.toInt_writeMagic

end MemoryRequest

namespace ProgramEnd

open Keystream.Action Port

section

variable {machine : Machine} {μ : Type} (mem : Option (MemoryAccess μ)) {l : Link}
  {noise rest sent unread left wrote : Bytes} {limit : Option Nat} {timeout : Option Seconds}
  {status response : Word}

/-- What is left of a signal once it is sent. The port's own timeout is put back in the end. -/
def awaitReply [Machine] (mem : Option (MemoryAccess μ)) : Action (μ × Link) Int := do
  let port := (← get).2.port
  (setTimeout none).onSecond
  (await mem Frame.signalMagic (port.unread.length + 1)).ensuring
    (setTimeout port.timeout).onSecond

theorem exists_effect_signal_ask (m : μ) (sig : Word) (value : Int)
    (here : l.port.view = ⟨rest, sent, limit, timeout⟩) :
    ∃ p, ((channel mem).signal (Word.toInt sig) value).effect (m, l) =
        (awaitReply mem).effect (m, p) ∧
      p.port.view = ⟨rest,
        sent ++ Frame.encode ⟨Word.ofInt Frame.signalMagic, sig, Word.ofInt value⟩, limit,
        timeout⟩ := by
  let asked : Frame := ⟨Word.ofInt Frame.signalMagic, sig, Word.ofInt value⟩
  obtain ⟨p, went, view⟩ := Link.exists_effect_send here asked
  have went : (Action.onSecond do
      Link.send
        (← Frame.request Frame.signalMagic (Word.toInt sig) (Word.toInt (Word.ofInt value))) :
          Action (μ × Link) Unit).effect (m, l) = (.ok (), (m, p)) := by
    rw [effect_onSecond, ← Frame.toInt_signalMagic, Frame.request_of_words,
      effect_bind_of_ok (effect_liftM ..), went]
  exact ⟨p, effect_bind_of_ok went _, view⟩

theorem exists_effect_awaitReply [Machine] {m t : μ} {result : Except Error Int}
    (here : l.port.view = ⟨unread, sent, limit, timeout⟩)
    (awaited : ∀ p : Link, p.port.view = ⟨unread, sent, limit, none⟩ →
      ∃ q, (await mem Frame.signalMagic (unread.length + 1)).effect (m, p) = (result, (t, q)) ∧
        q.port.view = ⟨left, wrote, limit, none⟩) :
    ∃ q, (awaitReply mem).effect (m, l) = (result, (t, q)) ∧
      q.port.view = ⟨left, wrote, limit, timeout⟩ := by
  obtain ⟨rfl, rfl, rfl, rfl⟩ := View.mk.inj here
  let patient : Link := { l with port := { l.port with timeout := none } }
  obtain ⟨q, told, view⟩ := awaited patient rfl
  refine ⟨{ q with port := { q.port with timeout := l.port.timeout } }, ?_, ?_⟩
  · rw [awaitReply, effect_get_bind]
    refine (effect_bind_of_ok (t := (m, patient)) rfl _).trans ?_
    rw [effect_ensuring, told]
    rfl
  · exact congrArg (fun v => { v with timeout := l.port.timeout }) view

theorem exists_effect_await_reply (m : μ) (turns : Nat)
    (here : l.port.view = ⟨noise ++
      (Frame.encode ⟨Word.ofInt Frame.signalMagic, status, response⟩ ++ rest),
        sent, limit, timeout⟩)
    (hands : limit ≠ some 0) (unmarked : Unmarked noise) :
    ∃ q, (await mem Frame.signalMagic (turns + 1)).effect (m, l) =
        (if status = 0 then .ok (Word.toInt response) else .error (.remote (Word.signed status)),
          (m, q)) ∧
      q.port.view = ⟨rest, sent, limit, timeout⟩ := by
  obtain ⟨q, received, view⟩ :=
    exists_effect_receive m ⟨_, Frame.bytes_signalMagic⟩ here hands unmarked
  refine ⟨q, ?_, view⟩
  rw [await, effect_bind_of_ok received, Frame.magicOf_encode]
  have told := Frame.response_encode (Word.ofInt Frame.signalMagic) status response
  rw [Frame.toInt_signalMagic] at told ⊢
  cases mem with
  | none => exact (effect_liftM ..).trans (congrArg (·, m, q) told)
  | some mem =>
    refine (congrArg (effect · (m, q)) (if_neg (by decide))).trans ?_
    exact (effect_liftM ..).trans (congrArg (·, m, q) told)

end

section

variable {machine : Machine} (base : Int) (m : Memory) {l : Link} {noise rest sent : Bytes}
  {limit : Option Nat} {timeout : Option Seconds} {status response : Word}

theorem exists_effect_await_served (turns : Nat) {f : Frame} {t : Memory} {left wrote : Bytes}
    (marked : f.Marked)
    (asks : Word.toInt f.magic = Frame.readMagic ∨ Word.toInt f.magic = Frame.writeMagic)
    (here : l.port.view = ⟨noise ++ (f.encode ++ rest), sent, limit, timeout⟩)
    (hands : limit ≠ some 0) (unmarked : Unmarked noise)
    (served : ∀ p : Link, p.port.view = ⟨rest, sent, limit, timeout⟩ →
      ∃ q, (serve (Memory.access base) (Word.toInt f.magic) f.encode).effect (m, p) =
          (.ok (), (t, q)) ∧
        q.port.view = ⟨left, wrote, limit, timeout⟩) :
    ∃ q, (await (some (Memory.access base)) Frame.signalMagic (turns + 1)).effect (m, l) =
        (await (some (Memory.access base)) Frame.signalMagic turns).effect (t, q) ∧
      q.port.view = ⟨left, wrote, limit, timeout⟩ := by
  obtain ⟨p, received, view⟩ := exists_effect_receive m marked here hands unmarked
  obtain ⟨q, served, view⟩ := served p view
  refine ⟨q, ?_, view⟩
  rw [await, effect_bind_of_ok received, Frame.magicOf_encode]
  refine (congrArg (effect · (m, p)) (if_pos asks)).trans ?_
  exact effect_bind_of_ok served _

theorem exists_effect_await_request (turns : Nat) (r : MemoryRequest)
    (here : l.port.view = ⟨noise ++ (r.encode ++ rest), sent, limit, timeout⟩)
    (hands : limit ≠ some 0) (unmarked : Unmarked noise) :
    ∃ q, (await (some (Memory.access base)) Frame.signalMagic (turns + 1)).effect (m, l) =
        (await (some (Memory.access base)) Frame.signalMagic turns).effect (r.apply m, q) ∧
      q.port.view = ⟨rest, sent ++ r.answer m, limit, timeout⟩ := by
  rw [MemoryRequest.encode, List.append_assoc] at here
  refine exists_effect_await_served base m turns r.marked_frame ?_ here hands unmarked
    fun p view => ?_
  · rw [r.magic_frame]
    exact r.toInt_magic
  · rw [r.magic_frame]
    exact exists_effect_serve base m r view hands

/-- Requests in any number are served in order until the reply ends the waiting. -/
theorem exists_effect_await (requests : List (Bytes × MemoryRequest)) {turns : Nat}
    (enough : requests.length < turns)
    (here : l.port.view = ⟨MemoryRequest.stream requests ++ (noise ++
      (Frame.encode ⟨Word.ofInt Frame.signalMagic, status, response⟩ ++ rest)),
        sent, limit, timeout⟩)
    (hands : limit ≠ some 0) (unmarked : ∀ request ∈ requests, Unmarked request.1)
    (unmarkedLast : Unmarked noise) :
    ∃ q, (await (some (Memory.access base)) Frame.signalMagic turns).effect (m, l) =
        (if status = 0 then .ok (Word.toInt response) else .error (.remote (Word.signed status)),
          ((requests.map Prod.snd).foldl MemoryRequest.apply m, q)) ∧
      q.port.view =
        ⟨rest, sent ++ MemoryRequest.answers m (requests.map Prod.snd), limit, timeout⟩ := by
  obtain ⟨turns, rfl⟩ := Nat.exists_eq_succ_of_ne_zero (Nat.ne_zero_of_lt enough)
  induction requests generalizing m l sent turns with
  | nil =>
    obtain ⟨q, told, view⟩ := exists_effect_await_reply _ m turns here hands unmarkedLast
    rw [← List.append_nil sent] at view
    exact ⟨q, told, view⟩
  | cons request others ih =>
    obtain ⟨clean, unmarked⟩ := List.forall_mem_cons.1 unmarked
    rw [MemoryRequest.stream, List.flatMap_cons, List.append_assoc, List.append_assoc] at here
    obtain ⟨q, passed, view⟩ := exists_effect_await_request base m turns request.2 here hands clean
    rw [List.length_cons] at enough
    obtain ⟨turns, rfl⟩ := Nat.exists_eq_succ_of_ne_zero (show turns ≠ 0 by omega)
    obtain ⟨q', told, view⟩ := ih (request.2.apply m) view unmarked turns (by omega)
    rw [List.append_assoc] at view
    exact ⟨q', passed.trans told, view⟩

theorem exists_effect_signal (requests : List (Bytes × MemoryRequest))
    (here : l.port.view = ⟨MemoryRequest.stream requests ++ (noise ++
      (Frame.encode ⟨Word.ofInt Frame.signalMagic, status, response⟩ ++ rest)),
        sent, limit, timeout⟩)
    (hands : limit ≠ some 0) (unmarked : ∀ request ∈ requests, Unmarked request.1)
    (unmarkedLast : Unmarked noise) (sig : Word) (value : Int) :
    ∃ q, ((channel (some (Memory.access base))).signal (Word.toInt sig) value).effect (m, l) =
        (if status = 0 then .ok (Word.toInt response) else .error (.remote (Word.signed status)),
          ((requests.map Prod.snd).foldl MemoryRequest.apply m, q)) ∧
      q.port.view = ⟨rest,
        sent ++ Frame.encode ⟨Word.ofInt Frame.signalMagic, sig, Word.ofInt value⟩ ++
          MemoryRequest.answers m (requests.map Prod.snd), limit, timeout⟩ := by
  have enough : requests.length < (MemoryRequest.stream requests ++ (noise ++
      (Frame.encode ⟨Word.ofInt Frame.signalMagic, status, response⟩ ++ rest))).length + 1 := by
    have := MemoryRequest.length_le_stream requests
    rw [List.length_append]
    omega
  obtain ⟨p, asked, view⟩ :=
    exists_effect_signal_ask (some (Memory.access base)) m sig value here
  obtain ⟨q, told, view⟩ := exists_effect_awaitReply _ view fun _ view =>
    exists_effect_await base m requests enough view hands unmarked unmarkedLast
  exact ⟨q, asked.trans told, view⟩

/-- What a port sees of a signal while the host asks for memory: the signal's own frame and one
answer to each request go out, the reply is the last that is read, and the timeout is as before. -/
theorem signal_serves_requests (requests : List (Bytes × MemoryRequest)) {tail : Bytes}
    (stands : l.port.unread = MemoryRequest.stream requests ++ (noise ++
      (Frame.encode ⟨Word.ofInt Frame.signalMagic, status, response⟩ ++ tail)))
    (hands : l.port.limit ≠ some 0) (unmarked : ∀ request ∈ requests, Unmarked request.1)
    (unmarkedLast : Unmarked noise) (sig : Word) (value : Int) :
    ∃ q, ((channel (some (Memory.access m.base))).signal (Word.toInt sig) value).effect (m, l) =
        (if status = 0 then .ok (Word.toInt response) else .error (.remote (Word.signed status)),
          ((requests.map Prod.snd).foldl MemoryRequest.apply m, q)) ∧
      q.port.sent = l.port.sent ++
        Frame.encode ⟨Word.ofInt Frame.signalMagic, sig, Word.ofInt value⟩ ++
          MemoryRequest.answers m (requests.map Prod.snd) ∧
      q.port.unread = tail ∧ q.port.timeout = l.port.timeout := by
  have here : l.port.view = ⟨l.port.unread, l.port.sent, l.port.limit, l.port.timeout⟩ := rfl
  rw [stands] at here
  obtain ⟨q, told, view⟩ := exists_effect_signal m.base m requests here hands unmarked
    unmarkedLast sig value
  obtain ⟨unread, sent, _, waits⟩ := View.mk.inj view
  exact ⟨q, told, sent, unread, waits⟩

end

/-- A read and a write that go well, one out of memory and one with a wrong checksum, behind noise
that ends as a mark begins; and a host that fails then. -/
theorem signal_serves_four_requests :
    let m : Memory := ⟨0x100, Array.replicate 16 7, ⟨0x100, 16, 1, [⟨1, false⟩], []⟩, false⟩
    let requests : List (Bytes × MemoryRequest) := [
      ([0x68, 0xff], .read 0x104 4), ([], .write 0x10e [1, 2] (checksum [1, 2]) (by decide)),
      ([0xff, 0x55], .write 0x10f [1, 2] (checksum [1, 2]) (by decide)),
      ([10], .write 0x100 [1, 2] 0 (by decide))]
    let unread := MemoryRequest.stream requests ++
      ([] ++ (Frame.encode ⟨Word.ofInt Frame.signalMagic, Word.ofInt (-3), 0⟩ ++ [9]))
    let l : Link := { port := { unread, limit := some 3, timeout := none }, traced := false }
    requests.map (fun request => request.2.status m) = [.ok, .ok, .invalid, .checksumFailed] ∧
      l.port.limit ≠ some 0 ∧ (∀ request ∈ requests, Unmarked request.1) ∧ Unmarked [] ∧
      ∃ q, ((channel (some (Memory.access m.base))).signal (Word.toInt 0) 5).effect (m, l) =
          (if (Word.ofInt (-3) : Word) = 0 then .ok (Word.toInt 0)
            else .error (.remote (Word.signed (Word.ofInt (-3)))),
            ((requests.map Prod.snd).foldl MemoryRequest.apply m, q)) ∧
        q.port.sent = [] ++ Frame.encode ⟨Word.ofInt Frame.signalMagic, 0, Word.ofInt 5⟩ ++
          MemoryRequest.answers m (requests.map Prod.snd) ∧
        q.port.unread = [9] ∧ q.port.timeout = none := by
  intro m requests unread l
  have statuses : requests.map (fun request => request.2.status m) =
      [.ok, .ok, .invalid, .checksumFailed] := by decide +kernel
  have hands : l.port.limit ≠ some 0 := by decide
  have unmarked : ∀ request ∈ requests, Unmarked request.1 := by
    simp only [requests, List.forall_mem_cons]
    decide
  exact ⟨statuses, hands, unmarked, unmarked_nil,
    signal_serves_requests m requests rfl hands unmarked unmarked_nil 0 5⟩

end ProgramEnd

end Keystream
