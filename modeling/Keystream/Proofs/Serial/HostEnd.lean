import Keystream.Proofs.Oracle
import Keystream.Proofs.Serial.Link
import Keystream.Serial.HostEnd
/-!
The host's end of a link: what serving one request comes to, by each way that the request can end.
-/
namespace Keystream

open Keystream.Action Port

variable {l : Link} {rest sent : Bytes} {limit : Option Nat} {timeout : Option Seconds}

namespace HostEnd

variable {machine : Machine} {η : Type} {host : Host (Link × η)} {o o' : η} {f : Frame}
  {noise left wrote : Bytes}

theorem effect_dispatch (f : Frame) (s : Link × η) :
    (dispatch host (Word.toInt f.magic) f.encode).effect s =
      if f.magic = Word.ofInt Frame.signalMagic then
        (host.signal (Word.toInt f.first) (Word.toInt f.second)).effect s
      else (.error (.unknownRequest (Word.toInt f.magic)), s) := by
  have decoded : (liftM (Frame.decode f.encode) : Action (Link × η) Frame).effect s = (.ok f, s) :=
    (effect_liftM ..).trans (congrArg (·, s) (Frame.decode_encode f))
  rw [dispatch]
  by_cases asks : f.magic = Word.ofInt Frame.signalMagic
  · rw [if_pos asks, asks, if_neg (not_not_intro Frame.toInt_signalMagic)]
    exact effect_bind_of_ok decoded _
  · rw [if_neg asks, if_pos (mt Word.eq_ofInt_of_toInt asks)]
    rfl

theorem exists_effect_receive (marked : f.Marked)
    (here : l.port.view = ⟨noise ++ (f.encode ++ rest), sent, limit, timeout⟩)
    (hands : limit ≠ some 0) (unmarked : Unmarked noise) :
    ∃ p, (Link.receive.onFirst : Action (Link × η) Bytes).effect (l, o) =
        (.ok f.encode, (p, o)) ∧
      p.port.view = ⟨rest, sent, limit, timeout⟩ := by
  obtain ⟨p, received, view⟩ := Link.exists_effect_receive marked here hands unmarked
  exact ⟨p, by rw [effect_onFirst, received], view⟩

theorem exists_effect_reply (here : l.port.view = ⟨rest, sent, limit, timeout⟩) (magic : Word)
    (status : Frame.Status) (response : Int) :
    ∃ q, ((Link.reply (Word.toInt magic) status.code response).onFirst :
        Action (Link × η) Unit).effect (l, o) = (.ok (), (q, o)) ∧
      q.port.view = ⟨rest,
        sent ++ Frame.encode ⟨magic, Word.ofInt status.code, Word.ofInt response⟩, limit,
        timeout⟩ := by
  obtain ⟨q, replied, view⟩ := Link.exists_effect_reply here magic status response
  exact ⟨q, by rw [effect_onFirst, replied], view⟩

section

variable (marked : f.Marked)
  (here : l.port.view = ⟨noise ++ (f.encode ++ rest), sent, limit, timeout⟩)
  (hands : limit ≠ some 0) (unmarked : Unmarked noise)
include marked here hands unmarked

theorem exists_effect_serveOne_answered {answer : Option Int}
    (request : f.magic ≠ Word.ofInt Frame.haltMagic)
    (answered : ∀ p : Link, p.port.view = ⟨rest, sent, limit, timeout⟩ →
      ∃ q, (dispatch host (Word.toInt f.magic) f.encode).effect (p, o) =
          (.ok answer, (q, o')) ∧
        q.port.view = ⟨left, wrote, limit, timeout⟩) :
    ∃ q, (serveOne host).effect (l, o) = (.ok true, (q, o')) ∧
      q.port.view = ⟨left, wrote ++ Frame.encode ⟨f.magic, 0, Word.ofInt (answer.getD 0)⟩, limit,
        timeout⟩ := by
  obtain ⟨p, received, view⟩ := exists_effect_receive marked here hands unmarked
  obtain ⟨p', answered, view⟩ := answered p view
  obtain ⟨q, replied, view⟩ := exists_effect_reply view f.magic .ok (answer.getD 0)
  refine ⟨q, ?_, view⟩
  rw [serveOne, effect_bind_of_ok received, Frame.magicOf_encode]
  rw [if_neg (mt Word.eq_ofInt_of_toInt request)]
  rw [effect_bind_of_ok (effect_tryCatch_of_ok answered _)]
  exact effect_bind_of_ok replied _

theorem exists_effect_serveOne_failed {e : Error}
    (request : f.magic ≠ Word.ofInt Frame.haltMagic)
    (failed : ∀ p : Link, p.port.view = ⟨rest, sent, limit, timeout⟩ →
      ∃ q, (dispatch host (Word.toInt f.magic) f.encode).effect (p, o) =
          (.error e, (q, o')) ∧
        q.port.view = ⟨left, wrote, limit, timeout⟩) :
    ∃ q, (serveOne host).effect (l, o) = (.error e, (q, o')) ∧
      q.port.view = ⟨left,
        wrote ++ Frame.encode ⟨f.magic, Word.ofInt (statusOf e).code, Word.ofInt 0⟩, limit,
        timeout⟩ := by
  obtain ⟨p, received, view⟩ := exists_effect_receive marked here hands unmarked
  obtain ⟨p', failed, view⟩ := failed p view
  obtain ⟨q, replied, view⟩ := exists_effect_reply view f.magic (statusOf e) 0
  refine ⟨q, ?_, view⟩
  rw [serveOne, effect_bind_of_ok received, Frame.magicOf_encode]
  rw [if_neg (mt Word.eq_ofInt_of_toInt request)]
  refine effect_bind_of_error ((effect_tryCatch_of_error failed _).trans ?_) _
  exact effect_bind_of_ok replied _

theorem exists_effect_serveOne_halt {r : Except Error Unit}
    (halts : f.magic = Word.ofInt Frame.haltMagic)
    (ended : ∀ p : Link, host.halt.effect (p, o) = (r, (p, o'))) :
    ∃ q, (serveOne host).effect (l, o) = (r.map fun _ => false, (q, o')) ∧
      q.port.view = ⟨rest, sent, limit, timeout⟩ := by
  obtain ⟨q, received, view⟩ := exists_effect_receive marked here hands unmarked
  refine ⟨q, ?_, view⟩
  rw [serveOne, effect_bind_of_ok received, Frame.magicOf_encode, halts]
  simp only [Frame.toInt_haltMagic, ↓reduceIte]
  rw [effect_bind, ended]
  cases r <;> rfl

end

theorem effect_serveUpTo_succ {s t : Link × η} (turns : Nat)
    (served : (serveOne host).effect s = (.ok true, t)) :
    (serveUpTo host (turns + 1)).effect s = (serveUpTo host turns).effect t := by
  rw [serveUpTo, effect_bind_of_ok served]
  rfl

theorem effect_serveUpTo_halt {s t : Link × η} {r : Except Error Unit} (turns : Nat)
    (served : (serveOne host).effect s = (r.map fun _ => false, t)) :
    (serveUpTo host (turns + 1)).effect s = (r, t) := by
  rw [serveUpTo, effect_bind, served]
  cases r <;> rfl

theorem effect_serveUpTo_error {s t : Link × η} {e : Error} (turns : Nat)
    (served : (serveOne host).effect s = (.error e, t)) :
    (serveUpTo host (turns + 1)).effect s = (.error e, t) :=
  effect_bind_of_error served _

end HostEnd

end Keystream
