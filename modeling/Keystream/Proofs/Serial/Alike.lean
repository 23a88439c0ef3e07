import Keystream.Proofs.Agreement
import Keystream.Proofs.Serial.Link
import Keystream.Serial.RemoteMemory
/-!
Ports that differ in the pieces they hand over. All that is read of a port is read by collecting,
which goes on until it has what it wants; so what a link makes of the bytes that wait on it is the
same for all such ports.
-/
namespace Keystream

open Keystream.Action Port

/-- The same port but for how many bytes it hands over at once and for the notes of its reads, of
which there are more the fewer it hands over. -/
structure Port.Alike (p q : Port) : Prop where
  unread : p.unread = q.unread
  sent : p.sent = q.sent
  timeout : p.timeout = q.timeout
  hands : p.limit ≠ some 0
  hands' : q.limit ≠ some 0

namespace Port.Alike

variable {p q : Port}

theorem of_view {s sent : Bytes} {limit limit' : Option Nat} {timeout : Option Seconds}
    (here : p.view = ⟨s, sent, limit, timeout⟩) (here' : q.view = ⟨s, sent, limit', timeout⟩)
    (hands : limit ≠ some 0) (hands' : limit' ≠ some 0) : p.Alike q := by
  obtain ⟨rfl, rfl, rfl, rfl⟩ := View.mk.inj here
  obtain ⟨unread, sent, rfl, timeout⟩ := View.mk.inj here'
  exact ⟨unread.symm, sent.symm, timeout.symm, hands, hands'⟩

theorem collect (alike : p.Alike q) (size : Nat) :
    (p.collect size).1 = (q.collect size).1 ∧ (p.collect size).2.Alike (q.collect size).2 := by
  obtain ⟨got, view⟩ := collect_eq_take (p := p) rfl alike.hands size
  obtain ⟨got', view'⟩ := collect_eq_take (p := q) rfl alike.hands' size
  rw [← alike.unread] at got' view'
  rw [← alike.sent, ← alike.timeout] at view'
  exact ⟨got.trans got'.symm, of_view view view' alike.hands alike.hands'⟩

theorem collect_eq (alike : p.Alike q) {size : Nat} {s : Bytes} {p' : Port}
    (got : p.collect size = (s, p')) : ∃ q', q.collect size = (s, q') ∧ p'.Alike q' := by
  obtain ⟨same, alike⟩ := alike.collect size
  rw [got] at same alike
  exact ⟨(q.collect size).2, Prod.ext same.symm rfl, alike⟩

end Port.Alike

namespace Port

variable {p rest : Port}

theorem hunt_of_collect_nil (none : p.collect 1 = ([], rest)) (seen : Seen) :
    p.hunt seen = ⟨[], .none, rest⟩ := by
  rw [hunt]
  split
  · next none' =>
    cases none.symm.trans none'
    rfl
  · next some => cases none.symm.trans some

theorem hunt_of_collect_cons {b : UInt8} {s : Bytes} (got : p.collect 1 = (b :: s, rest))
    (seen : Seen) :
    p.hunt seen =
      match seen.next b with
      | .header s => ⟨[], some s, rest⟩
      | .noise s after => { rest.hunt after with noise := s ++ (rest.hunt after).noise } := by
  rw [hunt]
  split
  · next none => cases got.symm.trans none
  · next got' =>
    cases got.symm.trans got'
    rfl

theorem Alike.hunt {q : Port} (alike : p.Alike q) (seen : Seen) :
    (p.hunt seen).noise = (q.hunt seen).noise ∧ (p.hunt seen).header = (q.hunt seen).header ∧
      (p.hunt seen).port.Alike (q.hunt seen).port := by
  induction p, seen using Port.hunt.induct generalizing q with
  | case1 p seen rest none =>
    obtain ⟨q', none', alike⟩ := alike.collect_eq none
    rw [hunt_of_collect_nil none, hunt_of_collect_nil none']
    exact ⟨rfl, rfl, alike⟩
  | case2 p seen b _ rest got s ends =>
    obtain ⟨q', got', alike⟩ := alike.collect_eq got
    rw [hunt_of_collect_cons got, hunt_of_collect_cons got', ends]
    exact ⟨rfl, rfl, alike⟩
  | case3 p seen b _ rest got s after passed ih =>
    obtain ⟨q', got', alike⟩ := alike.collect_eq got
    obtain ⟨noise, header, alike⟩ := ih alike
    rw [hunt_of_collect_cons got, hunt_of_collect_cons got', passed]
    exact ⟨congrArg (s ++ ·) noise, header, alike⟩

end Port

structure Link.Alike (l m : Link) : Prop where
  port : l.port.Alike m.port
  traced : l.traced = m.traced
  console : l.console = m.console
  lineBegun : l.lineBegun = m.lineBegun

namespace Link

variable {machine : Machine}

theorem Alike.with_port {l m : Link} (alike : l.Alike m) {p q : Port} (port : p.Alike q) :
    Alike { l with port := p } { m with port := q } :=
  ⟨port, alike.traced, alike.console, alike.lineBegun⟩

theorem respects_readFull (size : Int) : Respects Alike (readFull size) := by
  refine agree_get_bind fun l m alike => ?_
  obtain ⟨same, port⟩ := alike.port.collect size.toNat
  simp only [same]
  exact (agree_set (alike.with_port port)).bind fun _ => respects_check (respects_pure _)

theorem respects_write (s : Bytes) : Respects Alike (write s) :=
  respects_modify fun _ _ alike => alike.with_port
    ⟨alike.port.unread, congrArg (· ++ s) alike.port.sent, alike.port.timeout, alike.port.hands,
      alike.port.hands'⟩

theorem respects_showNoise (s : Bytes) : Respects Alike (showNoise s) := by
  refine agree_get_bind fun l m alike => ?_
  rw [alike.console, alike.lineBegun]
  split
  · exact (agree_set ⟨alike.port, alike.traced, rfl, rfl⟩).bind fun _ => respects_print _
  · exact respects_pure _

theorem respects_sync : Respects Alike sync := by
  refine agree_get_bind fun l m alike => ?_
  obtain ⟨noise, header, port⟩ := alike.port.hunt .nothing
  simp only [noise, header]
  refine (agree_set (alike.with_port port)).bind fun _ => (respects_showNoise _).bind fun _ => ?_
  split
  · exact respects_pure _
  · exact respects_throw _

theorem respects_trace (arrows : String) (s : Bytes) : Respects Alike (trace arrows s) := by
  refine agree_get_bind fun l m alike => ?_
  rw [alike.traced]
  exact respects_ite (respects_print _) (respects_pure _)

theorem respects_receive : Respects Alike receive := by
  exact respects_sync.bind fun _ => (respects_readFull 12).bind fun _ =>
    (respects_trace _ _).bind fun _ => respects_check (respects_pure _)

theorem respects_transmit (body : Bytes) : Respects Alike (transmit body) :=
  (respects_trace _ _).bind fun _ => respects_write _

theorem respects_sendFields (layout : Layout) (fields : List (String × Value)) :
    Respects Alike (sendFields layout fields) := by
  rw [sendFields]
  exact respects_check ((respects_liftM _).bind fun _ => respects_transmit _)

theorem respects_reply (magic status response : Int) :
    Respects Alike (reply magic status response) :=
  (respects_liftM _).bind fun _ => respects_transmit _

end Link

namespace RemoteMemory

variable {machine : Machine}

theorem respects_write (addr : Int) (s : Bytes) : Respects Link.Alike (write addr s) :=
  (respects_liftM _).bind fun _ => (Link.respects_transmit _).bind fun _ =>
    (Link.respects_write _).bind fun _ => Link.respects_receive.bind fun _ =>
      (respects_liftM _).bind fun _ => respects_pure _

theorem respects_read (addr size : Int) : Respects Link.Alike (read addr size) :=
  respects_ite (respects_pure _) <|
    (respects_liftM _).bind fun _ => (Link.respects_transmit _).bind fun _ =>
      Link.respects_receive.bind fun _ => (respects_liftM _).bind fun _ =>
        (Link.respects_readFull _).bind fun _ => respects_check (respects_pure _)

theorem respects_readWord (addr : Int) : Respects Link.Alike (readWord addr) := by
  refine (respects_read _ _).bind fun s => ?_
  split
  · exact respects_pure _
  · exact respects_throw _

theorem respects_readValue (addr : Int) (layout : Layout) :
    Respects Link.Alike (readValue addr layout) :=
  (respects_read _ _).bind fun _ => respects_liftM _

end RemoteMemory

end Keystream
