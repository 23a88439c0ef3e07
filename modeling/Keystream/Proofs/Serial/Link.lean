import Keystream.Proofs.Effect
import Keystream.Proofs.Machine
import Keystream.Proofs.Serial.Frame
import Keystream.Proofs.Serial.Port
import Keystream.Serial.Link
/-!
What reading and sending do to the view of a link's port. Tracing and the console change nothing of
it.
-/
namespace Keystream.Link

open Keystream.Action Port

variable {machine : Machine} {l : Link} {s noise rest sent begun : Bytes} {limit : Option Nat}
  {timeout : Option Seconds}

@[simp] theorem effect_trace (arrows : String) (s : Bytes) (l : Link) :
    (trace arrows s).effect l = (.ok (), l) := by
  simp only [trace, effect_get_bind]
  split <;> rfl

theorem exists_effect_showNoise (s : Bytes) (l : Link) :
    ∃ r, (showNoise s).effect l = (.ok (), r) ∧ r.port = l.port := by
  simp only [showNoise, effect_get_bind]
  split
  · exact ⟨_, rfl, rfl⟩
  · exact ⟨l, rfl, rfl⟩

theorem exists_effect_write (here : l.port.view = ⟨rest, sent, limit, timeout⟩) (s : Bytes) :
    ∃ r, (write s).effect l = (.ok (), r) ∧ r.port.view = ⟨rest, sent ++ s, limit, timeout⟩ := by
  obtain ⟨rfl, rfl, rfl, rfl⟩ := View.mk.inj here
  exact ⟨_, rfl, rfl⟩

theorem exists_effect_transmit (here : l.port.view = ⟨rest, sent, limit, timeout⟩) (body : Bytes) :
    ∃ r, (transmit body).effect l = (.ok (), r) ∧
      r.port.view = ⟨rest, sent ++ Frame.withChecksum body, limit, timeout⟩ := by
  rw [transmit, effect_bind_of_ok (effect_trace ..)]
  exact exists_effect_write here _

theorem exists_effect_send (here : l.port.view = ⟨rest, sent, limit, timeout⟩) (f : Frame) :
    ∃ r, (send f).effect l = (.ok (), r) ∧
      r.port.view = ⟨rest, sent ++ f.encode, limit, timeout⟩ :=
  exists_effect_transmit here f.body

theorem exists_effect_reply (here : l.port.view = ⟨rest, sent, limit, timeout⟩) (magic : Word)
    (status : Frame.Status) (response : Int) :
    ∃ r, (reply (Word.toInt magic) status.code response).effect l = (.ok (), r) ∧
      r.port.view = ⟨rest,
        sent ++ Frame.encode ⟨magic, Word.ofInt status.code, Word.ofInt response⟩, limit,
        timeout⟩ := by
  obtain ⟨r, done, view⟩ :=
    exists_effect_send here ⟨magic, Word.ofInt status.code, Word.ofInt response⟩
  refine ⟨r, ?_, view⟩
  rw [reply, Frame.reply_of_status]
  exact (effect_bind_of_ok (effect_liftM ..) _).trans done

theorem exists_effect_readFull (here : l.port.view = ⟨s ++ rest, sent, limit, timeout⟩)
    (hands : limit ≠ some 0) :
    ∃ r, (readFull s.length).effect l = (.ok s, r) ∧
      r.port.view = ⟨rest, sent, limit, timeout⟩ := by
  obtain ⟨got, view⟩ := collect_of_view here hands
  refine ⟨{ l with port := (l.port.collect s.length).2 }, ?_, view⟩
  have whole : ¬(l.port.collect s.length).1.length < s.length := by
    rw [got]
    exact lt_irrefl _
  rw [readFull, effect_get_bind, Int.toNat_natCast]
  rw [effect_set_bind, if_neg whole, got]
  rfl

theorem exists_effect_readFull_short {size : Nat}
    (here : l.port.view = ⟨s, sent, limit, timeout⟩) (hands : limit ≠ some 0)
    (short : s.length < size) :
    ∃ r, (readFull size).effect l = (.error (Machine.telling size (.timeout size s.length)), r) ∧
      r.port.view = ⟨[], sent, limit, timeout⟩ := by
  obtain ⟨got, view⟩ := collect_eq_take here hands size
  rw [List.take_of_length_le (Nat.le_of_lt short)] at got
  rw [List.drop_of_length_le (Nat.le_of_lt short)] at view
  refine ⟨{ l with port := (l.port.collect size).2 }, ?_, view⟩
  have lacking : (l.port.collect size).1.length < size := by rwa [got]
  rw [readFull, effect_get_bind, Int.toNat_natCast]
  rw [effect_set_bind, if_pos lacking, got]
  rfl

theorem exists_effect_sync {b : UInt8}
    (here : l.port.view = ⟨noise ++ 0xff :: 0x55 :: 0xaa :: b :: rest, sent, limit, timeout⟩)
    (hands : limit ≠ some 0) (unmarked : Unmarked noise) :
    ∃ r, sync.effect l = (.ok [0xff, 0x55, 0xaa, b], r) ∧
      r.port.view = ⟨rest, sent, limit, timeout⟩ := by
  obtain ⟨found, view⟩ := hunt_of_view .nothing here hands unmarked
  obtain ⟨r, shown, port⟩ := exists_effect_showNoise (l.port.hunt .nothing).noise
    { l with port := (l.port.hunt .nothing).port }
  refine ⟨r, ?_, by rw [port]; exact view⟩
  rw [sync, effect_get_bind, effect_set_bind, effect_bind_of_ok shown, found]
  rfl

theorem exists_effect_receive_of_mark {b : UInt8} {body : Bytes} (whole : body.length = 12)
    (here : l.port.view =
      ⟨noise ++ 0xff :: 0x55 :: 0xaa :: b :: (body ++ rest), sent, limit, timeout⟩)
    (hands : limit ≠ some 0) (unmarked : Unmarked noise) :
    let frame := [0xff, 0x55, 0xaa, b] ++ body
    let stated := Frame.statedChecksum frame
    let computed := checksum (frame.take 12)
    ∃ r, receive.effect l =
        (if stated = computed then .ok frame
          else .error (.frameChecksum (Word.toInt stated) (Word.toInt computed)), r) ∧
      r.port.view = ⟨rest, sent, limit, timeout⟩ := by
  intro frame stated computed
  obtain ⟨q, synced, view⟩ := exists_effect_sync here hands unmarked
  obtain ⟨r, read, view⟩ := exists_effect_readFull view hands
  rw [whole] at read
  refine ⟨r, ?_, view⟩
  rw [receive, effect_bind_of_ok synced]
  refine (effect_bind_of_ok read _).trans ?_
  rw [effect_bind_of_ok (effect_trace ..)]
  by_cases same : stated = computed
  · rw [if_neg (not_not_intro same), if_pos same]
    rfl
  · rw [if_pos same, if_neg same]
    rfl

theorem exists_effect_receive_of_broken {b : UInt8} {body : Bytes} (short : body.length < 12)
    (here : l.port.view = ⟨noise ++ 0xff :: 0x55 :: 0xaa :: b :: body, sent, limit, timeout⟩)
    (hands : limit ≠ some 0) (unmarked : Unmarked noise) :
    ∃ r, receive.effect l = (.error (.timeout 12 body.length), r) ∧
      r.port.view = ⟨[], sent, limit, timeout⟩ := by
  obtain ⟨q, synced, view⟩ := exists_effect_sync here hands unmarked
  obtain ⟨r, read, view⟩ := exists_effect_readFull_short view hands short
  refine ⟨r, ?_, view⟩
  rw [Machine.telling_of_spells (Machine.spells_of_word (by decide))] at read
  rw [receive, effect_bind_of_ok synced]
  exact effect_bind_of_error read _

theorem exists_effect_receive {f : Frame} (marked : f.Marked)
    (here : l.port.view = ⟨noise ++ (f.encode ++ rest), sent, limit, timeout⟩)
    (hands : limit ≠ some 0) (unmarked : Unmarked noise) :
    ∃ r, receive.effect l = (.ok f.encode, r) ∧ r.port.view = ⟨rest, sent, limit, timeout⟩ := by
  obtain ⟨b, marked⟩ := marked
  have whole := Frame.encode_of_marked marked
  rw [whole, List.append_assoc] at here
  obtain ⟨r, received, view⟩ := exists_effect_receive_of_mark
    (Word.length_pack [f.first, f.second, checksum f.body]) here hands unmarked
  refine ⟨r, received.trans ?_, view⟩
  rw [← whole, if_pos (by rw [Frame.statedChecksum_encode, Frame.take_encode])]

theorem exists_effect_receive_next {f : Frame} (marked : f.Marked)
    (here : l.port.view = ⟨f.encode ++ rest, sent, limit, timeout⟩) (hands : limit ≠ some 0) :
    ∃ r, receive.effect l = (.ok f.encode, r) ∧ r.port.view = ⟨rest, sent, limit, timeout⟩ :=
  exists_effect_receive marked (show l.port.view = ⟨[] ++ (f.encode ++ rest), _, _, _⟩ from here)
    hands unmarked_nil

theorem exists_effect_receive_of_missing (missing : (l.port.hunt .nothing).header = none)
    (view : (l.port.hunt .nothing).port.view = ⟨rest, sent, limit, timeout⟩) :
    ∃ r, receive.effect l = (.error (.timeout 1 0), r) ∧
      r.port.view = ⟨rest, sent, limit, timeout⟩ := by
  obtain ⟨r, shown, port⟩ := exists_effect_showNoise (l.port.hunt .nothing).noise
    { l with port := (l.port.hunt .nothing).port }
  refine ⟨r, ?_, by rw [port]; exact view⟩
  have lost : sync.effect l = (.error (.timeout 1 0), r) := by
    rw [sync, effect_get_bind, effect_set_bind, effect_bind_of_ok shown, missing]
    rfl
  exact effect_bind_of_error lost _

theorem exists_effect_receive_of_unmarked (here : l.port.view = ⟨noise, sent, limit, timeout⟩)
    (hands : limit ≠ some 0) (unmarked : Unmarked noise) :
    ∃ r, receive.effect l = (.error (.timeout 1 0), r) ∧
      r.port.view = ⟨[], sent, limit, timeout⟩ :=
  have ⟨missing, view⟩ := hunt_of_unmarked .nothing here hands unmarked
  exists_effect_receive_of_missing missing view

/-! Whatever is read, nothing is sent. -/

def Sent (sent : Bytes) (l : Link) : Prop := l.port.sent = sent

theorem keeps_sent_readFull (size : Int) : Keeps (Sent sent) (readFull size) := by
  intro l here
  have kept : Sent sent { l with port := (l.port.collect size.toNat).2 } :=
    (l.port.sent_collect _).trans here
  rw [readFull, effect_get_bind, effect_set_bind]
  split
  · exact (keeps_throw _).bind (fun _ => keeps_pure _) _ kept
  · exact kept

theorem keeps_sent_showNoise (s : Bytes) : Keeps (Sent sent) (showNoise s) := by
  intro l here
  obtain ⟨r, shown, port⟩ := exists_effect_showNoise s l
  rw [shown]
  exact (congrArg Port.sent port).trans here

theorem keeps_sent_sync : Keeps (Sent sent) sync := by
  intro l here
  rw [sync, effect_get_bind, effect_set_bind]
  refine (keeps_sent_showNoise _).bind (fun _ => ?_) _ ((l.port.sent_hunt _).trans here)
  split
  · exact keeps_pure _
  · exact keeps_throw _

theorem keeps_sent_trace (arrows : String) (s : Bytes) : Keeps (Sent sent) (trace arrows s) :=
  keeps_of_unchanged fun l => by rw [effect_trace]

theorem keeps_sent_receive : Keeps (Sent sent) receive := by
  refine keeps_sent_sync.bind fun header => (keeps_sent_readFull 12).bind fun s =>
    (keeps_sent_trace _ _).bind fun _ => ?_
  refine keeps_ite (fun _ => ?_) fun _ => keeps_pure _
  exact (keeps_throw _).bind fun _ => keeps_pure _

/-- Whether what a link has sent begins with `begun`. -/
def Begun (begun : Bytes) (l : Link) : Prop := begun <+: l.port.sent

theorem keeps_begun {a : Action Link α} (quiet : ∀ sent, Keeps (Sent sent) a) :
    Keeps (Begun begun) a := by
  intro l here
  have same : (a.effect l).2.port.sent = l.port.sent := quiet l.port.sent l rfl
  rwa [Begun, same]

theorem keeps_begun_write (s : Bytes) : Keeps (Begun begun) (write s) :=
  fun _ here => here.trans (List.prefix_append ..)

theorem keeps_begun_reply (magic status response : Int) :
    Keeps (Begun begun) (reply magic status response) :=
  (keeps_liftM _).bind fun _ => (keeps_begun fun _ => keeps_sent_trace _ _).bind fun _ =>
    keeps_begun_write _

end Keystream.Link
