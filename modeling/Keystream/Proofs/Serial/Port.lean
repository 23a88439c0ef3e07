import Keystream.Serial.Port
import Mathlib.Data.List.Infix
/-!
Reading from a port. One that hands over at least a byte at a time gives all that is asked for and
waits, and the hunt for a frame ends behind any noise that spells no mark.
-/
namespace Keystream.Port

/-- What matters of a port to both ends of the line. -/
structure View where
  unread : Bytes
  sent : Bytes
  limit : Option Nat
  timeout : Option Seconds

def view (p : Port) : View := ⟨p.unread, p.sent, p.limit, p.timeout⟩

theorem view_of_unread {p : Port} {s : Bytes} (stands : p.unread = s) :
    p.view = ⟨s, p.sent, p.limit, p.timeout⟩ :=
  stands ▸ rfl

variable {p : Port} {s noise rest sent : Bytes} {limit : Option Nat} {timeout : Option Seconds}

theorem ready_pos {size : Nat} (hands : p.limit ≠ some 0) (wanted : 0 < size) :
    0 < p.ready size := by
  unfold ready
  split
  · rcases given : p.limit with _ | _ | limit
    · simpa using wanted
    · exact absurd given hands
    · exact Nat.lt_min.2 ⟨wanted, Nat.succ_pos limit⟩
  · exact Nat.lt_min.2 ⟨wanted, Nat.lt_of_lt_of_le Nat.one_pos (Nat.le_max_right ..)⟩

theorem read_of_view {t : Bytes} {q : Port} {size : Nat}
    (here : p.view = ⟨s, sent, limit, timeout⟩) (done : p.read size = (t, q)) :
    t = s.take (p.ready size) ∧ q.view = ⟨s.drop (p.ready size), sent, limit, timeout⟩ := by
  obtain ⟨rfl, rfl, rfl, rfl⟩ := View.mk.inj here
  cases done
  refine ⟨rfl, ?_⟩
  simp only [view, noteTimeout]
  split <;> rfl

theorem collect_eq_take (here : p.view = ⟨s, sent, limit, timeout⟩) (hands : limit ≠ some 0)
    (size : Nat) :
    (p.collect size).1 = s.take size ∧
      (p.collect size).2.view = ⟨s.drop size, sent, limit, timeout⟩ := by
  have handed : p.limit = limit := (View.mk.inj here).2.2.1
  induction p, size using collect.induct generalizing s with
  | case1 p =>
    rw [collect, if_pos rfl]
    exact ⟨rfl, here⟩
  | case2 p size wanted q got =>
    obtain ⟨first, after⟩ := read_of_view here got
    have ready := ready_pos (p := p) (handed ▸ hands) (Nat.pos_of_ne_zero wanted)
    obtain rfl : s = [] :=
      (List.take_eq_nil_iff.1 first.symm).resolve_left (Nat.ne_of_gt ready)
    rw [collect, if_neg wanted, got]
    simp only [List.take_nil, List.drop_nil] at after ⊢
    exact ⟨trivial, after⟩
  | case3 p size wanted b got q done ih =>
    obtain ⟨first, after⟩ := read_of_view here done
    have most := p.ready_le size
    have count : got.length + 1 = min (p.ready size) s.length := by
      rw [← List.length_take, ← first, List.length_cons]
    have front : s.take (p.ready size) = s.take (got.length + 1) :=
      List.take_eq_take_iff.2 (by omega)
    have back : s.drop (p.ready size) = s.drop (got.length + 1) :=
      List.drop_eq_drop_iff.2 (by omega)
    have whole : got.length + 1 + (size - (got.length + 1)) = size := by omega
    rw [back] at after
    obtain ⟨others, last⟩ := ih after (View.mk.inj after).2.2.1
    rw [List.drop_drop, whole] at last
    rw [collect, if_neg wanted, done]
    refine ⟨?_, last⟩
    show b :: got ++ (q.collect _).1 = _
    rw [others, first, front, ← List.take_add, whole]

theorem collect_of_view (here : p.view = ⟨s ++ rest, sent, limit, timeout⟩)
    (hands : limit ≠ some 0) :
    (p.collect s.length).1 = s ∧ (p.collect s.length).2.view = ⟨rest, sent, limit, timeout⟩ := by
  have whole := collect_eq_take here hands s.length
  rwa [List.take_left, List.drop_left] at whole

/-! The hunt. What was seen of a mark is the end of what was read. -/

/-- Whether some bytes spell no mark, so that they are not taken for a frame. -/
def Unmarked (s : Bytes) : Prop := ¬[0xff, 0x55, 0xaa] <:+: s

instance (s : Bytes) : Decidable (Unmarked s) := inferInstanceAs (Decidable (¬_))

theorem Unmarked.of_isSuffix {s t : Bytes} (u : Unmarked s) (suffix : t <:+ s) : Unmarked t :=
  fun spelled => u (spelled.trans suffix.isInfix)

theorem unmarked_nil : Unmarked [] := by decide

namespace Seen

def spelled : Seen → Bytes
  | nothing => []
  | first => [0xff]
  | second => [0xff, 0x55]
  | mark => [0xff, 0x55, 0xaa]

theorem ne_mark_of_unmarked {seen : Seen} (u : Unmarked (seen.spelled ++ s)) : seen ≠ mark := by
  rintro rfl
  exact u (List.prefix_append ..).isInfix

theorem afterNoise_isSuffix (s : Bytes) (b : UInt8) : (afterNoise b).spelled <:+ s ++ [b] := by
  unfold afterNoise
  split
  · next same => exact same ▸ List.suffix_append ..
  · exact List.nil_suffix

theorem next_of_ne_mark {seen : Seen} (before : seen ≠ mark) (b : UInt8) :
    ∃ s after, seen.next b = .noise s after ∧ after.spelled <:+ seen.spelled ++ [b] := by
  cases seen with
  | nothing =>
    by_cases same : b = 0xff
    · exact ⟨[], first, if_pos same, same ▸ List.suffix_rfl⟩
    · exact ⟨[b], nothing, if_neg same, List.nil_suffix⟩
  | first =>
    by_cases same : b = 0x55
    · exact ⟨[], second, if_pos same, same ▸ List.suffix_rfl⟩
    · exact ⟨[0xff, b], _, if_neg same, afterNoise_isSuffix _ b⟩
  | second =>
    by_cases same : b = 0xaa
    · exact ⟨[], mark, if_pos same, same ▸ List.suffix_rfl⟩
    · exact ⟨[0xff, 0x55, b], _, if_neg same, afterNoise_isSuffix _ b⟩
  | mark => exact absurd rfl before

theorem next_first {seen : Seen} (before : seen ≠ mark) : ∃ s, seen.next 0xff = .noise s first := by
  cases seen with
  | nothing => exact ⟨_, rfl⟩
  | first => exact ⟨_, rfl⟩
  | second => exact ⟨_, rfl⟩
  | mark => exact absurd rfl before

end Seen

theorem collect_one {b : UInt8} (here : p.view = ⟨b :: rest, sent, limit, timeout⟩)
    (hands : limit ≠ some 0) :
    ∃ q, p.collect 1 = ([b], q) ∧ q.view = ⟨rest, sent, limit, timeout⟩ :=
  have ⟨first, after⟩ := collect_of_view (s := [b]) here hands
  ⟨_, Prod.ext first rfl, after⟩

theorem hunt_of_noise (seen : Seen) {b : UInt8} {after : Seen}
    (here : p.view = ⟨b :: rest, sent, limit, timeout⟩) (hands : limit ≠ some 0)
    (passed : seen.next b = .noise s after) :
    ∃ q : Port, q.view = ⟨rest, sent, limit, timeout⟩ ∧
      (p.hunt seen).header = (q.hunt after).header ∧ (p.hunt seen).port = (q.hunt after).port := by
  obtain ⟨q, got, view⟩ := collect_one here hands
  refine ⟨q, view, ?_⟩
  rw [hunt]
  split
  · next none => rw [got] at none; cases none
  · next some =>
    rw [got] at some
    cases some
    rw [passed]
    exact ⟨rfl, rfl⟩

theorem hunt_of_header {b : UInt8} {seen : Seen}
    (here : p.view = ⟨b :: rest, sent, limit, timeout⟩) (hands : limit ≠ some 0)
    (ends : seen.next b = .header s) :
    (p.hunt seen).header = some s ∧ (p.hunt seen).port.view = ⟨rest, sent, limit, timeout⟩ := by
  obtain ⟨q, got, view⟩ := collect_one here hands
  rw [hunt]
  split
  · next none => rw [got] at none; cases none
  · next some =>
    rw [got] at some
    cases some
    rw [ends]
    exact ⟨rfl, view⟩

/-- A byte of noise is passed over, and what was seen then spells no mark with the noise behind. -/
theorem hunt_of_unmarked_cons {seen : Seen} {b : UInt8}
    (here : p.view = ⟨b :: rest, sent, limit, timeout⟩) (hands : limit ≠ some 0)
    (unmarked : Unmarked (seen.spelled ++ b :: noise)) :
    ∃ (q : Port) (after : Seen), q.view = ⟨rest, sent, limit, timeout⟩ ∧
      Unmarked (after.spelled ++ noise) ∧
      (p.hunt seen).header = (q.hunt after).header ∧ (p.hunt seen).port = (q.hunt after).port := by
  obtain ⟨_, after, passed, front, same⟩ :=
    Seen.next_of_ne_mark (Seen.ne_mark_of_unmarked unmarked) b
  obtain ⟨q, view, header, port⟩ := hunt_of_noise seen here hands passed
  refine ⟨q, after, view, unmarked.of_isSuffix ⟨front, ?_⟩, header, port⟩
  rw [← List.append_assoc, same, List.append_assoc]
  rfl

theorem hunt_to_mark (seen : Seen)
    (here : p.view = ⟨noise ++ 0xff :: 0x55 :: 0xaa :: rest, sent, limit, timeout⟩)
    (hands : limit ≠ some 0) (unmarked : Unmarked (seen.spelled ++ noise)) :
    ∃ q : Port, q.view = ⟨rest, sent, limit, timeout⟩ ∧
      (p.hunt seen).header = (q.hunt .mark).header ∧ (p.hunt seen).port = (q.hunt .mark).port := by
  induction noise generalizing p seen with
  | nil =>
    obtain ⟨_, passed⟩ := Seen.next_first (Seen.ne_mark_of_unmarked unmarked)
    obtain ⟨q, view, header, port⟩ := hunt_of_noise seen here hands passed
    obtain ⟨q', view, header', port'⟩ := hunt_of_noise .first view hands rfl
    obtain ⟨q'', view, header'', port''⟩ := hunt_of_noise .second view hands rfl
    exact ⟨q'', view, (header.trans header').trans header'', (port.trans port').trans port''⟩
  | cons c noise ih =>
    obtain ⟨q, after, view, unmarked, header, port⟩ := hunt_of_unmarked_cons here hands unmarked
    rw [header, port]
    exact ih after view unmarked

theorem hunt_of_view (seen : Seen) {b : UInt8}
    (here : p.view = ⟨noise ++ 0xff :: 0x55 :: 0xaa :: b :: rest, sent, limit, timeout⟩)
    (hands : limit ≠ some 0) (unmarked : Unmarked (seen.spelled ++ noise)) :
    (p.hunt seen).header = some [0xff, 0x55, 0xaa, b] ∧
      (p.hunt seen).port.view = ⟨rest, sent, limit, timeout⟩ := by
  obtain ⟨q, view, header, port⟩ := hunt_to_mark seen here hands unmarked
  rw [header, port]
  exact hunt_of_header view hands rfl

theorem read_of_nil (here : p.view = ⟨[], sent, limit, timeout⟩) (size : Nat) :
    ∃ q, p.read size = ([], q) ∧ q.view = ⟨[], sent, limit, timeout⟩ := by
  obtain ⟨none, view⟩ := read_of_view here (show p.read size = (_, (p.read size).2) from rfl)
  rw [List.take_nil] at none
  rw [List.drop_nil] at view
  exact ⟨_, Prod.ext none rfl, view⟩

theorem hunt_of_nil (here : p.view = ⟨[], sent, limit, timeout⟩) (seen : Seen) :
    (p.hunt seen).header = none ∧ (p.hunt seen).port.view = ⟨[], sent, limit, timeout⟩ := by
  obtain ⟨q, done, view⟩ := read_of_nil here 1
  have got : p.collect 1 = ([], q) := by
    rw [collect, if_neg Nat.one_ne_zero, done]
  rw [hunt]
  split
  · next none =>
    rw [got] at none
    cases none
    exact ⟨rfl, view⟩
  · next some => rw [got] at some; cases some

theorem hunt_of_mark_last (seen : Seen)
    (here : p.view = ⟨noise ++ [0xff, 0x55, 0xaa], sent, limit, timeout⟩)
    (hands : limit ≠ some 0) (unmarked : Unmarked (seen.spelled ++ noise)) :
    (p.hunt seen).header = none ∧ (p.hunt seen).port.view = ⟨[], sent, limit, timeout⟩ := by
  obtain ⟨q, view, header, port⟩ := hunt_to_mark seen here hands unmarked
  rw [header, port]
  exact hunt_of_nil view .mark

theorem hunt_of_unmarked (seen : Seen)
    (here : p.view = ⟨noise, sent, limit, timeout⟩) (hands : limit ≠ some 0)
    (unmarked : Unmarked (seen.spelled ++ noise)) :
    (p.hunt seen).header = none ∧ (p.hunt seen).port.view = ⟨[], sent, limit, timeout⟩ := by
  induction noise generalizing p seen with
  | nil => exact hunt_of_nil here seen
  | cons c noise ih =>
    obtain ⟨q, after, view, unmarked, header, port⟩ := hunt_of_unmarked_cons here hands unmarked
    rw [header, port]
    exact ih after view unmarked

/-! Whatever is read, nothing is sent. -/

@[simp] theorem sent_noteTimeout (p : Port) : p.noteTimeout.sent = p.sent := by
  unfold noteTimeout; split <;> rfl

theorem sent_collect (p : Port) (size : Nat) : (p.collect size).2.sent = p.sent := by
  fun_induction collect p size with
  | case1 => rfl
  | case2 p size _ rest none =>
    have := p.sent_noteTimeout
    rw [show rest = (p.read size).2 by rw [none]]
    exact this
  | case3 p size _ b s rest got more ih =>
    refine ih.trans ?_
    rw [show rest = (p.read size).2 by rw [got]]
    exact p.sent_noteTimeout

theorem sent_hunt (p : Port) (seen : Seen) : (p.hunt seen).port.sent = p.sent := by
  fun_induction hunt p seen with
  | case1 p seen rest none =>
    rw [← p.sent_collect 1, none]
  | case2 p seen b _ rest got s ends =>
    rw [← p.sent_collect 1, got]
  | case3 p seen b _ rest got s after passed found ih =>
    rw [← p.sent_collect 1, got]
    exact ih

end Keystream.Port
