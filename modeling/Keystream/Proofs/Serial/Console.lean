import Keystream.Proofs.Printed
import Keystream.Proofs.Serial.Link
/-!
What is shown of a line on the way to a frame. Nothing is left out; but an `ff` that breaks off one
mark and may begin another stands in both stretches, so it is shown once more than it was read, even
if it turns out to begin the frame.
-/
namespace Keystream

namespace Port

/-- Whether some bytes end in a mark that is begun and not yet whole. -/
def HalfMark (s : Bytes) : Prop := [0xff] <:+ s ∨ [0xff, 0x55] <:+ s

instance (s : Bytes) : Decidable (HalfMark s) := inferInstanceAs (Decidable (_ ∨ _))

/-- Bytes that are read behind `before`, with a second copy of each `ff` that breaks off a mark. -/
def withRestarts (before : Bytes) : Bytes → Bytes
  | [] => []
  | b :: s =>
    (if b = 0xff ∧ HalfMark before then [b, b] else [b]) ++ withRestarts (before ++ [b]) s

theorem withRestarts_cons_of_not_halfMark {before : Bytes} (whole : ¬HalfMark before) (b : UInt8)
    (s : Bytes) : withRestarts before (b :: s) = b :: withRestarts (before ++ [b]) s := by
  rw [withRestarts, if_neg fun both => whole both.2]
  rfl

theorem withRestarts_cons_of_halfMark {before : Bytes} (half : HalfMark before) (s : Bytes) :
    withRestarts before (0xff :: s) = 0xff :: 0xff :: withRestarts (before ++ [0xff]) s := by
  rw [withRestarts, if_pos ⟨rfl, half⟩]
  rfl

theorem sublist_withRestarts (before s : Bytes) : s.Sublist (withRestarts before s) := by
  induction s generalizing before with
  | nil => exact List.Sublist.slnil
  | cons b s ih =>
    rw [withRestarts]
    have first : [b].Sublist (if b = 0xff ∧ HalfMark before then [b, b] else [b]) := by
      split
      · exact (List.Sublist.refl [b]).cons b
      · exact .refl _
    exact first.append (ih _)

theorem withRestarts_eq_self_iff {before s : Bytes} :
    withRestarts before s = s ↔
      ∀ front back, s = front ++ 0xff :: back → ¬HalfMark (before ++ front) := by
  induction s generalizing before with
  | nil => simp [withRestarts]
  | cons b s ih =>
    by_cases restart : b = 0xff ∧ HalfMark before
    · obtain ⟨rfl, half⟩ := restart
      have longer := (sublist_withRestarts (before ++ [0xff]) s).length_le
      rw [withRestarts_cons_of_halfMark half]
      constructor
      · intro same
        have sizes := congrArg List.length same
        simp only [List.length_cons] at sizes
        omega
      · intro never
        exact absurd (by rwa [List.append_nil]) (never [] s rfl)
    · rw [withRestarts, if_neg restart, List.singleton_append, List.cons.injEq, ih]
      simp only [true_and]
      constructor
      · intro never front back split
        cases front with
        | nil =>
          obtain ⟨rfl, rfl⟩ := List.cons.inj split
          rw [List.append_nil]
          exact fun half => restart ⟨rfl, half⟩
        | cons c front =>
          obtain ⟨rfl, rfl⟩ := List.cons.inj split
          have := never front back rfl
          rwa [List.append_assoc] at this
      · rintro never front back rfl
        rw [List.append_assoc]
        exact never (b :: front) back rfl

theorem withRestarts_nil_eq_self_iff {s : Bytes} :
    withRestarts [] s = s ↔ ¬[0xff, 0xff] <:+: s ∧ ¬[0xff, 0x55, 0xff] <:+: s := by
  rw [withRestarts_eq_self_iff]
  simp only [List.nil_append]
  constructor
  · intro never
    constructor
    · rintro ⟨front, back, rfl⟩
      exact never (front ++ [0xff]) back (by simp) (.inl (List.suffix_append ..))
    · rintro ⟨front, back, rfl⟩
      exact never (front ++ [0xff, 0x55]) back (by simp) (.inr (List.suffix_append ..))
  · rintro ⟨notFirst, notSecond⟩ front back rfl (⟨start, rfl⟩ | ⟨start, rfl⟩)
    · exact notFirst ⟨start, back, by simp⟩
    · exact notSecond ⟨start, back, by simp⟩

structure Seen.Tells (seen : Seen) (before : Bytes) : Prop where
  first : [0xff] <:+ before ↔ seen = first
  second : [0xff, 0x55] <:+ before ↔ seen = second
  mark : [0xff, 0x55, 0xaa] <:+ before ↔ seen = mark

theorem Seen.tells_nil : nothing.Tells [] where
  first := by decide
  second := by decide
  mark := by decide

theorem concat_isSuffix_concat_iff {s t : Bytes} {b c : UInt8} :
    s ++ [c] <:+ t ++ [b] ↔ c = b ∧ s <:+ t := by
  constructor
  · rintro ⟨front, same⟩
    rw [← List.append_assoc, List.append_singleton_inj] at same
    exact ⟨same.2, front, same.1⟩
  · rintro ⟨rfl, front, rfl⟩
    exact ⟨front, by rw [List.append_assoc]⟩

namespace Seen.Tells

variable {seen after : Seen} {before s : Bytes} {b : UInt8}

theorem halfMark_iff (t : seen.Tells before) : HalfMark before ↔ seen = .first ∨ seen = .second :=
  or_congr t.first t.second

theorem next (t : seen.Tells before) (passed : seen.next b = .noise s after) :
    after.Tells (before ++ [b]) := by
  have first : [0xff] <:+ before ++ [b] ↔ 0xff = b := by
    rw [← List.nil_append [0xff], concat_isSuffix_concat_iff, and_iff_left List.nil_suffix]
  have second : [0xff, 0x55] <:+ before ++ [b] ↔ 0x55 = b ∧ seen = .first :=
    (concat_isSuffix_concat_iff (s := [0xff])).trans (and_congr_right' t.first)
  have mark : [0xff, 0x55, 0xaa] <:+ before ++ [b] ↔ 0xaa = b ∧ seen = .second :=
    (concat_isSuffix_concat_iff (s := [0xff, 0x55])).trans (and_congr_right' t.second)
  cases seen <;> simp only [Seen.next, Seen.afterNoise] at passed <;> grind [Seen.Tells]

theorem shows_noise (t : seen.Tells before) (passed : seen.next b = .noise s after)
    (rest : Bytes) :
    s ++ (after.spelled ++ rest) =
      seen.spelled ++ ((if b = 0xff ∧ HalfMark before then [b, b] else [b]) ++ rest) := by
  have half := t.halfMark_iff
  cases seen <;> simp only [Seen.next, Seen.afterNoise] at passed <;> grind [Seen.spelled]

theorem shows_header (t : seen.Tells before) (ends : seen.next b = .header s) :
    s = seen.spelled ++ withRestarts before [b] ∧ s <:+ before ++ [b] := by
  cases seen with
  | nothing | first | second =>
    simp only [Seen.next] at ends
    split at ends <;> cases ends
  | mark =>
    cases ends
    have whole : ¬HalfMark before := by simp [t.halfMark_iff]
    rw [withRestarts_cons_of_not_halfMark whole]
    exact ⟨rfl, (concat_isSuffix_concat_iff (s := [0xff, 0x55, 0xaa])).2 ⟨rfl, t.mark.2 rfl⟩⟩

end Seen.Tells

theorem length_collect_le (p : Port) (size : Nat) : (p.collect size).1.length ≤ size := by
  fun_induction collect p size with
  | case1 => exact Nat.le_refl _
  | case2 => exact Nat.zero_le _
  | case3 p size _ b s rest got more ih =>
    have taken := p.length_read_le size
    rw [got] at taken
    simp only [List.length_append, List.length_cons] at taken ⊢
    have : more.1.length ≤ size - (s.length + 1) := ih
    omega

theorem unread_of_collect_one {p q : Port} {b : UInt8} {s : Bytes}
    (got : p.collect 1 = (b :: s, q)) : p.unread = b :: q.unread := by
  have short := p.length_collect_le 1
  rw [got] at short
  obtain rfl : s = [] := List.length_eq_zero_iff.1 (by simpa using short)
  rw [← p.collect_append 1, got]
  rfl

/-- What the hunt shows and what it finds are what it read, restarts apart. -/
theorem hunt_shows (p : Port) (seen : Seen) {header : Bytes} :
    ∀ before, seen.Tells before → (p.hunt seen).header = some header →
      ∃ taken, p.unread = taken ++ (p.hunt seen).port.unread ∧
        (p.hunt seen).noise ++ header = seen.spelled ++ withRestarts before taken ∧
        header <:+ before ++ taken := by
  fun_induction hunt p seen with
  | case1 =>
    intro _ _ missing
    cases missing
  | case2 p seen b _ rest got s ends =>
    rintro before tells ⟨⟩
    obtain ⟨shown, suffix⟩ := tells.shows_header ends
    exact ⟨[b], unread_of_collect_one got, shown, suffix⟩
  | case3 p seen b _ rest got s after passed next ih =>
    intro before tells found
    obtain ⟨taken, whole, shown, suffix⟩ := ih (before ++ [b]) (tells.next passed) found
    refine ⟨b :: taken, ?_, ?_, ?_⟩
    · rw [unread_of_collect_one got, whole]
      rfl
    · calc s ++ next.noise ++ header
        _ = s ++ (after.spelled ++ withRestarts (before ++ [b]) taken) := by
          rw [List.append_assoc, shown]
        _ = seen.spelled ++ withRestarts before (b :: taken) := tells.shows_noise passed _
    · rwa [List.append_assoc] at suffix

end Port

namespace Link

open Keystream.Action Port

theorem run_sync {l r : Link} {header : Bytes} (found : sync.effect l = (.ok header, r)) :
    (l.port.hunt .nothing).header = some header ∧ r.port = (l.port.hunt .nothing).port ∧
      sync.run l = (do
        showNoise (l.port.hunt .nothing).noise
        return header : Action Link Bytes).run { l with port := r.port } := by
  obtain ⟨q, shown, port⟩ := exists_effect_showNoise (l.port.hunt .nothing).noise
    { l with port := (l.port.hunt .nothing).port }
  rw [sync, effect_get_bind, effect_set_bind, effect_bind_of_ok shown] at found
  rw [sync, run_get_bind, run_set_bind]
  rcases hunted : (l.port.hunt .nothing).header with _ | s
  · rw [hunted] at found
    cases found
  · rw [hunted] at found
    obtain rfl : s = header := Except.ok.inj (congrArg Prod.fst found)
    obtain rfl : q = r := congrArg Prod.snd found
    rw [port]
    exact ⟨rfl, rfl, rfl⟩

/-- Where a frame's beginning is found, what was shown on the way and the beginning are the bytes
read, in their order, each `ff` that broke off a mark once more than it was read. So nothing is left
out, and each byte is in one place only if no `ff` follows `ff` or `ff 55`. -/
theorem sync_shows_restarts {l r : Link} {header : Bytes}
    (found : sync.effect l = (.ok header, r)) :
    ∃ taken shown, l.port.unread = taken ++ r.port.unread ∧ header <:+ taken ∧
      sync.run l = (do showNoise shown; return header : Action Link Bytes).run
        { l with port := r.port } ∧
      shown ++ header = withRestarts [] taken ∧ taken.Sublist (shown ++ header) ∧
      (shown ++ header = taken ↔ ¬[0xff, 0xff] <:+: taken ∧ ¬[0xff, 0x55, 0xff] <:+: taken) := by
  obtain ⟨hunted, port, run⟩ := run_sync found
  obtain ⟨taken, whole, shown, suffix⟩ := l.port.hunt_shows .nothing [] Seen.tells_nil hunted
  rw [← port] at whole
  have shown : (l.port.hunt .nothing).noise ++ header = withRestarts [] taken := shown
  refine ⟨taken, _, whole, suffix, run, shown, ?_, ?_⟩
  · rw [shown]
    exact sublist_withRestarts [] taken
  · rw [shown, withRestarts_nil_eq_self_iff]

/-- A byte of noise before a frame: the frame's first byte is shown behind it. -/
theorem sync_shows_restarts_of_frame :
    let l : Link := { port := { unread := [0xff, 0xff, 0x55, 0xaa, 0x10], timeout := none },
                      traced := false }
    ∃ r, sync.effect l = (.ok [0xff, 0x55, 0xaa, 0x10], r) ∧ r.port.unread = [] ∧
      ∃ shown, sync.run l = (do
          showNoise shown
          return [0xff, 0x55, 0xaa, 0x10] : Action Link Bytes).run { l with port := r.port } ∧
        shown = [0xff, 0xff] ∧ shown ++ [0xff, 0x55, 0xaa, 0x10] ≠ l.port.unread := by
  intro l
  have here : l.port.view = ⟨[0xff] ++ 0xff :: 0x55 :: 0xaa :: 0x10 :: [], [], none, none⟩ := rfl
  obtain ⟨r, found, view⟩ := exists_effect_sync here (by decide) (by decide)
  have left : r.port.unread = [] := (View.mk.inj view).1
  obtain ⟨taken, shown, whole, _, run, stretch, _, _⟩ := sync_shows_restarts found
  rw [left, List.append_nil] at whole
  rw [← whole] at stretch
  have stretch : shown ++ [0xff, 0x55, 0xaa, 0x10] =
      [0xff, 0xff] ++ [0xff, 0x55, 0xaa, 0x10] := stretch
  obtain rfl := List.append_cancel_right stretch
  exact ⟨r, found, left, _, run, rfl, by decide⟩

end Link

end Keystream
