import Keystream.Segments
import Mathlib.Data.List.Basic
/-!
Segments by their numbers, and parts joined by a separator that are found again by their length.
-/
namespace Keystream

variable {α : Type}

def segment (n i : Nat) (xs : List α) : List α := (xs.drop (n * i)).take n

def segmentCount (n length : Nat) : Nat := (length + n - 1) / n

theorem segments_eq_map {n : Nat} (positive : 0 < n) (xs : List α) :
    segments n xs = (List.range (segmentCount n xs.length)).map (segment n · xs) := by
  induction xs using segments.induct n with
  | case1 xs done =>
    have nothing : xs = [] := done.resolve_left (Nat.ne_of_gt positive)
    have none : segmentCount n 0 = 0 := Nat.div_eq_of_lt (by omega)
    rw [segments, dif_pos done, nothing, List.length_nil, none]
    rfl
  | case2 xs more ih =>
    have begun : 0 < xs.length := List.length_pos_iff.2 fun empty => more (.inr empty)
    have rest : segmentCount n xs.length = segmentCount n (xs.drop n).length + 1 := by
      rw [List.length_drop, segmentCount, segmentCount]
      obtain long | short := Nat.le_total n xs.length
      · have further : xs.length + n - 1 = xs.length - n + n - 1 + n := by omega
        rw [further, Nat.add_div_right _ positive]
      · have none : (xs.length - n + n - 1) / n = 0 := Nat.div_eq_of_lt (by omega)
        rw [none]
        exact Nat.div_eq_of_lt_le (by omega) (by omega)
    rw [segments, dif_neg more, ih, rest, List.range_succ_eq_map, List.map_cons,
      List.map_map]
    refine congrArg₂ _ rfl (List.map_congr_left fun i _ => ?_)
    show (List.drop _ _).take n = (List.drop _ _).take n
    rw [List.drop_drop, Nat.mul_succ, Nat.add_comm]

theorem flatMap_segment (n count : Nat) (xs : List α) :
    (List.range count).flatMap (segment n · xs) = xs.take (n * count) := by
  induction count with
  | zero => rfl
  | succ count ih =>
    rw [List.range_succ, List.flatMap_append, ih, List.flatMap_singleton, Nat.mul_succ,
      List.take_add]
    rfl

theorem flatMap_segments {n : Nat} (positive : 0 < n) (xs : List α) :
    (List.range (segmentCount n xs.length)).flatMap (segment n · xs) = xs := by
  have whole := Nat.lt_mul_div_succ (xs.length + n - 1) positive
  rw [Nat.mul_succ] at whole
  rw [flatMap_segment, List.take_of_length_le]
  rw [segmentCount]
  omega

theorem segments_of_length_le {n : Nat} {xs : List α} (begun : xs ≠ []) (short : xs.length ≤ n) :
    segments n xs = [xs] := by
  have positive : n ≠ 0 := fun zero => begun (List.length_eq_zero_iff.1 (by omega))
  rw [segments, dif_neg (not_or.2 ⟨positive, begun⟩), List.take_of_length_le short,
    List.drop_eq_nil_of_le short, segments, dif_pos (.inr rfl)]

theorem segments_append {n : Nat} {xs : List α} (positive : 0 < n) (whole : xs.length = n)
    (rest : List α) : segments n (xs ++ rest) = xs :: segments n rest := by
  have begun : xs ++ rest ≠ [] :=
    List.append_ne_nil_of_left_ne_nil (List.ne_nil_of_length_pos (by omega)) rest
  rw [segments, dif_neg (not_or.2 ⟨Nat.ne_of_gt positive, begun⟩), List.take_left' whole,
    List.drop_left' whole]

section

variable (sep : List α) {parts : List (List α)}

theorem length_intercalate {width : Nat} (wide : ∀ part ∈ parts, part.length = width)
    (some : parts ≠ []) :
    (sep.intercalate parts).length + sep.length = (width + sep.length) * parts.length := by
  induction parts with
  | nil => exact absurd rfl some
  | cons part parts ih =>
    obtain ⟨first, wide⟩ := List.forall_mem_cons.1 wide
    cases parts with
    | nil => simp [List.intercalate, first]
    | cons next parts =>
      rw [List.intercalate_cons_cons, List.length_append, List.length_append, first, Nat.add_assoc,
        ih wide (List.cons_ne_nil _ _), List.length_cons, Nat.mul_succ]
      exact Nat.add_comm _ _

theorem segments_intercalate {width : Nat} (positive : 0 < width)
    (wide : ∀ part ∈ parts, part.length = width) :
    (segments (width + sep.length) (sep.intercalate parts)).map (List.take width) = parts := by
  induction parts with
  | nil => rw [List.intercalate_nil, segments, dif_pos (.inr rfl), List.map_nil]
  | cons part parts ih =>
    obtain ⟨first, wide⟩ := List.forall_mem_cons.1 wide
    cases parts with
    | nil =>
      have begun : part ≠ [] := List.ne_nil_of_length_pos (by omega)
      rw [List.intercalate_singleton, segments_of_length_le begun (by omega), List.map_singleton,
        List.take_of_length_le (by omega)]
    | cons next parts =>
      rw [List.intercalate_cons_cons,
        segments_append (by omega) (by rw [List.length_append, first]), List.map_cons,
        ih wide, List.take_left' first]

variable {sep}

theorem filter_intercalate {p : α → Bool} (nothing : sep.filter p = []) :
    (sep.intercalate parts).filter p = parts.flatMap (List.filter p) := by
  induction parts with
  | nil => rfl
  | cons part parts ih =>
    cases parts with
    | nil => simp [List.intercalate]
    | cons next parts =>
      rw [List.intercalate_cons_cons, List.filter_append, List.filter_append, nothing,
        List.append_nil, ih]
      rfl

end

end Keystream
