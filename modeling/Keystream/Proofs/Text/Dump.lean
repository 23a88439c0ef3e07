import Keystream.Proofs.Segments
import Keystream.Proofs.Text.Radix
import Keystream.Text.Dump
import Mathlib.Data.List.Basic
/-!
What a dump leaves out, and the bytes read back from its lines. A line tells the offset of its row
and, in its columns, the row itself; a row that no line tells is the one before it once more.
-/
namespace Keystream.Dump

/-- Whether a row is the one before it once more. -/
def Repeats (rows : Nat → Bytes) (i : Nat) : Prop := 0 < i ∧ rows i = rows (i - 1)

instance (rows : Nat → Bytes) (i : Nat) : Decidable (Repeats rows i) :=
  inferInstanceAs (Decidable (_ ∧ _))

section

variable (style : Style) (start : Int) (rows : Nat → Bytes)

/-- The lines for the row `i`, at most one: a star for the first row of a stretch that repeats. -/
def linesOf (i : Nat) : List String :=
  if style.short = true ∧ Repeats rows i then
    if Repeats rows (i - 1) then [] else [starLine style (start + style.stride * i)]
  else [rowLine style (start + style.stride * i) (rows i)]

def before (i : Nat) : Option Bytes := if i = 0 then none else some (rows (i - 1))

theorem before_eq_some_iff (i : Nat) : before rows i = some (rows i) ↔ Repeats rows i := by
  rw [before, Repeats]
  split
  · next first => simp [first]
  · next later => simp [Nat.pos_of_ne_zero later, eq_comm]

theorem offset_succ (stride first : Nat) :
    start + stride * (first + 1 : Nat) = start + stride * first + stride := by
  rw [Int.natCast_add, Int.mul_add, Int.natCast_one, Int.mul_one, Int.add_assoc]

/-- The last row that was printed is always the row before, whether that one was left out or not. -/
theorem rowLines_eq (first count : Nat) :
    rowLines style (start + style.stride * first) (before rows first)
        (decide (style.short = true ∧ Repeats rows (first - 1)))
        ((List.range' first count).map rows) =
      (List.range' first count).flatMap (linesOf style start rows) := by
  induction count generalizing first with
  | zero => rfl
  | succ count ih =>
    have behind := ih (first + 1)
    have skips : (style.short && before rows first == some (rows first)) =
        decide (style.short = true ∧ Repeats rows first) := by
      rw [Bool.eq_iff_iff, Bool.and_eq_true, beq_iff_eq, decide_eq_true_iff, before_eq_some_iff]
    rw [offset_succ, Nat.add_sub_cancel] at behind
    rw [List.range'_succ, List.map_cons, List.flatMap_cons, rowLines, skips, linesOf, ← behind]
    by_cases left : style.short = true ∧ Repeats rows first
    · have same : before rows (first + 1) = before rows first := by
        rw [(before_eq_some_iff rows first).2 left.2]
        rfl
      simp only [left, same, if_true, and_self, true_and, decide_true, decide_eq_true_eq]
    · simp only [left, if_false, decide_false, Bool.false_eq_true]
      rfl

theorem lines_eq (positive : 0 < style.stride) (s : Bytes) :
    lines style start s = (List.range (segmentCount style.stride s.length)).flatMap
      (linesOf style start (segment style.stride · s)) := by
  have whole := rowLines_eq style start (segment style.stride · s) 0
    (segmentCount style.stride s.length)
  have none : ¬(style.short = true ∧ Repeats (segment style.stride · s) (0 - 1)) :=
    fun repeats => absurd repeats.2.1 (by decide)
  rw [decide_eq_false none, Int.natCast_zero, Int.mul_zero, Int.add_zero] at whole
  rw [lines, segments_eq_map positive, List.range_eq_range', ← whole]
  rfl

example : lines ⟨true, 3, ">"⟩ (-3) [0x41, 2, 3, 0x41, 2, 3, 0x41, 2, 3, 0x7f] =
    [">-0000003  41 02 03                 |A..|",
      ">00000000  *",
      ">00000006  7f                       |.  |"] := by
  cbv

end

def width (stride : Nat) : Nat := 25 * ((stride + 7) / 8) - 2

theorem length_encodeChars (s : Bytes) : (Hex.encodeChars s [' ']).length = 3 * s.length - 1 := by
  cases s with
  | nil => rfl
  | cons b s =>
    have pairs : ∀ pair ∈ (b :: s).map Hex.byteDigits, pair.length = 2 :=
      List.forall_mem_map.2 fun _ _ => rfl
    have whole := length_intercalate [' '] pairs (List.cons_ne_nil _ _)
    rw [List.length_map, List.length_singleton] at whole
    rw [Hex.encodeChars]
    omega

def groupText (row : Bytes) (group : Nat) : List Char :=
  Text.padRight 23 (Hex.encodeChars (segment 8 group row) [' '])

theorem columns_eq (stride : Nat) (row : Bytes) :
    columns stride row =
      [' ', ' '].intercalate ((List.range ((stride + 7) / 8)).map (groupText row)) := rfl

theorem length_groupText (row : Bytes) (group : Nat) : (groupText row group).length = 23 := by
  rw [groupText, Text.padRight, List.length_append, List.length_replicate, length_encodeChars,
    segment, List.length_take]
  omega

theorem length_columns {stride : Nat} (positive : 0 < stride) (row : Bytes) :
    (columns stride row).length = width stride := by
  have groups : (stride + 7) / 8 ≠ 0 := by omega
  have wide : ∀ text ∈ (List.range ((stride + 7) / 8)).map (groupText row), text.length = 23 :=
    List.forall_mem_map.2 fun group _ => length_groupText row group
  have whole := length_intercalate [' ', ' '] wide
    (by rwa [ne_eq, List.map_eq_nil_iff, List.range_eq_nil])
  simp only [List.length_map, List.length_range, ← columns_eq, List.length_cons,
    List.length_nil] at whole
  rw [width]
  omega

theorem filter_groupText (row : Bytes) (group : Nat) :
    (groupText row group).filter (· ≠ ' ') = (segment 8 group row).flatMap Hex.byteDigits := by
  rw [groupText, Text.padRight, List.filter_append, List.filter_replicate_of_neg (by decide),
    List.append_nil, Hex.filter_encodeChars (by decide) (by decide)]

theorem filter_columns {stride : Nat} {row : Bytes} (fits : row.length ≤ stride) :
    (columns stride row).filter (· ≠ ' ') = row.flatMap Hex.byteDigits := by
  rw [columns_eq, filter_intercalate (by decide), List.flatMap_map]
  simp only [filter_groupText]
  rw [← List.flatMap_assoc, flatMap_segment, List.take_of_length_le (by omega)]

/-- What a line tells of a dump with rows of `stride` bytes: an offset, and the row there unless a
star stands in its place. -/
def readLine (stride : Nat) (indent line : String) : Option (Int × Option Bytes) :=
  let text := line.toList.drop indent.toList.length
  let numeral := text.takeWhile (· ≠ ' ')
  let columns := ((text.drop numeral.length).drop 2).take (width stride)
  (Text.readHex numeral).map fun offset => (offset, Hex.decodePairs (columns.filter (· ≠ ' ')))

theorem readLine_of_toList {line indent : String} {offset : Int} {body : List Char} (stride : Nat)
    (text : line.toList =
      indent.toList ++ ((Text.hexFilled 8 offset).toList ++ ' ' :: ' ' :: body)) :
    readLine stride indent line =
      some (offset, Hex.decodePairs ((body.take (width stride)).filter (· ≠ ' '))) := by
  simp only [readLine, text, List.drop_left, Text.takeWhile_hexFilled, Text.readHex_hexFilled]
  rfl

variable {style : Style}

theorem readLine_rowLine (positive : 0 < style.stride) (offset : Int) {row : Bytes}
    (fits : row.length ≤ style.stride) :
    readLine style.stride style.indent (rowLine style offset row) = some (offset, some row) := by
  have text : (rowLine style offset row).toList = style.indent.toList ++
      ((Text.hexFilled 8 offset).toList ++ ' ' :: ' ' :: (columns style.stride row ++
        (' ' :: ' ' :: '|' :: (Text.padRight style.stride (row.map character) ++ ['|'])))) := by
    simp [rowLine, String.toList_append]
  rw [readLine_of_toList _ text, ← length_columns positive row, List.take_left,
    filter_columns fits, ← Hex.encodeChars_nil, Hex.decodePairs_encodeChars]

theorem readLine_starLine (positive : 0 < style.stride) (offset : Int) :
    readLine style.stride style.indent (starLine style offset) = some (offset, none) := by
  have text : (starLine style offset).toList = style.indent.toList ++
      ((Text.hexFilled 8 offset).toList ++ ' ' :: ' ' :: ['*']) := by
    simp [starLine, String.toList_append]
  have wide : ['*'].length ≤ width style.stride := by
    simp only [width, List.length_cons, List.length_nil]
    omega
  rw [readLine_of_toList _ text, List.take_of_length_le wide]
  rfl

def told (notes : List (Int × Option Bytes)) (offset : Int) : Option Bytes :=
  (notes.lookup offset).join

/-- The bytes of `count` rows from an offset on; a row that is not told is the previous one. -/
def rebuild (notes : List (Int × Option Bytes)) (stride : Nat) : Nat → Int → Bytes → Bytes
  | 0, _, _ => []
  | count + 1, offset, previous =>
    let row := (told notes offset).getD previous
    row ++ rebuild notes stride count (offset + stride) row

/-- The bytes of a dump, from its lines and how many bytes there are. -/
def recover (stride : Nat) (indent : String) (size : Nat) (lines : List String) : Bytes :=
  let notes := lines.filterMap (readLine stride indent)
  match notes.head? with
  | none => []
  | some (start, _) => rebuild notes stride (segmentCount stride size) start []

theorem rebuild_eq {notes : List (Int × Option Bytes)} {stride : Nat} {start : Int}
    {rows : Nat → Bytes} (first count : Nat) {previous : Bytes}
    (follows : 0 < first → previous = rows (first - 1))
    (tells : ∀ i < first + count, told notes (start + stride * i) = some (rows i) ∨
      told notes (start + stride * i) = none ∧ Repeats rows i) :
    rebuild notes stride count (start + stride * first) previous =
      (List.range' first count).flatMap rows := by
  induction count generalizing first previous with
  | zero => rfl
  | succ count ih =>
    have row : (told notes (start + stride * first)).getD previous = rows first := by
      obtain told | ⟨untold, repeats⟩ := tells first (by omega)
      · rw [told, Option.getD_some]
      · rw [untold, Option.getD_none, follows repeats.1, repeats.2]
    have behind : rebuild notes stride count (start + stride * (first + 1 : Nat)) (rows first) =
        (List.range' (first + 1) count).flatMap rows :=
      ih (first + 1) (fun _ => rfl) fun i within => tells i (by omega)
    rw [offset_succ] at behind
    rw [rebuild, row, behind, List.range'_succ, List.flatMap_cons]

def notesOf (style : Style) (start : Int) (rows : Nat → Bytes) (i : Nat) :
    List (Int × Option Bytes) :=
  if style.short = true ∧ Repeats rows i then
    if Repeats rows (i - 1) then [] else [(start + style.stride * i, none)]
  else [(start + style.stride * i, some (rows i))]

section

variable {start : Int} {rows : Nat → Bytes} (positive : 0 < style.stride)
include positive

theorem filterMap_linesOf (fits : ∀ i, (rows i).length ≤ style.stride) (i : Nat) :
    (linesOf style start rows i).filterMap (readLine style.stride style.indent) =
      notesOf style start rows i := by
  rw [linesOf, notesOf]
  split
  · split
    · rfl
    · rw [List.filterMap_cons_some (readLine_starLine positive _), List.filterMap_nil]
  · rw [List.filterMap_cons_some (readLine_rowLine positive _ (fits i)), List.filterMap_nil]

theorem lookup_other {i j : Nat} (other : i ≠ j) :
    (notesOf style start rows j).lookup (start + style.stride * i) = none := by
  have apart : ¬start + style.stride * i = start + style.stride * j := fun same =>
    other (Int.ofNat_inj.1 (Int.eq_of_mul_eq_mul_left (by omega) (Int.add_left_cancel same)))
  have missing (row : Option Bytes) :
      [(start + style.stride * j, row)].lookup (start + style.stride * i) = none := by
    rw [List.lookup_cons, beq_eq_false_iff_ne.2 apart]
    rfl
  rw [notesOf]
  split
  · split
    · rfl
    · exact missing none
  · exact missing _

theorem lookup_notes (is : List Nat) (i : Nat) :
    (is.flatMap (notesOf style start rows)).lookup (start + style.stride * i) =
      if i ∈ is then (notesOf style start rows i).lookup (start + style.stride * i)
      else none := by
  induction is with
  | nil => rfl
  | cons j is ih =>
    rw [List.flatMap_cons, List.lookup_append, ih]
    by_cases here : i = j
    · subst here
      rw [if_pos List.mem_cons_self]
      split
      · exact Option.or_self
      · exact Option.or_none
    · rw [lookup_other positive here, Option.none_or]
      simp only [List.mem_cons, here, false_or]

theorem told_notes {count i : Nat} (within : i < count) :
    told ((List.range count).flatMap (notesOf style start rows)) (start + style.stride * i) =
        some (rows i) ∨
      told ((List.range count).flatMap (notesOf style start rows)) (start + style.stride * i) =
          none ∧ Repeats rows i := by
  rw [told, lookup_notes positive, if_pos (List.mem_range.2 within), notesOf]
  split
  · next left =>
    refine .inr ⟨?_, left.2⟩
    split
    · rfl
    · rw [List.lookup_cons_self, Option.join_some]
  · rw [List.lookup_cons_self, Option.join_some]
    exact .inl rfl

theorem rebuild_notes (count : Nat) :
    rebuild ((List.range count).flatMap (notesOf style start rows)) style.stride count start [] =
      (List.range count).flatMap rows := by
  have begin : start + style.stride * (0 : Nat) = start := by
    rw [Int.natCast_zero, Int.mul_zero, Int.add_zero]
  calc rebuild ((List.range count).flatMap (notesOf style start rows)) style.stride count start []
      = rebuild ((List.range count).flatMap (notesOf style start rows)) style.stride count
          (start + style.stride * (0 : Nat)) [] := by rw [begin]
    _ = (List.range' 0 count).flatMap rows :=
        rebuild_eq 0 count (fun later => absurd later (Nat.lt_irrefl 0)) fun i within =>
          told_notes positive (by omega)
    _ = (List.range count).flatMap rows := by rw [List.range_eq_range']

omit positive in
theorem head_notes {count : Nat} (some : 0 < count) :
    ((List.range count).flatMap (notesOf style start rows)).head? =
      .some (start, .some (rows 0)) := by
  obtain ⟨count, rfl⟩ := Nat.exists_eq_succ_of_ne_zero (Nat.ne_of_gt some)
  rw [List.range_succ_eq_map, List.flatMap_cons]
  simp [notesOf, Repeats]

end

theorem recover_lines (style : Style) (positive : 0 < style.stride) (start : Int) (s : Bytes) :
    recover style.stride style.indent s.length (lines style start s) = s := by
  have fits (i : Nat) : (segment style.stride i s).length ≤ style.stride := List.length_take_le _ _
  have whole := flatMap_segments positive s
  have notes : (lines style start s).filterMap (readLine style.stride style.indent) =
      (List.range (segmentCount style.stride s.length)).flatMap
        (notesOf style start (segment style.stride · s)) := by
    rw [lines_eq style start positive, List.filterMap_flatMap]
    exact congrArg (List.flatMap · _) (funext (filterMap_linesOf positive fits))
  rw [recover, notes]
  obtain none | some := Nat.eq_zero_or_pos (segmentCount style.stride s.length)
  · rw [none] at whole ⊢
    exact whole
  · simp only [head_notes some]
    exact (rebuild_notes positive _).trans whole

/-- A short dump has the lines of a full one but for the rows that repeat, and nothing is lost. -/
theorem short_leaves_out_repeats {stride : Nat} (positive : 0 < stride) (indent : String)
    (start : Int) (s : Bytes) :
    ∃ full short : List String,
      lines? false stride indent start s = .ok full ∧
      lines? true stride indent start s = .ok short ∧
      full.length = segmentCount stride s.length ∧
      (short = (List.range full.length).flatMap fun i : Nat =>
        if Repeats (segment stride · s) i then
          if Repeats (segment stride · s) (i - 1) then []
          else [indent ++ Text.hexFilled 8 (start + stride * i) ++ "  *"]
        else full[i]?.toList) ∧
      recover stride indent s.length full = s ∧ recover stride indent s.length short = s := by
  have begun (short : Bool) :
      lines? short stride indent start s = .ok (lines ⟨short, stride, indent⟩ start s) :=
    if_neg fun none => absurd (Int.ofNat_inj.1 none) (Nat.ne_of_gt positive)
  have full : lines ⟨false, stride, indent⟩ start s =
      (List.range (segmentCount stride s.length)).map fun i : Nat =>
        rowLine ⟨false, stride, indent⟩ (start + stride * i) (segment stride i s) := by
    rw [lines_eq _ _ positive, List.map_eq_flatMap]
    rfl
  refine ⟨_, _, begun false, begun true, ?_, ?_,
    recover_lines ⟨false, stride, indent⟩ positive start s,
    recover_lines ⟨true, stride, indent⟩ positive start s⟩
  · rw [full, List.length_map, List.length_range]
  · rw [full, List.length_map, List.length_range, lines_eq _ _ positive]
    refine List.flatMap_congr fun i within => ?_
    rw [linesOf, List.getElem?_map, List.getElem?_range (List.mem_range.1 within)]
    simp only [true_and]
    rfl

theorem short_leaves_out_repeats_of_three :
    0 < 3 ∧ ∃ full short : List String,
      lines? false (3 : Nat) "  " (-3) [1, 2, 3, 1, 2, 3, 1, 2, 3, 1] = .ok full ∧
      lines? true (3 : Nat) "  " (-3) [1, 2, 3, 1, 2, 3, 1, 2, 3, 1] = .ok short ∧
      full.length = segmentCount 3 10 ∧
      (short = (List.range full.length).flatMap fun i : Nat =>
        if Repeats (segment 3 · [1, 2, 3, 1, 2, 3, 1, 2, 3, 1]) i then
          if Repeats (segment 3 · [1, 2, 3, 1, 2, 3, 1, 2, 3, 1]) (i - 1) then []
          else ["  " ++ Text.hexFilled 8 (-3 + (3 : Nat) * i) ++ "  *"]
        else full[i]?.toList) ∧
      recover 3 "  " 10 full = [1, 2, 3, 1, 2, 3, 1, 2, 3, 1] ∧
      recover 3 "  " 10 short = [1, 2, 3, 1, 2, 3, 1, 2, 3, 1] :=
  ⟨by decide, short_leaves_out_repeats (by decide) "  " (-3) [1, 2, 3, 1, 2, 3, 1, 2, 3, 1]⟩

end Keystream.Dump
