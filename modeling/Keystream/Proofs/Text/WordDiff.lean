import Keystream.Proofs.Segments
import Keystream.Proofs.Text.Radix
import Keystream.Text.WordDiff
import Mathlib.Algebra.Group.Nat.Defs
import Mathlib.Data.List.Basic
/-!
What a terminal shows of a difference: the words of the new buffer in every row that differs, with
the digits that changed in red and the other digits of such a word in green.
-/
namespace Keystream

def Word.digit (w : Word) (k : Nat) : Char := Nat.digitChar (w.toNat / 16 ^ (7 - k) % 16)

def Word.digits (w : Word) : List Char := (List.range 8).map w.digit

def Text.Printing (c : Char) : Prop := 0x20 ≤ c.toNat

instance (c : Char) : Decidable (Text.Printing c) := inferInstanceAs (Decidable (_ ≤ _))

open Text

theorem Text.Printing.ne {c control : Char} (printing : Printing c) (low : control.toNat < 0x20) :
    c ≠ control := by
  rintro rfl
  exact absurd low (Nat.not_lt.2 printing)

theorem Text.printing_digitChar : ∀ d : Fin 16, Printing (Nat.digitChar d) := by decide

theorem Word.printing_digit (w : Word) (k : Nat) : Printing (w.digit k) :=
  printing_digitChar ⟨_, Nat.mod_lt _ (by decide)⟩

theorem Word.printing_digits (w : Word) : ∀ c ∈ w.digits, Printing c :=
  List.forall_mem_map.2 fun k _ => w.printing_digit k

theorem Dump.printing_character (b : UInt8) : Printing (character b) := by
  rw [character]
  split
  · next printed =>
    rw [Char.ofNat, dif_pos (.inl (by omega))]
    exact printed.1
  · decide

namespace WordDiff

inductive Colour where
  | green
  | red
  deriving DecidableEq, Repr

/-- How a terminal draws a character. -/
structure Look where
  colour : Option Colour := none
  bold : Bool := false
  underlined : Bool := false
  deriving DecidableEq, Repr

def Look.select (look : Look) : List Char → Look
  | [] | ['0'] => {}
  | ['1'] => { look with bold := true }
  | ['4'] => { look with underlined := true }
  | ['3', '1'] => { look with colour := some .red }
  | ['3', '2'] => { look with colour := some .green }
  | _ => look

def Look.after (look : Look) (sequence : List Char) : Look :=
  ((sequence.drop 1).splitOn ';').foldl select look

/-- What a terminal shows of a text, each character as it is drawn. Nothing is shown of an escape
sequence; `begun` is what came of one that has not ended. -/
def draw : Option (List Char) → Look → List Char → List (Char × Look)
  | _, _, [] => []
  | none, look, c :: rest =>
    if c = '\x1b' then draw (some []) look rest else (c, look) :: draw none look rest
  | some begun, look, c :: rest =>
    if c = 'm' then draw none (look.after begun) rest else draw (some (begun ++ [c])) look rest

def shown (text : List Char) : List Char := (draw none {} text).map Prod.fst

/-- Whether one of the first digits of two rows differs. -/
def struck (old new : Nat → Char) (count : Nat) : Bool := decide (∃ k < count, old k ≠ new k)

def Look.of (changed struck : Bool) : Look where
  colour := some (if changed then .red else .green)
  bold := struck
  underlined := struck

/-- The look of a new digit, which is struck from the first that differs on. -/
def look (old new : Nat → Char) (k : Nat) : Look :=
  .of (old k != new k) (struck old new (k + 1))

theorem draw_green (look : Look) (rest : List Char) :
    draw none look (green ++ rest) = draw none { look with colour := some .green } rest := rfl

theorem draw_red (look : Look) (rest : List Char) :
    draw none look (red ++ rest) = draw none ⟨some .red, true, true⟩ rest := rfl

theorem draw_reset (look : Look) (rest : List Char) :
    draw none look (reset ++ rest) = draw none {} rest := rfl

theorem draw_cons {c : Char} (printing : Printing c) (look : Look) (rest : List Char) :
    draw none look (c :: rest) = (c, look) :: draw none look rest :=
  if_neg (printing.ne (by decide))

theorem draw_append {s : List Char} (printing : ∀ c ∈ s, Printing c) (look : Look)
    (rest : List Char) :
    draw none look (s ++ rest) = s.map (·, look) ++ draw none look rest := by
  induction s with
  | nil => rfl
  | cons c s ih =>
    obtain ⟨first, printing⟩ := List.forall_mem_cons.1 printing
    rw [List.cons_append, draw_cons first, ih printing]
    rfl

theorem struck_succ (old new : Nat → Char) (count : Nat) :
    struck old new (count + 1) = (struck old new count || old count != new count) := by
  simp only [struck, Nat.exists_lt_succ_right, Bool.decide_or, bne, decide_not, beq_eq_decide]

/-- Between two digits an escape stands only where one of them differs and the other does not. -/
theorem draw_turn {changed struck : Bool} (told : changed = true → struck = true) (differs : Bool)
    (rest : List Char) :
    draw none (.of changed struck)
        ((if changed == differs then [] else if differs then red else green) ++ rest) =
      draw none (.of differs (struck || differs)) rest := by
  cases changed with
  | false => cases differs <;> simp [draw_red, Look.of]
  | true => cases differs <;> simp [draw_green, Look.of, told rfl]

theorem draw_highlight (old : Nat → Char) {new : Nat → Char} (printing : ∀ k, Printing (new k))
    (first count : Nat) (changed : Bool) (told : changed = true → struck old new first = true)
    (rest : List Char) :
    draw none (.of changed (struck old new first))
        (highlight changed ((List.range' first count).map fun k => (old k, new k)) ++
          (reset ++ rest)) =
      (List.range' first count).map (fun k => (new k, look old new k)) ++ draw none {} rest := by
  induction count generalizing first changed with
  | zero => exact draw_reset _ rest
  | succ count ih =>
    have next := struck_succ old new first
    have behind := ih (first + 1) (old first != new first) fun differs => by
      rw [next, differs, Bool.or_true]
    rw [List.range'_succ, List.map_cons, List.map_cons, highlight, List.append_assoc,
      draw_turn told, ← next, List.cons_append, draw_cons (printing first), behind]
    rfl

theorem byteDigits_ofNat (n : Nat) :
    Hex.byteDigits (.ofNat n) = [Nat.digitChar (n / 16 % 16), Nat.digitChar (n % 16)] := by
  have high : n % 256 / 16 = n / 16 % 16 := by omega
  have low : n % 256 % 16 = n % 16 := by omega
  rw [Hex.byteDigits, UInt8.toNat_ofNat', high, low]

theorem wordDigits_eq (w : Word) : Hex.wordDigits w = w.digits := by
  have pairs : Hex.wordDigits w =
      Hex.byteDigits (.ofNat (w.toNat / 0x1000000)) ++
        Hex.byteDigits (.ofNat (w.toNat / 0x10000)) ++
        Hex.byteDigits (.ofNat (w.toNat / 0x100)) ++ Hex.byteDigits (.ofNat w.toNat) := rfl
  simp only [pairs, byteDigits_ofNat, Nat.div_div_eq_div_mul]
  simp [Word.digits, Word.digit, List.range_succ]

def drawnWord (old new : Word) : List (Char × Look) :=
  (List.range 8).map fun k =>
    (new.digit k, if old = new then {} else look old.digit new.digit k)

theorem wordText_self (w : Word) : wordText w w = w.digits :=
  (if_pos rfl).trans (wordDigits_eq w)

/-- What follows a word is drawn as if no word stood before it. -/
theorem draw_wordText (old new : Word) (rest : List Char) :
    draw none {} (wordText old new ++ rest) = drawnWord old new ++ draw none {} rest := by
  by_cases stays : old = new
  · subst stays
    rw [wordText_self, draw_append old.printing_digits, Word.digits, List.map_map]
    simp [drawnWord, Function.comp_def]
  · have none : struck old.digit new.digit 0 = false := by simp [struck]
    have drawn := draw_highlight old.digit new.printing_digit 0 8 false
      (fun changed => by cases changed) rest
    rw [none] at drawn
    simp only [drawnWord, stays, if_false]
    rw [wordText, if_neg stays, wordDigits_eq, wordDigits_eq, Word.digits, Word.digits,
      List.zip_map', List.append_assoc, List.append_assoc, draw_green, List.range_eq_range']
    exact drawn

example : wordText 0x4001 0x40ab = "\x1b[32m000040\x1b[31;1;4mab\x1b[m".toList := by decide

theorem not_mem_highlight {c : Char} (greens : c ∉ green) (reds : c ∉ red)
    {digits : List (Char × Char)} (news : ∀ d ∈ digits, d.2 ≠ c) (changed : Bool) :
    c ∉ highlight changed digits := by
  induction digits generalizing changed with
  | nil => exact List.not_mem_nil
  | cons d digits ih =>
    obtain ⟨new, news⟩ := List.forall_mem_cons.1 news
    simp only [highlight, List.mem_append, List.mem_cons, not_or]
    refine ⟨?_, new.symm, ih news _⟩
    split
    · exact List.not_mem_nil
    · split
      · exact reds
      · exact greens

theorem unbroken_wordText (old new : Word) : '\n' ∉ wordText old new := by
  have digits (w : Word) : ∀ c ∈ Hex.wordDigits w, c ≠ '\n' := by
    rw [wordDigits_eq]
    exact fun c digit => (w.printing_digits c digit).ne (by decide)
  rw [wordText]
  split
  · exact fun broken => digits new _ broken rfl
  · simp only [List.mem_append, not_or]
    refine ⟨⟨by decide, not_mem_highlight (by decide) (by decide) ?_ false⟩, by decide⟩
    exact fun d pair => digits new _ (List.of_mem_zip pair).2

def front (i : Nat) : List Char := (Text.hexFilled 8 (32 * i : Nat)).toList ++ [' ']

def back (ascii : Bool) (row : Bytes) : List Char :=
  if ascii then ['|', ' '] ++ row.map Dump.character else []

def wordsBeside (old new : Bytes) : List (Word × Word) := (Word.unpack old).zip (Word.unpack new)

def rowLine (ascii : Bool) (i : Nat) (old new : Bytes) : List Char :=
  front i ++ (wordsBeside old new).flatMap (fun (a, b) => wordText a b ++ [' ']) ++ back ascii new

theorem rowText_eq (ascii : Bool) (i : Nat) (old new : Bytes) :
    rowText (32 * i) ascii old new = rowLine ascii i old new ++ ['\n'] := rfl

theorem rowTexts_eq (old new : Nat → Bytes) (ascii : Bool) (first count : Nat) :
    rowTexts (32 * first) ascii ((List.range' first count).map fun i => (old i, new i)) =
      ((List.range' first count).filter fun i => old i ≠ new i).flatMap fun i =>
        rowLine ascii i (old i) (new i) ++ ['\n'] := by
  induction count generalizing first with
  | zero => rfl
  | succ count ih =>
    rw [List.range'_succ, List.map_cons, rowTexts, List.filter_cons, ← Nat.mul_succ, ih]
    by_cases same : old first = new first
    · simp only [same, ne_eq, not_true_eq_false, decide_false, Bool.false_eq_true, if_false,
        if_true, List.nil_append]
    · simp only [same, ne_eq, not_false_eq_true, decide_true, if_false, if_true, rowText_eq,
        List.flatMap_cons]

theorem printing_front (i : Nat) : ∀ c ∈ front i, Printing c :=
  List.forall_mem_append.2
    ⟨forall_mem_hexFilled printing_digitChar (by decide) 8 _,
      List.forall_mem_singleton.2 (by decide)⟩

theorem printing_back (ascii : Bool) (row : Bytes) : ∀ c ∈ back ascii row, Printing c := by
  rw [back]
  split
  · exact List.forall_mem_cons.2 ⟨by decide, List.forall_mem_cons.2 ⟨by decide,
      List.forall_mem_map.2 fun b _ => Dump.printing_character b⟩⟩
  · exact List.forall_mem_nil _

theorem unbroken_rowLine (ascii : Bool) (i : Nat) (old new : Bytes) :
    '\n' ∉ rowLine ascii i old new := by
  simp only [rowLine, List.mem_append, List.mem_flatMap, not_or, not_exists, not_and]
  refine ⟨⟨fun among => ?_, fun (a, b) _ => ⟨unbroken_wordText a b, by decide⟩⟩, fun among => ?_⟩
  · exact (printing_front i _ among).ne (by decide) rfl
  · exact (printing_back ascii new _ among).ne (by decide) rfl

def drawnPlain (s : List Char) : List (Char × Look) := s.map (·, {})

theorem draw_words (words : List (Word × Word)) (rest : List Char) :
    draw none {} (words.flatMap (fun (a, b) => wordText a b ++ [' ']) ++ rest) =
      words.flatMap (fun (a, b) => drawnWord a b ++ drawnPlain [' ']) ++ draw none {} rest := by
  induction words with
  | nil => rfl
  | cons w words ih =>
    rw [List.flatMap_cons, List.flatMap_cons, List.append_assoc, List.append_assoc, draw_wordText,
      draw_append (List.forall_mem_singleton.2 (by decide)), ih]
    simp only [drawnPlain, List.append_assoc]

theorem draw_rowLine (ascii : Bool) (i : Nat) (old new : Bytes) (rest : List Char) :
    draw none {} (rowLine ascii i old new ++ rest) =
      drawnPlain (front i) ++
        (wordsBeside old new).flatMap (fun (a, b) => drawnWord a b ++ drawnPlain [' ']) ++
        drawnPlain (back ascii new) ++ draw none {} rest := by
  rw [rowLine, List.append_assoc, List.append_assoc, draw_append (printing_front i), draw_words,
    draw_append (printing_back ascii new)]
  simp only [drawnPlain, List.append_assoc]

/-- The rows of 32 bytes in which two buffers differ. -/
def differing (old new : Bytes) : List Nat :=
  (List.range (segmentCount 32 new.length)).filter fun i => segment 32 i old ≠ segment 32 i new

theorem differing_eq_nil {old new : Bytes} (same : old.length = new.length) :
    differing old new = [] ↔ old = new := by
  constructor
  · intro none
    have rows : ∀ i ∈ List.range (segmentCount 32 new.length),
        segment 32 i old = segment 32 i new := by
      simpa only [differing, List.filter_eq_nil_iff, decide_eq_true_eq, ne_eq, not_not] using none
    have flat := congrArg List.flatten (List.map_congr_left rows)
    rw [← List.flatMap_def, ← List.flatMap_def, flatMap_segments (by decide), ← same,
      flatMap_segments (by decide)] at flat
    exact flat
  · rintro rfl
    simp [differing]

theorem rowTexts_segments {old new : Bytes} (same : old.length = new.length) (ascii : Bool) :
    rowTexts 0 ascii ((segments 32 old).zip (segments 32 new)) =
      (differing old new).flatMap fun i =>
        rowLine ascii i (segment 32 i old) (segment 32 i new) ++ ['\n'] := by
  rw [segments_eq_map (by decide), segments_eq_map (by decide), same, List.zip_map', differing,
    List.range_eq_range']
  exact rowTexts_eq (segment 32 · old) (segment 32 · new) ascii 0 _

/-- How a line tells of a row and of the one that was there before. Each word is written by `cell`,
and what a terminal shows of the line is the same whatever follows. -/
structure Tells (ascii : Bool) (cell : Word → Word → List Char) (i : Nat) (old new : Bytes)
    (line : List Char) : Prop where
  unbroken : '\n' ∉ line
  offset : readHex (line.takeWhile (· ≠ ' ')) = some (32 * i)
  written : line = front i ++
    (wordsBeside old new).flatMap (fun (a, b) => cell a b ++ [' ']) ++ back ascii new
  shown : shown line = front i ++
    (Word.unpack new).flatMap (fun w => w.digits ++ [' ']) ++ back ascii new
  drawn : ∀ rest, draw none {} (line ++ rest) = drawnPlain (front i) ++
    (wordsBeside old new).flatMap (fun (a, b) => drawnWord a b ++ drawnPlain [' ']) ++
    drawnPlain (back ascii new) ++ draw none {} rest

theorem shown_rowLine {old new : Bytes} (same : old.length = new.length) (ascii : Bool)
    (i : Nat) :
    shown (rowLine ascii i old new) =
      front i ++ (Word.unpack new).flatMap (fun w => w.digits ++ [' ']) ++ back ascii new := by
  have drawn := draw_rowLine ascii i old new []
  have plain (s : List Char) : (drawnPlain s).map Prod.fst = s := by
    simp [drawnPlain, Function.comp_def]
  have word (a b : Word) : (drawnWord a b).map Prod.fst = b.digits := by
    simp [drawnWord, Word.digits, Function.comp_def]
  have seconds : (wordsBeside old new).map Prod.snd = Word.unpack new :=
    List.map_snd_zip (Nat.le_of_eq (by rw [Word.length_unpack, Word.length_unpack, same]))
  rw [List.append_nil] at drawn
  rw [shown, drawn, ← seconds, List.flatMap_map]
  simp [plain, word, draw, List.map_flatMap]

theorem tells_rowLine {old new : Bytes} (same : old.length = new.length) (ascii : Bool) (i : Nat) :
    Tells ascii wordText i old new (rowLine ascii i old new) where
  unbroken := unbroken_rowLine ascii i old new
  offset := by
    rw [rowLine, front, List.append_assoc, List.append_assoc, List.singleton_append,
      takeWhile_hexFilled, readHex_hexFilled]
    rfl
  written := rfl
  shown := shown_rowLine same ascii i
  drawn := draw_rowLine ascii i old new

/-- Two buffers of one length in words are compared row by row, and any others not at all. -/
theorem render_tells_what_differs (old new : Bytes) (ascii : Bool) :
    (¬(old.length = new.length ∧ new.length % 4 = 0) →
      render old new ascii = .error .unevenDiff ∧ Error.kind .unevenDiff = .assertion) ∧
    (old.length = new.length ∧ new.length % 4 = 0 →
      ∃ (text : String) (cell : Word → Word → List Char) (line : Nat → List Char),
        render old new ascii = .ok text ∧ (text = "" ↔ old = new) ∧
        text.toList = (differing old new).flatMap (fun i => line i ++ ['\n']) ∧
        (∀ w, cell w w = w.digits ∧ '\x1b' ∉ cell w w) ∧
        ∀ i ∈ differing old new,
          Tells ascii cell i (segment 32 i old) (segment 32 i new) (line i)) := by
  refine ⟨fun uneven => ⟨if_neg fun even => uneven even.symm, rfl⟩, fun ⟨same, words⟩ => ?_⟩
  have rows (i : Nat) : (segment 32 i old).length = (segment 32 i new).length := by
    simp [segment, same]
  refine ⟨_, wordText, fun i => rowLine ascii i (segment 32 i old) (segment 32 i new),
    if_pos ⟨words, same⟩, ?_, ?_, fun w => ⟨wordText_self w, ?_⟩,
    fun i _ => tells_rowLine (rows i) ascii i⟩
  · rw [rowTexts_segments same, ← differing_eq_nil same, String.ofList_eq_empty_iff,
      List.flatMap_eq_nil_iff, List.eq_nil_iff_forall_not_mem]
    exact forall_congr' fun i => forall_congr' fun _ => by simp
  · rw [String.toList_ofList, rowTexts_segments same]
  · rw [wordText_self]
    exact fun escape => (w.printing_digits _ escape).ne (by decide) rfl

theorem render_tells_what_differs_in_one_digit :
    (∃ (text : String) (cell : Word → Word → List Char) (line : Nat → List Char),
      render [0x0f, 0, 0, 0] [0x0e, 0, 0, 0] true = .ok text ∧ text ≠ "" ∧
      text.toList = line 0 ++ ['\n'] ∧
      Tells true cell 0 [0x0f, 0, 0, 0] [0x0e, 0, 0, 0] (line 0)) ∧
    render [0x0f, 0, 0] [0x0e, 0, 0] true = .error .unevenDiff := by
  have even := (render_tells_what_differs [0x0f, 0, 0, 0] [0x0e, 0, 0, 0] true).2 (by decide)
  have uneven := (render_tells_what_differs [0x0f, 0, 0] [0x0e, 0, 0] true).1 (by decide)
  obtain ⟨text, cell, line, rendered, empty, lines, _, tells⟩ := even
  refine ⟨⟨text, cell, line, rendered, fun none => absurd (empty.1 none) (by decide), ?_, ?_⟩,
    uneven.1⟩
  · exact lines.trans (List.flatMap_singleton _ _)
  · exact tells 0 (by decide)

end WordDiff

end Keystream
