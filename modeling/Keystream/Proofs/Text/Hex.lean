import Keystream.Proofs.Segments
import Keystream.Proofs.Text.Radix
/-!
Which texts spell bytes, and the bytes read back from what is written. A text spells its bytes in
one way up to blanks and the case of its digits; words tell theirs by their places, so that no
separator hides them.
-/
namespace Keystream

theorem Word.segments_pack (ws : List Word) : segments 4 (pack ws) = ws.map bytes := by
  induction ws with
  | nil => rw [pack, List.flatMap_nil, segments, dif_pos (.inr rfl), List.map_nil]
  | cons w ws ih =>
    rw [pack, List.flatMap_cons, segments_append (by decide) (length_bytes w), List.map_cons, ← ih,
      pack]

namespace Hex

def digits : List Char := "0123456789abcdefABCDEF".toList

theorem isSome_digit? : ∀ c ∈ digits, (digit? c).isSome :=
  List.all_eq_true.1 (by decide : digits.all fun c => (digit? c).isSome)

theorem digit?_eq_some {c : Char} {d : Nat} (read : digit? c = some d) :
    c ∈ digits ∧ d < 16 ∧ Nat.digitChar d = c.toLower := by
  have ascii : ∀ n : Fin 128, ∀ d ∈ digit? (Char.ofNat n),
      Char.ofNat n ∈ digits ∧ d < 16 ∧ Nat.digitChar d = (Char.ofNat n).toLower := by decide
  have small : c.toNat < 128 := by
    by_contra beyond
    have above (bound : Char) (low : bound.toNat < 128) : ¬c ≤ bound :=
      fun within => beyond (Nat.lt_of_le_of_lt within low)
    simp [digit?, above] at read
  have spelled := ascii ⟨c.toNat, small⟩ d
  rw [Char.ofNat_toNat] at spelled
  exact spelled read

theorem decodePairs_cons_cons {a b : Char} {rest : List Char} {s : Bytes} :
    decodePairs (a :: b :: rest) = some s ↔
      ∃ high low t, digit? a = some high ∧ digit? b = some low ∧ decodePairs rest = some t ∧
        s = .ofNat (16 * high + low) :: t := by
  simp only [decodePairs, Option.bind_eq_bind, Option.bind_eq_some_iff]
  constructor
  · rintro ⟨high, first, low, second, t, behind, whole⟩
    exact ⟨high, low, t, first, second, behind, (Option.some.inj whole).symm⟩
  · rintro ⟨high, low, t, first, second, behind, rfl⟩
    exact ⟨high, first, low, second, t, behind, rfl⟩

theorem exists_decodePairs_iff (text : List Char) :
    (∃ s, decodePairs text = some s) ↔ text.length % 2 = 0 ∧ text ⊆ digits := by
  induction text using decodePairs.induct with
  | case1 => exact ⟨fun _ => ⟨rfl, List.nil_subset _⟩, fun _ => ⟨[], rfl⟩⟩
  | case2 c =>
    constructor
    · rintro ⟨s, read⟩
      cases read
    · rintro ⟨even, -⟩
      cases even
  | case3 a b rest ih =>
    simp only [List.length_cons, List.cons_subset]
    constructor
    · rintro ⟨s, read⟩
      obtain ⟨high, low, t, first, second, behind, -⟩ := decodePairs_cons_cons.1 read
      obtain ⟨even, spelled⟩ := ih.1 ⟨t, behind⟩
      exact ⟨by omega, (digit?_eq_some first).1, (digit?_eq_some second).1, spelled⟩
    · rintro ⟨even, first, second, spelled⟩
      obtain ⟨t, behind⟩ := ih.2 ⟨by omega, spelled⟩
      obtain ⟨high, first⟩ := Option.isSome_iff_exists.1 (isSome_digit? a first)
      obtain ⟨low, second⟩ := Option.isSome_iff_exists.1 (isSome_digit? b second)
      exact ⟨_, decodePairs_cons_cons.2 ⟨high, low, t, first, second, behind, rfl⟩⟩

theorem byteDigits_ofNat {high low : Nat} (highSmall : high < 16) (lowSmall : low < 16) :
    byteDigits (.ofNat (16 * high + low)) = [Nat.digitChar high, Nat.digitChar low] := by
  have value : (UInt8.ofNat (16 * high + low)).toNat = 16 * high + low := by
    rw [UInt8.toNat_ofNat']
    omega
  have upper : (16 * high + low) / 16 = high := by omega
  have lower : (16 * high + low) % 16 = low := by omega
  rw [byteDigits, value, upper, lower]

theorem flatMap_byteDigits_of_decodePairs {text : List Char} {s : Bytes}
    (read : decodePairs text = some s) : s.flatMap byteDigits = text.map Char.toLower := by
  induction text using decodePairs.induct generalizing s with
  | case1 =>
    cases read
    rfl
  | case2 c => cases read
  | case3 a b rest ih =>
    obtain ⟨high, low, t, first, second, behind, rfl⟩ := decodePairs_cons_cons.1 read
    obtain ⟨-, highSmall, first⟩ := digit?_eq_some first
    obtain ⟨-, lowSmall, second⟩ := digit?_eq_some second
    rw [List.flatMap_cons, byteDigits_ofNat highSmall lowSmall, ih behind, first, second]
    rfl

theorem decode_eq_ok_iff {text : String} {s : Bytes} :
    decode text = .ok s ↔ decodePairs (strip text) = some s := by
  unfold decode
  cases read : decodePairs (strip text) with
  | none => simp [read, throw, throwThe, MonadExceptOf.throw]
  | some t => simp [read, pure, Except.pure]

theorem strip_encode {sep : String} (blank : ∀ c ∈ sep.toList, Text.isBlank c) (s : Bytes) :
    strip (encode s sep) = encodeChars s [] := by
  have nothing : sep.toList.filter (fun c => !Text.isBlank c) = [] :=
    List.filter_eq_nil_iff.2 fun c mem => by simp [blank c mem]
  rw [strip, encode, String.toList_ofList, filter_encodeChars (by decide) nothing, encodeChars_nil]

def groupDigits (group : Bytes) : List Char := encodeChars group.reverse []

theorem map_wordDigits_unpack {s : Bytes} (whole : s.length % 4 = 0) :
    (Word.unpack s).map wordDigits = (segments 4 s).map groupDigits := by
  have groups : segments 4 s = (Word.unpack s).map Word.bytes := by
    rw [← Word.segments_pack, Word.pack_unpack whole]
  rw [groups, List.map_map]
  apply List.map_congr_left
  intro w _
  exact (encodeChars_nil _).symm

/-- The bytes of the words in a text where `gap` characters stand between any two. -/
def readWords (gap : Nat) (text : List Char) : Option Bytes :=
  (((segments (8 + gap) text).map (List.take 8)).mapM decodePairs).map
    (List.flatMap List.reverse)

theorem readWords_intercalate (sep : List Char) (ws : List Word) :
    readWords sep.length (sep.intercalate (ws.map wordDigits)) = some (Word.pack ws) := by
  have read (w : Word) : decodePairs (wordDigits w) = some (Word.bytes w).reverse := by
    rw [wordDigits, ← encodeChars_nil, decodePairs_encodeChars]
  have each : (ws.map wordDigits).mapM decodePairs =
      some (ws.map fun w => (Word.bytes w).reverse) := by
    induction ws with
    | nil => rfl
    | cons w ws ih => simp [read, ih]
  have wide : ∀ text ∈ ws.map wordDigits, text.length = 8 :=
    List.forall_mem_map.2 fun _ _ => rfl
  rw [readWords, segments_intercalate sep (by decide) wide, each, Option.map_some,
    List.flatMap_map]
  simp only [List.reverse_reverse, Word.pack]

/-- Reading takes pairs of digits of either case with blanks anywhere, gives bytes that are written
as those digits in lower case, and undoes writing with blanks or none between the bytes; in a row
of words each group of four bytes stands the last one first, and comes back from its place. -/
theorem decode_reads_digit_pairs :
    (∀ text, (∃ s, decode text = .ok s) ↔
      (strip text).length % 2 = 0 ∧ strip text ⊆ digits) ∧
    (∀ text s, decode text = .ok s → (encode s "").toList = (strip text).map Char.toLower) ∧
    (∀ s sep, (∀ c ∈ sep.toList, Text.isBlank c) → decode (encode s sep) = .ok s) ∧
    ∀ (s : Bytes) (sep : String), s.length % 4 = 0 →
      ∃ text, encodeWords s sep = .ok text ∧
        text.toList = sep.toList.intercalate ((segments 4 s).map groupDigits) ∧
        readWords sep.toList.length text.toList = some s := by
  refine ⟨fun text => ?accepts, fun text s read => ?lower, fun s sep blank => ?back,
    fun s sep whole => ?words⟩
  case accepts =>
    simp only [decode_eq_ok_iff]
    exact exists_decodePairs_iff (strip text)
  case lower =>
    rw [encode, String.toList_ofList, String.toList_empty, encodeChars_nil]
    exact flatMap_byteDigits_of_decodePairs (decode_eq_ok_iff.1 read)
  case back =>
    rw [decode_eq_ok_iff, strip_encode blank, decodePairs_encodeChars]
  case words =>
    refine ⟨_, if_pos whole, ?_, ?_⟩
    · rw [String.toList_ofList, map_wordDigits_unpack whole]
    · rw [String.toList_ofList, readWords_intercalate, Word.pack_unpack whole]

/-- A wide blank may part a pair, a wide digit spells nothing, and words are found between digits
that belong to none. -/
theorem decode_reads_digit_pairs_of_wide_blanks :
    (∃ s, decode "A\u20039 0f" = .ok s) ∧ (¬∃ s, decode "a\uff19" = .ok s) ∧
    (encode [0xa9, 0x0f] "").toList = "a90f".toList ∧
    decode (encode [0xa9, 0x0f] "\u3000\t") = .ok [0xa9, 0x0f] ∧
    ∃ text, encodeWords [4, 3, 2, 1, 0, 0, 0, 0xff] "0f0" = .ok text ∧
      readWords 3 text.toList = some [4, 3, 2, 1, 0, 0, 0, 0xff] := by
  obtain ⟨accepts, lower, back, words⟩ := decode_reads_digit_pairs
  have blank : "\u3000\t".toList.all Text.isBlank := by decide
  refine ⟨(accepts _).2 (by decide), fun read => ?_, lower "A\u20039 0f" _ (by decide),
    back _ _ (List.all_eq_true.1 blank), ?_⟩
  · exact absurd ((accepts _).1 read) (by decide)
  · obtain ⟨text, written, -, read⟩ := words [4, 3, 2, 1, 0, 0, 0, 0xff] "0f0" (by decide)
    exact ⟨text, written, read⟩

end Hex

end Keystream
